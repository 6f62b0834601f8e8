import PlutusCek.Budget
import PlutusCek.Modular
import PlutusCek.Protocol
import PlutusCek.StepKind

/-!
# Failure — why an evaluation stops without a result

Each cause has a wording and a code; the hundreds of the code give its kind.  The wording of a
cause that carries a term shows `<term>` in its place.
-/

namespace PlutusCek

/-- The class of a failure. -/
inductive FailureKind where
  | budget
  | script
  | type
  | builtin
  | internal
deriving DecidableEq

namespace FailureKind

/-- The first code of the class. -/
def firstCode : FailureKind → Nat
  | .budget => 100
  | .script => 200
  | .type => 300
  | .builtin => 400
  | .internal => 500

/-- The last code of the class. -/
def lastCode (k : FailureKind) : Nat := k.firstCode + 99

/-- More resources could help: only when the budget ran out. -/
def isRecoverable (k : FailureKind) : Bool := k == .budget

/-- The name of a class. -/
def render : FailureKind → String
  | .budget => "budget"
  | .script => "script"
  | .type => "type"
  | .builtin => "builtin"
  | .internal => "internal"

end FailureKind

/-- Why a builtin refuses arguments of the right types. -/
inductive Refusal where
  | divisionByZero
  | indexOutOfBounds (index : Int) (length : Nat)
  | emptyList
  | byteOutOfRange (n : Int)
  | invalidLength (what : String) (expected got : Nat)
  | invalidUtf8
  | malformed (what : String)
  | uncompress (group : String)
  | tagTooLong (length : Nat)
  | unexpectedData (wanted : String)
  | integerTooWide (n : Int)
  | negativeInteger (n : Int)
  | bitIndexOutOfRange (index : Int)
  | powerUndefined (fault : PowerFault)
  | invalidSize (n : Int)
  | assets (e : AssetError)
deriving DecidableEq

namespace Refusal

/-- The code of a refusal. -/
def code : Refusal → Nat
  | .divisionByZero => 400
  | .indexOutOfBounds _ _ => 401
  | .emptyList => 402
  | .byteOutOfRange _ => 403
  | .invalidLength _ _ _ => 404
  | .invalidUtf8 => 405
  | .malformed _ => 406
  | .uncompress _ => 407
  | .tagTooLong _ => 408
  | .unexpectedData _ => 409
  | .integerTooWide _ => 410
  | .negativeInteger _ => 411
  | .bitIndexOutOfRange _ => 412
  | .powerUndefined _ => 413
  | .invalidSize _ => 414
  | .assets _ => 415

/-- The wording of a refusal. -/
def message : Refusal → String
  | .divisionByZero => "division by zero"
  | .indexOutOfBounds index length => s!"index {index} out of bounds for length {length}"
  | .emptyList => "empty list"
  | .byteOutOfRange n => s!"byte {n} out of range"
  | .invalidLength what expected got => s!"expected {expected} bytes for {what}, got {got}"
  | .invalidUtf8 => "invalid UTF-8"
  | .malformed what => s!"malformed {what}"
  | .uncompress group => s!"invalid compressed {group} point"
  | .tagTooLong length => s!"domain separation tag of {length} bytes exceeds 255"
  | .unexpectedData wanted => s!"expected {wanted} data"
  | .integerTooWide n => s!"integer does not fit in {n} bytes"
  | .negativeInteger n => s!"cannot convert negative integer {n}"
  | .bitIndexOutOfRange index => s!"invalid bit index {index}"
  | .powerUndefined fault => "expModInteger: " ++ fault.message
  | .invalidSize n => s!"invalid size argument {n}"
  | .assets e => e.message

end Refusal

/-- What is broken about a builtin that has got forces and arguments. -/
inductive Fault where
  /-- Its forces are too many to count. -/
  | forces
  /-- Its arguments are too many to count. -/
  | arguments
  /-- It has more arguments than any builtin takes. -/
  | operands
deriving DecidableEq

/-- The wording of a fault. -/
def Fault.message : Fault → String
  | .forces => "force count must not wrap"
  | .arguments => "argument count must not wrap"
  | .operands => "builtins take at most MAX_ARITY arguments"

/-- Why an evaluation fails. -/
inductive Failure where
  /-- The budget is overdrawn; the rest is negative. -/
  | budgetExhausted (rest : Budget)
  /-- The error term was evaluated. -/
  | explicitError
  /-- A case has no branch for the tag. -/
  | missingBranch (tag : UInt64) (branches : Nat)
  /-- A tag is too large to select a branch. -/
  | tagTooLarge (tag : UInt64)
  /-- A variable is unbound. -/
  | openTerm (index : Nat)
  /-- A constant has another type than the one wanted. -/
  | typeMismatch (wanted got : String)
  /-- A constant was wanted. -/
  | notConstant (wanted : String) (got : Term)
  /-- Something that is not a function was applied. -/
  | notFunction (got : Term)
  /-- A builtin got an argument before all of its forces. -/
  | forceExpected (fn : Builtin)
  /-- A builtin was forced once too often. -/
  | argumentExpected (fn : Builtin)
  /-- Something that cannot be forced was forced. -/
  | notForceable (got : Term)
  /-- The scrutinee of a case is not a constructor. -/
  | notConstr (got : Term)
  /-- A builtin refused its arguments. -/
  | refused (fn : Builtin) (why : Refusal)
  /-- A builtin is not allowed, or has no costs. -/
  | unavailable (fn : Builtin) (language : Language) (protocol : Protocol)
  /-- A builtin was called with the wrong number of arguments. -/
  | malformedCall
  /-- A builtin that has got forces and arguments is broken. -/
  | corrupt (fault : Fault)

namespace Failure

/-- The class of a failure. -/
def kind : Failure → FailureKind
  | .budgetExhausted _ => .budget
  | .explicitError => .script
  | .missingBranch _ _ => .script
  | .tagTooLarge _ => .script
  | .openTerm _ => .type
  | .typeMismatch _ _ => .type
  | .notConstant _ _ => .type
  | .notFunction _ => .type
  | .forceExpected _ => .type
  | .argumentExpected _ => .type
  | .notForceable _ => .type
  | .notConstr _ => .type
  | .refused _ _ => .builtin
  | .unavailable _ _ _ => .builtin
  | .malformedCall => .internal
  | .corrupt _ => .internal

/-- The code of a failure. -/
def code : Failure → Nat
  | .budgetExhausted _ => 100
  | .explicitError => 200
  | .missingBranch _ _ => 201
  | .tagTooLarge _ => 202
  | .openTerm _ => 300
  | .typeMismatch _ _ => 301
  | .notConstant _ _ => 302
  | .notFunction _ => 303
  | .forceExpected _ => 304
  | .argumentExpected _ => 305
  | .notForceable _ => 306
  | .notConstr _ => 307
  | .refused _ why => why.code
  | .unavailable _ _ _ => 499
  | .malformedCall => 500
  | .corrupt _ => 500

/-- The term a failure carries. -/
def term? : Failure → Option Term
  | .notConstant _ t => some t
  | .notFunction t => some t
  | .notForceable t => some t
  | .notConstr t => some t
  | _ => none

/-- The wording of a failure. -/
def message : Failure → String
  | .budgetExhausted rest => "budget exhausted: " ++ rest.render
  | .explicitError => "explicit error term evaluated"
  | .missingBranch tag branches =>
    s!"no case branch for tag {tag.toNat} among {branches} branches"
  | .tagTooLarge tag => s!"constructor tag {tag.toNat} exceeds the maximum case tag"
  | .openTerm index => s!"open term evaluated: unbound variable i{index}"
  | .typeMismatch wanted got => s!"expected type {wanted}, but got {got}"
  | .notConstant wanted _ => s!"expected a constant of type {wanted}, got <term>"
  | .notFunction _ => "attempted to apply non-function <term>"
  | .forceExpected fn => "builtin " ++ fn.name ++ " expects a force before its next argument"
  | .argumentExpected fn => "builtin " ++ fn.name ++ " expects a term argument, not a force"
  | .notForceable _ => "attempted to force non-polymorphic value <term>"
  | .notConstr _ => "case scrutinee is not a constructor: <term>"
  | .refused fn why => fn.name ++ ": " ++ why.message
  | .unavailable fn language protocol =>
    "builtin " ++ fn.name ++ " is not available in " ++ language.render ++
      " at protocol version " ++ protocol.render
  | .malformedCall => "bug: builtin applied to the wrong number of arguments"
  | .corrupt fault => "bug: " ++ fault.message

end Failure

/-- A failure together with the kind of step it arose in, if it arose in one. -/
structure MachineError where
  cause : Failure
  step : Option StepKind

/-- The wording of a machine error. -/
def MachineError.message (e : MachineError) : String :=
  match e.step with
  | some k => e.cause.message ++ " (while computing " ++ k.render ++ ")"
  | none => e.cause.message

end PlutusCek
