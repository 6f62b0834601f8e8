import PlutusCek.Call.Structure
import PlutusCek.Proofs.Sizes

/-!
# Proofs.Tariff — what every builtin is charged by, what it logs, and when it rejects

Operands are charged by their size in memory, but for a few that are charged by the number they
stand for or by the length of a list (`Builtin.measures`).  Only `trace` logs anything, and only a
division refuses operands of the right types before it is charged for: a call that has been charged
for never fails for a zero divisor.  A preparation that keeps to this is said to have a tariff
(`Call.Tariff`).
-/

namespace PlutusCek

/-- How an operand is measured. -/
inductive Measure where
  /-- Its size in memory. -/
  | memory
  /-- The magnitude of an integer. -/
  | literal
  /-- The words of as many bytes as an integer says. -/
  | words
  /-- The number of items of a list. -/
  | length
  /-- What the two data of the call take to compare. -/
  | comparison

/-- The size of one of the operands `args`.  What a measure does not apply to is measured by its
size in memory. -/
def Measure.of (args : List Value) : Measure → Value → Amount
  | .literal, .con (.integer n) => Size.magnitude n
  | .words, .con (.integer n) => Size.bytesAsWords n
  | .length, .con (.list _ items) => Size.count items.length
  | .comparison, v =>
    match args with
    | [.con (.data x), .con (.data y)] => Size.comparison x y
    | _ => v.size
  | _, v => v.size

/-- The sizes of operands, each by its measure. -/
def Measure.sizes (ms : List Measure) (args : List Value) : List Amount :=
  List.zipWith (Measure.of args) ms args

theorem Measure.of_nonneg (args : List Value) (m : Measure) (v : Value) :
    0 ≤ (m.of args v).toInt := by
  unfold Measure.of
  split
  · exact Size.magnitude_nonneg _
  · exact Size.bytesAsWords_nonneg _
  · exact Size.count_nonneg _
  · split
    · exact Size.comparison_nonneg _ _
    · exact Value.size_nonneg _
  · exact Value.size_nonneg _

theorem Measure.sizes_nonneg (ms : List Measure) (args : List Value) (i : Nat) :
    0 ≤ (Call.sizes (Measure.sizes ms args) i).toInt := by
  show 0 ≤ ((List.zipWith (Measure.of args) ms args).getD i 0).toInt
  rw [List.getD_eq_getElem?_getD, List.getElem?_zipWith]
  cases ms[i]? with
  | none => exact Amount.ofNat_nonneg 0
  | some m =>
    cases args[i]? with
    | none => exact Amount.ofNat_nonneg 0
    | some v => exact m.of_nonneg args v

namespace Builtin

/-- The measures of the operands of a builtin. -/
def measures : Builtin → List Measure
  | .dropList => [.literal, .memory]
  | .shiftByteString => [.memory, .literal]
  | .rotateByteString => [.memory, .literal]
  | .integerToByteString => [.memory, .words, .memory]
  | .replicateByte => [.words, .memory]
  | .writeBits => [.memory, .length, .memory]
  | .listToArray => [.length]
  | .g1MultiScalarMul => [.length, .length]
  | .g2MultiScalarMul => [.length, .length]
  | .equalsData => [.comparison, .comparison]
  | fn => List.replicate fn.arity .memory

/-- The sizes that a call on operands is charged by. -/
def operandSizes (fn : Builtin) (args : List Value) : List Amount :=
  Measure.sizes fn.measures args

theorem length_measures (fn : Builtin) : fn.measures.length = fn.arity := by
  cases fn <;> rfl

/-- The builtins that divide, and so do not take zero for a divisor. -/
def divides : Builtin → Bool
  | .divideInteger => true
  | .quotientInteger => true
  | .remainderInteger => true
  | .modInteger => true
  | _ => false

/-- How operands are rejected before a charge: one has the wrong type or is no constant, or the
divisor is zero. -/
inductive Rejects (fn : Builtin) (args : List Value) : Failure → Prop
  | mismatch (wanted got : String) : Rejects fn args (.typeMismatch wanted got)
  | notConstant {v : Value} (hv : v ∈ args) (wanted : String) :
    Rejects fn args (.notConstant wanted v.toTerm)
  | zeroDivisor (h : fn.divides = true) : Rejects fn args (.refused fn .divisionByZero)

end Builtin

namespace Call

/-- A call without a message. -/
def Silent (_ : List Value) (message : Option String) : Prop := message = none

/-- A call whose message is its first operand. -/
def Announces (args : List Value) (message : Option String) : Prop :=
  ∃ s, args.head? = some (.con (.string s)) ∧ message = some s

end Call

/-- The message that a builtin logs on operands. -/
def Builtin.Logs : Builtin → List Value → Option String → Prop
  | .trace => Call.Announces
  | _ => Call.Silent

namespace Call

/-- What a prepared call is charged by, what it logs, and that it does not fail for a zero divisor
any more. -/
structure Bill (ms : List Measure) (Note : List Value → Option String → Prop)
    (args : List Value) (call : Call) : Prop where
  size : call.size = sizes (Measure.sizes ms args)
  message : ∀ {r}, call.perform () = .ok r → Note args r.message
  failure : ∀ g, call.perform () ≠ .error (.refused g .divisionByZero)

/-- What comes of preparing a call. -/
inductive Billed (fn : Builtin) (ms : List Measure) (Note : List Value → Option String → Prop)
    (args : List Value) : Except Failure Call → Prop
  | error {f : Failure} (h : fn.Rejects args f) : Billed fn ms Note args (.error f)
  | ok {call : Call} (h : call.Bill ms Note args) : Billed fn ms Note args (.ok call)

/-- A preparation for as many operands as there are measures. -/
def Tariff (fn : Builtin) (ms : List Measure) (Note : List Value → Option String → Prop)
    (prepare : List Value → Except Failure Call) : Prop :=
  ∀ {args}, args.length = ms.length → Billed fn ms Note args (prepare args)

/-! ### Sizes -/

theorem sizesOfArgs_eq (vs : List Value) : sizesOfArgs vs = sizes (vs.map Value.size) := by
  funext i
  show sizesOfArgs vs i = (vs.map Value.size).getD i 0
  rw [sizesOfArgs, List.getD_eq_getElem?_getD, List.getElem?_map]
  cases vs[i]? <;> rfl

theorem dropSizes_eq (n : Int) (l : Value) :
    dropSizes n l = sizes [Size.magnitude n, l.size] := by
  funext i
  rcases i with _ | _ | i <;> rfl

end Call

end PlutusCek
