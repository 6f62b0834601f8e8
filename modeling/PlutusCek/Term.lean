import PlutusCek.Builtin
import PlutusCek.Constant

/-!
# Term — programs

Variables are de Bruijn indices: index 1 is the innermost enclosing lambda, and index 0 is never
bound.
-/

namespace PlutusCek

/-- A term. -/
inductive Term where
  | var (index : Nat)
  | lambda (body : Term)
  | apply (function argument : Term)
  | delay (body : Term)
  | force (body : Term)
  | constant (c : Constant)
  | error
  | builtin (fn : Builtin)
  | constr (tag : UInt64) (fields : List Term)
  | case (scrutinee : Term) (branches : List Term)
deriving Inhabited

namespace Term

/-- The constant, if the term is one. -/
def constant? : Term → Option Constant
  | .constant c => some c
  | _ => none

/-- A term applied to arguments, from left to right. -/
def applyAll (f : Term) (args : List Term) : Term :=
  args.foldl .apply f

/-- A term under a number of forces. -/
def forced : Nat → Term → Term
  | 0, t => t
  | n + 1, t => .force (forced n t)

/-- A constructor or a case occurs in one of the terms still to visit, of which the last one pushed
is the next. -/
def anyUsesSums : List Term → Bool
  | [] => false
  | t :: pending =>
    match t with
    | .constr _ _ | .case _ _ => true
    | .delay body | .force body | .lambda body => anyUsesSums (body :: pending)
    | .apply f a => anyUsesSums (a :: f :: pending)
    | .var _ | .constant _ | .error | .builtin _ => anyUsesSums pending
termination_by pending => pending.foldr (fun t n => sizeOf t + n) 0

/-- A constructor or a case occurs in the term. -/
def usesSums (t : Term) : Bool := anyUsesSums [t]

mutual

/-- Structural equality. -/
def beq : Term → Term → Bool
  | .var i, .var j => i == j
  | .lambda s, .lambda t => beq s t
  | .apply f a, .apply g b => beq f g && beq a b
  | .delay s, .delay t => beq s t
  | .force s, .force t => beq s t
  | .constant c, .constant d => c == d
  | .error, .error => true
  | .builtin f, .builtin g => f == g
  | .constr m ss, .constr n ts => m == n && beqList ss ts
  | .case s ss, .case t ts => beq s t && beqList ss ts
  | _, _ => false

/-- Structural equality of lists of terms. -/
def beqList : List Term → List Term → Bool
  | [], [] => true
  | s :: ss, t :: ts => beq s t && beqList ss ts
  | _, _ => false

end

instance : BEq Term := ⟨beq⟩

mutual

/-- Replaces variables by a partial substitution.  `bound` is the number of binders between the
term and the scope of the substitution: variable `bound + 1` is number 0 of the substitution.
Variables without a replacement, and those bound inside, are left alone. -/
def substitute (replace : Nat → Option Term) : Nat → Term → Term
  | bound, .var i =>
    if i ≤ bound then .var i
    else
      match replace (i - bound - 1) with
      | some t => t
      | none => .var i
  | bound, .lambda body => .lambda (substitute replace (bound + 1) body)
  | bound, .apply f a => .apply (substitute replace bound f) (substitute replace bound a)
  | bound, .delay body => .delay (substitute replace bound body)
  | bound, .force body => .force (substitute replace bound body)
  | _, .constant c => .constant c
  | _, .error => .error
  | _, .builtin f => .builtin f
  | bound, .constr tag fields => .constr tag (substituteList replace bound fields)
  | bound, .case s branches =>
    .case (substitute replace bound s) (substituteList replace bound branches)

/-- Replaces variables in each term of a list. -/
def substituteList (replace : Nat → Option Term) : Nat → List Term → List Term
  | _, [] => []
  | bound, t :: ts => substitute replace bound t :: substituteList replace bound ts

end

end Term

end PlutusCek
