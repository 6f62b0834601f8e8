import PlutusCek.Term

/-!
# StepKind — the kinds of machine step that are charged for
-/

namespace PlutusCek

/-- The kind of a step: the form of the term it evaluates. -/
inductive StepKind where
  | constant
  | var
  | lambda
  | apply
  | delay
  | force
  | builtin
  | constr
  | case
deriving DecidableEq

namespace StepKind

/-- Every kind, in order. -/
def all : List StepKind :=
  [.constant, .var, .lambda, .apply, .delay, .force, .builtin, .constr, .case]

/-- The place in the order. -/
def index : StepKind → Nat
  | .constant => 0
  | .var => 1
  | .lambda => 2
  | .apply => 3
  | .delay => 4
  | .force => 5
  | .builtin => 6
  | .constr => 7
  | .case => 8

/-- The kind of the step that evaluates a term.  The error term is free. -/
def of? : Term → Option StepKind
  | .var _ => some .var
  | .lambda _ => some .lambda
  | .apply _ _ => some .apply
  | .delay _ => some .delay
  | .force _ => some .force
  | .constant _ => some .constant
  | .error => none
  | .builtin _ => some .builtin
  | .constr _ _ => some .constr
  | .case _ _ => some .case

/-- The name of a kind. -/
def render : StepKind → String
  | .constant => "constant"
  | .var => "var"
  | .lambda => "lambda"
  | .apply => "apply"
  | .delay => "delay"
  | .force => "force"
  | .builtin => "builtin"
  | .constr => "constr"
  | .case => "case"

/-- The stem of the kind's cost parameters. -/
def parameterStem : StepKind → String
  | .constant => "cekConstCost"
  | .var => "cekVarCost"
  | .lambda => "cekLamCost"
  | .apply => "cekApplyCost"
  | .delay => "cekDelayCost"
  | .force => "cekForceCost"
  | .builtin => "cekBuiltinCost"
  | .constr => "cekConstrCost"
  | .case => "cekCaseCost"

theorem mem_all (k : StepKind) : k ∈ all := by
  cases k <;> decide

end StepKind

/-- One entry per kind of step. -/
structure PerStep (α : Type) where
  constant : α
  var : α
  lambda : α
  apply : α
  delay : α
  force : α
  builtin : α
  constr : α
  case : α
deriving DecidableEq

namespace PerStep

variable {α : Type}

/-- The same entry for every kind. -/
def uniform (a : α) : PerStep α := ⟨a, a, a, a, a, a, a, a, a⟩

/-- The entry of a kind. -/
def get (t : PerStep α) : StepKind → α
  | .constant => t.constant
  | .var => t.var
  | .lambda => t.lambda
  | .apply => t.apply
  | .delay => t.delay
  | .force => t.force
  | .builtin => t.builtin
  | .constr => t.constr
  | .case => t.case

/-- Changes the entry of a kind. -/
def modify (t : PerStep α) (k : StepKind) (f : α → α) : PerStep α :=
  match k with
  | .constant => { t with constant := f t.constant }
  | .var => { t with var := f t.var }
  | .lambda => { t with lambda := f t.lambda }
  | .apply => { t with apply := f t.apply }
  | .delay => { t with delay := f t.delay }
  | .force => { t with force := f t.force }
  | .builtin => { t with builtin := f t.builtin }
  | .constr => { t with constr := f t.constr }
  | .case => { t with case := f t.case }

/-- Replaces the entry of a kind. -/
def set (t : PerStep α) (k : StepKind) (a : α) : PerStep α :=
  t.modify k fun _ => a

/-- Changes every entry, given its kind. -/
def mapWithKind (g : StepKind → α → α) (t : PerStep α) : PerStep α :=
  ⟨g .constant t.constant, g .var t.var, g .lambda t.lambda, g .apply t.apply, g .delay t.delay,
    g .force t.force, g .builtin t.builtin, g .constr t.constr, g .case t.case⟩

@[simp] theorem get_uniform (a : α) (k : StepKind) : (uniform a).get k = a := by
  cases k <;> rfl

@[simp] theorem get_modify_self (t : PerStep α) (k : StepKind) (f : α → α) :
    (t.modify k f).get k = f (t.get k) := by
  cases k <;> rfl

theorem get_modify_ne (t : PerStep α) {j k : StepKind} (f : α → α) (h : j ≠ k) :
    (t.modify j f).get k = t.get k := by
  cases j <;> cases k <;> first | rfl | exact absurd rfl h

@[simp] theorem get_mapWithKind (g : StepKind → α → α) (t : PerStep α) (k : StepKind) :
    (t.mapWithKind g).get k = g k (t.get k) := by
  cases k <;> rfl

end PerStep

end PlutusCek
