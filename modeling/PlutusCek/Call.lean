import PlutusCek.Cost.Function
import PlutusCek.Value

/-!
# Call — a builtin call between its operand checks and its result

A call is prepared by reading the operands, which may fail.  A prepared call knows the sizes it is
charged by, and performs the computation once it has been paid for.
-/

namespace PlutusCek

/-- The result of a call, and the message it logs, if any. -/
structure Reply where
  value : Value
  message : Option String

/-- A prepared call. -/
structure Call where
  /-- The size of each operand. -/
  size : Nat → Amount
  /-- The computation. -/
  perform : Unit → Except Failure Reply

namespace Call

/-- Operands measured by their own sizes; absent ones are zero. -/
def sizesOfArgs (args : List Value) (i : Nat) : Amount :=
  match args[i]? with
  | some v => v.size
  | none => 0

/-- A call that always gives a constant. -/
def total (size : Nat → Amount) (result : Unit → Constant) : Call :=
  ⟨size, fun _ => .ok ⟨.con (result ()), none⟩⟩

/-- A call of `fn` that may refuse its operands. -/
def guarded (fn : Builtin) (size : Nat → Amount) (result : Unit → Except Refusal Constant) : Call :=
  ⟨size, fun _ =>
    match result () with
    | .ok c => .ok ⟨.con c, none⟩
    | .error why => .error (.refused fn why)⟩

/-- A call that may find an item of the wrong type. -/
def checked (size : Nat → Amount) (result : Unit → Except Failure Constant) : Call :=
  ⟨size, fun _ =>
    match result () with
    | .ok c => .ok ⟨.con c, none⟩
    | .error f => .error f⟩

/-- A call that gives one of its operands. -/
def select (size : Nat → Amount) (result : Value) : Call :=
  ⟨size, fun _ => .ok ⟨result, none⟩⟩

/-- Sizes given as a list. -/
abbrev sizes (l : List Amount) : Nat → Amount := CostFunction.sizesOf l

end Call

end PlutusCek
