import PlutusCek.Budget
import PlutusCek.Cost.Function
import PlutusCek.StepKind

/-!
# Cost.Model — what every step and every builtin call costs
-/

namespace PlutusCek

/-- The cost functions of a builtin. -/
structure BuiltinCost where
  mem : CostFunction
  cpu : CostFunction
deriving DecidableEq

/-- The cost of a call whose operands have the given sizes. -/
def BuiltinCost.cost (c : BuiltinCost) (size : Nat → Amount) : Budget :=
  ⟨c.mem.cost size, c.cpu.cost size⟩

/-- A cost model.  A builtin without costs cannot be called. -/
structure CostModel where
  /-- Charged once before evaluation. -/
  startup : Budget
  steps : PerStep Budget
  builtins : BuiltinTable (Option BuiltinCost)
deriving DecidableEq

namespace CostModel

/-- The cost of a step. -/
def stepCost (m : CostModel) (k : StepKind) : Budget := m.steps.get k

/-- The costs of a builtin. -/
def builtinCost? (m : CostModel) (f : Builtin) : Option BuiltinCost := m.builtins.get f

/-- Sets the cost of a step. -/
def setStep (m : CostModel) (k : StepKind) (b : Budget) : CostModel :=
  { m with steps := m.steps.set k b }

/-- Sets the costs of a builtin. -/
def setBuiltin (m : CostModel) (f : Builtin) (c : BuiltinCost) : CostModel :=
  { m with builtins := m.builtins.set f (some c) }

end CostModel

end PlutusCek
