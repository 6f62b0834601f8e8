import PlutusCek.Cost.Defaults
import PlutusCek.Update

/-!
# Cost.Parameters — overriding costs by parameter name or position

Every amount in a cost model has a name.  A set of overrides is applied as a whole or not at all.
-/

namespace PlutusCek

/-- Why overrides cannot be applied. -/
inductive ParameterError where
  | unknown (name : String)
  | tooMany (expected got : Nat)
  | incomplete (fn : Builtin) (missing : String)
deriving DecidableEq

/-- The wording of a parameter error. -/
def ParameterError.message : ParameterError → String
  | .unknown name => "unknown cost model parameter \x60" ++ name ++ "\x60"
  | .tooMany expected got =>
    s!"expected at most {expected} cost model parameters, got {got}"
  | .incomplete fn missing =>
    "builtin " ++ fn.name ++ " has no default costs and is missing parameter \x60" ++ missing ++
      "\x60"

/-- Values by parameter name, sorted by name and without repetition. -/
structure Overrides where
  entries : List (String × Amount)
deriving DecidableEq

namespace Overrides

/-- Puts a value in its place, over one with the same name. -/
def place (name : String) (v : Amount) : List (String × Amount) → List (String × Amount)
  | [] => [(name, v)]
  | (n, w) :: rest =>
    if name < n then (name, v) :: (n, w) :: rest
    else if n < name then (n, w) :: place name v rest
    else (name, v) :: rest

/-- The overrides of a list of pairs; later ones win. -/
def ofList (pairs : List (String × Amount)) : Overrides :=
  ⟨pairs.foldl (fun out p => place p.1 p.2 out) []⟩

/-- The value of a name. -/
def get? (o : Overrides) (name : String) : Option Amount :=
  o.entries.lookup name

/-- The names, sorted. -/
def names (o : Overrides) : List String := o.entries.map Prod.fst

end Overrides

namespace CostModel

/-- The parameters of a budget. -/
def budgetParameters (stem : String) (b : Budget) : List (String × Amount) :=
  [(stem ++ "-exBudgetCPU", b.cpu), (stem ++ "-exBudgetMemory", b.mem)]

/-- The stem of the parameters of the startup cost. -/
def startupStem : String := "cekStartupCost"

/-- The stem of the parameters of a builtin's processor cost. -/
def cpuStem (f : Builtin) : String := f.name ++ "-cpu-arguments"

/-- The stem of the parameters of a builtin's memory cost. -/
def memStem (f : Builtin) : String := f.name ++ "-memory-arguments"

/-- The parameters of a builtin. -/
def builtinParameters (m : CostModel) (f : Builtin) : List (String × Amount) :=
  match m.builtinCost? f with
  | some c => c.cpu.parameters (cpuStem f) ++ c.mem.parameters (memStem f)
  | none => []

/-- The names and values of all parameters: startup, steps, then builtins by tag. -/
def parameters (m : CostModel) : List (String × Amount) :=
  budgetParameters startupStem m.startup ++
    (StepKind.all.flatMap fun k => budgetParameters k.parameterStem (m.stepCost k)) ++
    Builtin.all.flatMap m.builtinParameters

/-- Assigns the parameters of a budget. -/
def assignBudget (g : CostFunction.Assignment) (stem : String) (b : Budget) : Budget :=
  ⟨g (stem ++ "-exBudgetMemory") b.mem, g (stem ++ "-exBudgetCPU") b.cpu⟩

/-- Assigns the parameters of a builtin. -/
def assignBuiltin (g : CostFunction.Assignment) (f : Builtin) (c : BuiltinCost) : BuiltinCost :=
  ⟨c.mem.assign g (memStem f), c.cpu.assign g (cpuStem f)⟩

/-- Assigns every parameter; the shapes stay. -/
def assign (g : CostFunction.Assignment) (m : CostModel) : CostModel where
  startup := assignBudget g startupStem m.startup
  steps := m.steps.mapWithKind fun k b => assignBudget g k.parameterStem b
  builtins := .ofFn fun f => (m.builtinCost? f).map (assignBuiltin g f)

/-- The names of all parameters, sorted. -/
def parameterNames (m : CostModel) : List String :=
  (m.parameters.map Prod.fst).mergeSort fun a b => !decide (b < a)

/-! ### By name -/

/-- The part of a parameter name before its first hyphen, if it has one. -/
def owner? (name : String) : Option String :=
  if name.toList.contains '-' then some (String.ofList (name.toList.takeWhile (· != '-'))) else none

/-- The builtin a parameter name belongs to. -/
def ownerBuiltin? (name : String) : Option Builtin :=
  (owner? name).bind Builtin.ofName?

/-- A model with templates for the builtins without costs that some name mentions, and the list of
those builtins. -/
def instantiate (m : CostModel) (added : List Builtin) :
    List String → Except ParameterError (CostModel × List Builtin)
  | [] => .ok (m, added)
  | name :: rest =>
    match owner? name with
    | none => .error (.unknown name)
    | some stem =>
      match Builtin.ofName? stem with
      | none => instantiate m added rest
      | some f =>
        match m.builtinCost? f with
        | some _ => instantiate m added rest
        | none =>
          match template? f with
          | none => .error (.unknown name)
          | some c => instantiate (m.setBuiltin f c) (f :: added) rest

/-- The first parameter of a newly costed builtin that has no override. -/
def firstMissing? (added : List Builtin) (o : Overrides) (names : List String) :
    Option (Builtin × String) :=
  names.findSome? fun name =>
    match o.get? name with
    | some _ => none
    | none =>
      (ownerBuiltin? name).bind fun f => if added.contains f then some (f, name) else none

/-- Overrides parameters by name, in place.  A builtin without costs becomes callable when all of
its parameters are named.  What is edited is a copy, which takes the place of the model at the
end. -/
def overrideNamed (o : Overrides) : Update ParameterError CostModel Unit := do
  let (copy, added) ← (← get).instantiate [] o.names
  let names := copy.parameters.map Prod.fst
  match o.names.find? fun name => !names.contains name with
  | some name => throw (.unknown name)
  | none =>
    match firstMissing? added o names with
    | some (f, name) => throw (.incomplete f name)
    | none => set (copy.assign fun name old => (o.get? name).getD old)

/-- The model with parameters overridden by name, if that succeeds. -/
def applyNamed (m : CostModel) (o : Overrides) : Except ParameterError CostModel :=
  (overrideNamed o).result m

/-! ### By position -/

/-- Overrides parameters by their position among the sorted names, in place. -/
def overrideOrdered (values : List Amount) : Update ParameterError CostModel Unit := do
  let names := (← get).parameterNames
  if values.length > names.length then
    throw (.tooMany names.length values.length)
  else
    overrideNamed (.ofList (names.zip values))

/-- The model with parameters overridden by position, if that succeeds. -/
def applyOrdered (m : CostModel) (values : List Amount) : Except ParameterError CostModel :=
  (overrideOrdered values).result m

end CostModel

end PlutusCek
