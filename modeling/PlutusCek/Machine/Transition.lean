import PlutusCek.Value

/-!
# Machine.Transition — the moves of the machine, without their costs

The machine either computes a term in an environment or hands a value to the top frame of its
stack.  A move depends on nothing else; in particular not on the budget.
-/

namespace PlutusCek

/-- What to do with the next value. -/
inductive Frame where
  /-- The value is a function; its argument is still a term. -/
  | argumentTerm (env : Env) (argument : Term)
  /-- The value is the argument of a function. -/
  | argumentOf (function : Value)
  /-- The value is a function; its argument is known. -/
  | argumentValue (argument : Value)
  /-- Force the value. -/
  | force
  /-- The value is a constructor field.  Fields before it are kept latest first. -/
  | field (env : Env) (tag : UInt64) (remaining : List Term) (done : List Value)
  /-- The value selects a branch. -/
  | branches (env : Env) (terms : List Term)

/-- What the machine is at. -/
inductive Control where
  | compute (term : Term) (env : Env)
  | answer (value : Value)

/-- The next move. -/
inductive Move where
  /-- Go on with a control and a stack. -/
  | next (control : Control) (frames : List Frame)
  /-- Call a builtin on the arguments it keeps, and go on with its result. -/
  | call (fn : Builtin) (args : List Value) (frames : List Frame)
  /-- The evaluation is complete. -/
  | halt (value : Value)
  /-- The evaluation cannot go on. -/
  | stuck (failure : Failure)

namespace Move

/-- A builtin that has just got a force or an argument: called if saturated, else a value. -/
def ofBuiltin (fn : Builtin) (forces count : Nat) (args : List Value) (frames : List Frame) :
    Move :=
  if Value.isSaturated fn forces count then .call fn args frames
  else .next (.answer (.builtin fn forces count args)) frames

/-- Applies a value to an argument. -/
def apply (function argument : Value) (frames : List Frame) : Move :=
  match function with
  | .lambda body env => .next (.compute body (Env.extend env argument)) frames
  | .builtin fn forces count args =>
    if Value.needsForce fn forces then .stuck (.forceExpected fn)
    else if Value.isSaturated fn forces count then
      .stuck (.notFunction (Value.builtin fn forces count args).toTerm)
    else
      match Value.countUp .arguments count with
      | .ok count => ofBuiltin fn forces count (argument :: args) frames
      | .error f => .stuck f
  | v => .stuck (.notFunction v.toTerm)

/-- Forces a value. -/
def force (value : Value) (frames : List Frame) : Move :=
  match value with
  | .delay body env => .next (.compute body env) frames
  | .builtin fn forces count args =>
    if Value.needsForce fn forces then
      match Value.countUp .forces forces with
      | .ok forces => ofBuiltin fn forces count args frames
      | .error f => .stuck f
    else .stuck (.argumentExpected fn)
  | v => .stuck (.notForceable v.toTerm)

/-- A builtin that needs an argument has room to count it. -/
theorem apply_builtin (fn : Builtin) (forces count : Nat) (args : List Value) (a : Value)
    (frames : List Frame) :
    apply (.builtin fn forces count args) a frames =
      if Value.needsForce fn forces then .stuck (.forceExpected fn)
      else if Value.isSaturated fn forces count then
        .stuck (.notFunction (Value.builtin fn forces count args).toTerm)
      else ofBuiltin fn forces (count + 1) (a :: args) frames := by
  rw [apply]
  split
  · rfl
  · rename_i hneeds
    split
    · rfl
    · rename_i hsat
      have hcount : count < Builtin.maxArity := by
        simp only [Value.isSaturated, hneeds, Bool.not_false, Bool.true_and,
          decide_eq_true_eq] at hsat
        exact Nat.lt_of_lt_of_le (Nat.lt_of_not_le hsat) fn.arity_le
      rw [Value.countUp_of_lt hcount]

/-- A builtin that needs a force has room to count it. -/
theorem force_builtin (fn : Builtin) (forces count : Nat) (args : List Value)
    (frames : List Frame) :
    force (.builtin fn forces count args) frames =
      if Value.needsForce fn forces then ofBuiltin fn (forces + 1) count args frames
      else .stuck (.argumentExpected fn) := by
  rw [force]
  split
  · rename_i hneeds
    have hlt : forces < fn.forceCount := of_decide_eq_true hneeds
    have hle := fn.forceCount_le
    rw [Value.countUp_of_lt (show forces < 6 by omega)]
  · rfl

/-- Frames that apply the next value to each field, the first one first. -/
def applyFields (fields : List Value) (frames : List Frame) : List Frame :=
  fields.map .argumentValue ++ frames

/-- The greatest tag that selects a branch. -/
def maxTag : Nat := 9223372036854775807

/-- Selects the branch of a constructor and applies it to the fields. -/
def select (env : Env) (terms : List Term) (value : Value) (frames : List Frame) : Move :=
  match value with
  | .constr tag fields =>
    if maxTag < tag.toNat then .stuck (.tagTooLarge tag)
    else
      match terms[tag.toNat]? with
      | some branch => .next (.compute branch env) (applyFields fields frames)
      | none => .stuck (.missingBranch tag terms.length)
  | v => .stuck (.notConstr v.toTerm)

/-- The move that computes a term. -/
def compute (term : Term) (env : Env) (frames : List Frame) : Move :=
  match term with
  | .var index =>
    match env.lookup? index with
    | some v => .next (.answer v) frames
    | none => .stuck (.openTerm index)
  | .lambda body => .next (.answer (.lambda body env)) frames
  | .apply f a => .next (.compute f env) (.argumentTerm env a :: frames)
  | .delay body => .next (.answer (.delay body env)) frames
  | .force body => .next (.compute body env) (.force :: frames)
  | .constant c => .next (.answer (.con c)) frames
  | .error => .stuck .explicitError
  | .builtin fn => .next (.answer (.builtin fn 0 0 [])) frames
  | .constr tag [] => .next (.answer (.constr tag [])) frames
  | .constr tag (t :: ts) => .next (.compute t env) (.field env tag ts [] :: frames)
  | .case scrutinee terms => .next (.compute scrutinee env) (.branches env terms :: frames)

/-- The move that hands a value to the top frame. -/
def answer (value : Value) (frames : List Frame) : Move :=
  match frames with
  | [] => .halt value
  | .argumentTerm env a :: rest => .next (.compute a env) (.argumentOf value :: rest)
  | .argumentOf f :: rest => apply f value rest
  | .argumentValue a :: rest => apply value a rest
  | .force :: rest => force value rest
  | .field _ tag [] done :: rest => .next (.answer (.constr tag (value :: done).reverse)) rest
  | .field env tag (t :: ts) done :: rest =>
    .next (.compute t env) (.field env tag ts (value :: done) :: rest)
  | .branches env terms :: rest => select env terms value rest

end Move

end PlutusCek
