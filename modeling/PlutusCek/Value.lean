import PlutusCek.Failure
import PlutusCek.Size

/-!
# Value — machine values, environments, and their terms

A closure keeps the values of its free variables, innermost first.  A builtin counts the forces and
arguments it has got, and keeps the arguments, latest first; they are read into a buffer when it is
called.  A value is turned back into a term by putting the terms of the captured values for the free
variables.
-/

namespace PlutusCek

/-- A machine value. -/
inductive Value where
  | con (c : Constant)
  | delay (body : Term) (env : List Value)
  | lambda (body : Term) (env : List Value)
  /-- A builtin with the numbers of forces and arguments it has got, and the arguments. -/
  | builtin (fn : Builtin) (forces count : Nat) (args : List Value)
  | constr (tag : UInt64) (fields : List Value)
deriving Inhabited

/-- The values of the enclosing lambdas, innermost first. -/
abbrev Env := List Value

namespace Env

/-- The value of a variable.  Index 1 is the innermost; index 0 is unbound. -/
def lookup? (env : Env) : Nat → Option Value
  | 0 => none
  | i + 1 => env[i]?

/-- Binds a value at index 1. -/
def extend (env : Env) (v : Value) : Env := v :: env

end Env

namespace Value

/-! ### Back to terms -/

mutual

/-- The term of a value. -/
def toTerm : Value → Term
  | .con c => .constant c
  | .delay body env => .delay (body.substitute (resolve env) 0)
  | .lambda body env => .lambda (body.substitute (resolve env) 1)
  | .builtin fn forces _ args =>
    -- arguments that are no operands are left out
    if args.length ≤ Builtin.maxArity then spine (Term.forced forces (.builtin fn)) args
    else Term.forced forces (.builtin fn)
  | .constr tag fields => .constr tag (toTerms fields)

/-- The terms of an environment as a substitution. -/
def resolve : List Value → Nat → Option Term
  | [], _ => none
  | v :: _, 0 => some (toTerm v)
  | _ :: env, i + 1 => resolve env i

/-- The application of a head to arguments given latest first. -/
def spine (head : Term) : List Value → Term
  | [] => head
  | a :: earlier => .apply (spine head earlier) (toTerm a)

/-- The terms of a list of values. -/
def toTerms : List Value → List Term
  | [] => []
  | v :: vs => toTerm v :: toTerms vs

end

/-! ### Builtin applications -/

/-- The next thing a builtin needs is a force. -/
def needsForce (fn : Builtin) (forces : Nat) : Bool :=
  decide (forces < fn.forceCount)

/-- A builtin has all of its forces and arguments. -/
def isSaturated (fn : Builtin) (forces count : Nat) : Bool :=
  !needsForce fn forces && decide (fn.arity ≤ count)

/-- The greatest number that a count can reach. -/
def maxCount : Nat := 18446744073709551615

/-- Counts one more force or argument. -/
def countUp (fault : Fault) (count : Nat) : Except Failure Nat :=
  if count < maxCount then .ok (count + 1) else .error (.corrupt fault)

/-- Appends arguments to a buffer with a place for each operand of a call. -/
def fill : List Value → List Value → Except Failure (List Value)
  | buffer, [] => .ok buffer
  | buffer, a :: earlier =>
    if buffer.length < Builtin.maxArity then fill (buffer ++ [a]) earlier
    else .error (.corrupt .operands)

/-- The operands of a call in order of application, from the arguments latest first. -/
def operands (args : List Value) : Except Failure (List Value) :=
  (fill [] args).map List.reverse

/-- What a builtin still needs is counted far below the greatest count. -/
theorem countUp_of_lt {fault : Fault} {count : Nat} (h : count < Builtin.maxArity) :
    countUp fault count = .ok (count + 1) :=
  if_pos (Nat.lt_trans h (by decide))

theorem fill_eq (buffer args : List Value) (h : buffer.length ≤ Builtin.maxArity) :
    fill buffer args =
      if buffer.length + args.length ≤ Builtin.maxArity then .ok (buffer ++ args)
      else .error (.corrupt .operands) := by
  induction args generalizing buffer with
  | nil => simp only [fill, List.length_nil, Nat.add_zero, h, if_true, List.append_nil]
  | cons a earlier ih =>
    rw [fill]
    by_cases hroom : buffer.length < Builtin.maxArity
    · have hlen : (buffer ++ [a]).length = buffer.length + 1 := List.length_append
      rw [if_pos hroom, ih _ (hlen ▸ hroom), hlen, List.length_cons, List.append_assoc,
        Nat.add_assoc, Nat.add_comm 1, List.singleton_append]
    · rw [if_neg hroom, if_neg (by rw [List.length_cons]; omega)]

/-- The operands are the arguments in order, unless there are too many. -/
theorem operands_eq (args : List Value) :
    operands args =
      if args.length ≤ Builtin.maxArity then .ok args.reverse else .error (.corrupt .operands) := by
  rw [operands, fill_eq [] args (Nat.zero_le _)]
  simp only [List.length_nil, Nat.zero_add, List.nil_append]
  split <;> rfl

theorem operands_of_length_le {args : List Value} (h : args.length ≤ Builtin.maxArity) :
    operands args = .ok args.reverse := by
  rw [operands_eq, if_pos h]

/-- What is read as operands are the arguments in order. -/
theorem eq_reverse_of_operands {args ops : List Value} (h : operands args = .ok ops) :
    ops = args.reverse ∧ args.length ≤ Builtin.maxArity := by
  rw [operands_eq] at h
  split at h
  · cases h
    exact ⟨rfl, ‹_›⟩
  · cases h

/-- Too many arguments are the only fault in reading them. -/
theorem eq_corrupt_of_operands {args : List Value} {f : Failure} (h : operands args = .error f) :
    f = .corrupt .operands ∧ ¬ args.length ≤ Builtin.maxArity := by
  rw [operands_eq] at h
  split at h
  · cases h
  · cases h
    exact ⟨rfl, ‹_›⟩

theorem toTerm_of_length_le {args : List Value} (h : args.length ≤ Builtin.maxArity) (fn : Builtin)
    (forces count : Nat) :
    toTerm (.builtin fn forces count args) = spine (Term.forced forces (.builtin fn)) args := by
  rw [toTerm, if_pos h]

/-- The term of a builtin applies it to what is read as its operands, and to nothing if they cannot
be read. -/
theorem toTerm_builtin (fn : Builtin) (forces count : Nat) (args : List Value) :
    toTerm (.builtin fn forces count args) =
      ((operands args).toOption.getD []).foldl (fun t v => .apply t v.toTerm)
        (Term.forced forces (.builtin fn)) := by
  have hspine : spine (Term.forced forces (.builtin fn)) args =
      args.reverse.foldl (fun t v => .apply t v.toTerm) (Term.forced forces (.builtin fn)) := by
    induction args with
    | nil => rfl
    | cons a earlier ih => simp only [spine, ih, List.reverse_cons, List.foldl_append, List.foldl]
  rw [operands_eq, toTerm]
  split
  · exact hspine
  · rfl

/-! ### Reading constants -/

/-- The size of a value as an operand; what is not a constant has size one. -/
def size : Value → Amount
  | .con c => Size.constant c
  | _ => 1

/-- The constant of a value; `wanted` is named if there is none. -/
def asConstant (wanted : String) : Value → Except Failure Constant
  | .con c => .ok c
  | v => .error (.notConstant wanted v.toTerm)

/-- The failure for a constant of the wrong type. -/
def mismatch (wanted : String) (c : Constant) : Failure :=
  .typeMismatch wanted c.type.render

/-- The integer of a value. -/
def asInteger (v : Value) : Except Failure Int := do
  match ← v.asConstant "integer" with
  | .integer n => return n
  | c => throw (mismatch "integer" c)

/-- The byte string of a value. -/
def asBytes (v : Value) : Except Failure Bytes := do
  match ← v.asConstant "bytestring" with
  | .bytes b => return b
  | c => throw (mismatch "bytestring" c)

/-- The string of a value. -/
def asString (v : Value) : Except Failure String := do
  match ← v.asConstant "string" with
  | .string s => return s
  | c => throw (mismatch "string" c)

/-- The truth value of a value. -/
def asBool (v : Value) : Except Failure Bool := do
  match ← v.asConstant "bool" with
  | .bool b => return b
  | c => throw (mismatch "bool" c)

/-- The value is the unit constant. -/
def asUnit (v : Value) : Except Failure Unit := do
  match ← v.asConstant "unit" with
  | .unit => return ()
  | c => throw (mismatch "unit" c)

/-- The data of a value. -/
def asData (v : Value) : Except Failure Data := do
  match ← v.asConstant "data" with
  | .data d => return d
  | c => throw (mismatch "data" c)

/-- The declared item type and the items of a list. -/
def asList (v : Value) : Except Failure (ConstType × List Constant) := do
  match ← v.asConstant "list" with
  | .list t items => return (t, items)
  | c => throw (mismatch "list" c)

/-- The items of a list declared with item type `t`. -/
def asListOf (t : ConstType) (v : Value) : Except Failure (List Constant) := do
  let (s, items) ← v.asList
  if s = t then return items
  else throw (.typeMismatch (ConstType.list t).render (ConstType.list s).render)

/-- The components of a pair. -/
def asPair (v : Value) : Except Failure (Constant × Constant) := do
  match ← v.asConstant "pair" with
  | .pair _ _ a b => return (a, b)
  | c => throw (mismatch "pair" c)

/-- The declared item type and the items of an array. -/
def asArray (v : Value) : Except Failure (ConstType × List Constant) := do
  match ← v.asConstant "array" with
  | .array t items => return (t, items)
  | c => throw (mismatch "array" c)

/-- The point of the first group of a value. -/
def asG1 (v : Value) : Except Failure Crypto.Bls12381.G1 := do
  match ← v.asConstant "bls12_381_G1_element" with
  | .g1 p => return p
  | c => throw (mismatch "bls12_381_G1_element" c)

/-- The point of the second group of a value. -/
def asG2 (v : Value) : Except Failure Crypto.Bls12381.G2 := do
  match ← v.asConstant "bls12_381_G2_element" with
  | .g2 p => return p
  | c => throw (mismatch "bls12_381_G2_element" c)

/-- The pairing result of a value. -/
def asMiller (v : Value) : Except Failure Crypto.Bls12381.MillerResult := do
  match ← v.asConstant "bls12_381_mlresult" with
  | .miller r => return r
  | c => throw (mismatch "bls12_381_mlresult" c)

/-- The bundle of assets of a value. -/
def asAssets (v : Value) : Except Failure Assets := do
  match ← v.asConstant "value" with
  | .assets a => return a
  | c => throw (mismatch "value" c)

end Value

end PlutusCek
