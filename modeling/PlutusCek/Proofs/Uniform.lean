import Mathlib.Data.List.Forall2
import PlutusCek.Call
import PlutusCek.Proofs.Scope

/-!
# Proofs.Uniform — calls that hand on what they do not read

A builtin looks at an operand through the constant it is, and otherwise only returns it.  A
preparation is uniform if calls on operands that have the same terms fail alike, or succeed with the
same message and with values that are related as the operands are (`Call.Uniform`).  Constants are
read off terms: values with the same term are read alike (`Call.reading_asConstant`).
-/

namespace PlutusCek.Call

variable {R : Value → Value → Prop}

/-- Values related by `R` have the same term, and constants are related. -/
structure Indistinct (R : Value → Value → Prop) : Prop where
  con : ∀ c, R (.con c) (.con c)
  toTerm : ∀ {v w}, R v w → v.toTerm = w.toTerm

/-- Failures that are the same, or replies with related values and the same message. -/
inductive RepliesAlike (R : Value → Value → Prop) :
    Except Failure Reply → Except Failure Reply → Prop
  | error (f : Failure) : RepliesAlike R (.error f) (.error f)
  | ok {r s : Reply} (value : R r.value s.value) (message : r.message = s.message) :
    RepliesAlike R (.ok r) (.ok s)

/-- Failures that are the same, or calls that reply alike. -/
inductive CallsAlike (R : Value → Value → Prop) :
    Except Failure Call → Except Failure Call → Prop
  | error (f : Failure) : CallsAlike R (.error f) (.error f)
  | ok {c d : Call} (replies : RepliesAlike R (c.perform ()) (d.perform ())) :
    CallsAlike R (.ok c) (.ok d)

/-- A preparation that takes related arguments, `n` of them, to calls that reply alike. -/
def Uniform (n : Nat) (prepare : List Value → Except Failure Call) : Prop :=
  ∀ {R}, Indistinct R → ∀ {args args'}, args.length = n → List.Forall₂ R args args' →
    CallsAlike R (prepare args) (prepare args')

/-! ### Reading operands -/

/-- A reading that depends on the term of a value only. -/
def Reading {α : Type} (read : Value → Except Failure α) : Prop :=
  ∀ ⦃v w : Value⦄, v.toTerm = w.toTerm → read v = read w

/-- The term of a builtin is that of no constant. -/
theorem toTerm_builtin_ne (fn : Builtin) (forces count : Nat) (args : List Value) (c : Constant) :
    (Value.builtin fn forces count args).toTerm ≠ .constant c := by
  have hhead : Term.forced forces (.builtin fn) ≠ .constant c := by
    cases forces <;> exact fun h => by cases h
  rw [Value.toTerm]
  split
  · cases args with
    | cons a args => exact fun h => by cases h
    | nil => exact hhead
  · exact hhead

theorem reading_asConstant (wanted : String) : Reading (Value.asConstant wanted) := by
  intro v w h
  cases v with
  | con c =>
    cases w with
    | con d => cases h; rfl
    | builtin fn forces count args => exact absurd h.symm (toTerm_builtin_ne fn forces count args c)
    | _ => cases h
  | builtin fn forces count args =>
    cases w with
    | con d => exact absurd h (toTerm_builtin_ne fn forces count args d)
    | _ => simp only [Value.asConstant, h]
  | _ =>
    cases w with
    | con d => cases h
    | _ => simp only [Value.asConstant, h]

end PlutusCek.Call
