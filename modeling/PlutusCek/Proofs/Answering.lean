import PlutusCek.Proofs.Charging

/-!
# Proofs.Answering — what a builtin call comes to

Once it has been paid for, a call on constants comes to one result (`Builtin.ComesTo.unique`): it
gives a constant (`Builtin.Answers`) or is refused (`Builtin.Refuses`).
-/

namespace PlutusCek

namespace Builtin

/-- Once it has been paid for, the call has the result, whatever the semantics are. -/
def ComesTo (fn : Builtin) (operands : List Constant) (result : Except Failure Reply) : Prop :=
  ∀ semantics, ∃ call, fn.prepare semantics (operands.map .con) = .ok call ∧
    call.perform () = result

/-- Once it has been paid for, the builtin gives the constant and logs nothing. -/
def Answers (fn : Builtin) (operands : List Constant) (answer : Constant) : Prop :=
  ∀ semantics, ∃ call, fn.prepare semantics (operands.map .con) = .ok call ∧
    call.perform () = .ok ⟨.con answer, none⟩

/-- Once it has been paid for, the builtin refuses the operands. -/
def Refuses (fn : Builtin) (operands : List Constant) (why : Refusal) : Prop :=
  ∀ semantics, ∃ call, fn.prepare semantics (operands.map .con) = .ok call ∧
    call.perform () = .error (.refused fn why)

variable {fn : Builtin} {operands : List Constant} {result result' : Except Failure Reply}
  {answer answer' : Constant} {why : Refusal}

theorem answers_iff_comesTo :
    fn.Answers operands answer ↔ fn.ComesTo operands (.ok ⟨.con answer, none⟩) := Iff.rfl

theorem refuses_iff_comesTo :
    fn.Refuses operands why ↔ fn.ComesTo operands (.error (.refused fn why)) := Iff.rfl

/-! ### One result -/

theorem ComesTo.unique (h : fn.ComesTo operands result) (h' : fn.ComesTo operands result') :
    result = result' := by
  obtain ⟨call, hcall, hperform⟩ := h .checked
  obtain ⟨call', hcall', hperform'⟩ := h' .checked
  obtain rfl : call = call' := Except.ok.inj (hcall.symm.trans hcall')
  exact hperform.symm.trans hperform'

theorem Answers.unique (h : fn.Answers operands answer) (h' : fn.Answers operands answer') :
    answer = answer' := by
  rw [answers_iff_comesTo] at h h'
  cases h.unique h'
  rfl

theorem Answers.not_refuses (h : fn.Answers operands answer) : ¬ fn.Refuses operands why := by
  rw [answers_iff_comesTo] at h
  rw [refuses_iff_comesTo]
  intro h'
  cases h.unique h'

/-! ### Calls that do not depend on the semantics -/

theorem comesTo_of_prepare {call : Call}
    (h : ∀ semantics, fn.prepare semantics (operands.map .con) = .ok call) :
    fn.ComesTo operands (call.perform ()) :=
  fun semantics => ⟨call, h semantics, rfl⟩

theorem comesTo_iff {call : Call}
    (h : ∀ semantics, fn.prepare semantics (operands.map .con) = .ok call) :
    fn.ComesTo operands result ↔ call.perform () = result := by
  constructor
  · exact (comesTo_of_prepare h).unique
  · rintro rfl
    exact comesTo_of_prepare h

section Checked

variable {size : Nat → Amount} {compute : Unit → Except Failure Constant}
  (h : ∀ semantics, fn.prepare semantics (operands.map .con) = .ok (Call.checked size compute))
include h

theorem answers_checked : fn.Answers operands answer ↔ compute () = .ok answer := by
  rw [answers_iff_comesTo, comesTo_iff h, Call.checked]
  cases compute () with
  | error f => simp
  | ok c => simp

theorem refuses_checked :
    fn.Refuses operands why ↔ compute () = .error (.refused fn why) := by
  rw [refuses_iff_comesTo, comesTo_iff h, Call.checked]
  cases compute () with
  | error f => simp
  | ok c => simp

end Checked

section Guarded

variable {size : Nat → Amount} {compute : Unit → Except Refusal Constant}
  (h : ∀ semantics, fn.prepare semantics (operands.map .con) = .ok (Call.guarded fn size compute))
include h

theorem answers_guarded : fn.Answers operands answer ↔ compute () = .ok answer := by
  rw [answers_iff_comesTo, comesTo_iff h, Call.guarded]
  cases compute () with
  | error why => simp
  | ok c => simp

theorem refuses_guarded : fn.Refuses operands why ↔ compute () = .error why := by
  rw [refuses_iff_comesTo, comesTo_iff h, Call.guarded]
  cases compute () with
  | error why => simp
  | ok c => simp

end Guarded

end Builtin

end PlutusCek
