import PlutusCek.Proofs.Heredity

/-!
# Proofs.Closedness — closed programs stay closed

The values of closed programs are well formed: a body refers to no more values than its closure has
captured, and so does every body inside them.  Well-formedness is inherited
(`Shape.inherited_wellFormed`), so every state of the run of a closed term is well formed.  A
variable is then always bound, and every term the run gives away, as its result or with a failure,
is closed (`Machine.run_closed`).
-/

namespace PlutusCek

theorem Shape.inherited_wellFormed : Shape.wellFormed.Inherited where
  lambda h := h
  apply h := by
    simp only [Shape.wellFormed, Term.isScoped, Bool.and_eq_true] at h ⊢
    exact h
  delay h := h
  force h := h
  constant _ := trivial
  fields h := Term.isScopedAll_iff.1 h
  branches h := by
    simp only [Shape.wellFormed, Term.isScoped, Bool.and_eq_true, Term.isScopedAll_iff] at h ⊢
    exact h
  constr := trivial
  builtin := Builtin.partial_zero
  forced h hneeds := Builtin.Partial.force h hneeds
  applied h hneeds hsat := Builtin.Partial.of_not_isSaturated h hneeds hsat
  reply _ _ := trivial

/-! ### Unbound variables -/

theorem Env.lookup?_ne_none {env : Env} {i : Nat} (h : (Term.var i).isScoped env.length = true) :
    env.lookup? i ≠ none := by
  simp only [Term.isScoped, decide_eq_true_eq] at h
  cases i with
  | zero => omega
  | succ i =>
    have hlt : i < env.length := by omega
    simp [lookup?, hlt]

theorem RunState.Meets.move_ne_openTerm {s : RunState} (hs : s.Meets .wellFormed) (i : Nat) :
    s.move ≠ .stuck (.openTerm i) := by
  intro hstuck
  cases RunState.stuck hstuck with
  | unbound hcontrol hnone =>
    have hscoped := hs.control
    rw [hcontrol] at hscoped
    exact Env.lookup?_ne_none hscoped.1 hnone

namespace Machine

variable {m : Machine} {t : Term} {fuel : Nat} {a b : Account}

/-- The run of a closed term never asks for a variable that is not bound. -/
theorem run_ne_openTerm (ht : t.IsClosed) {e : MachineError}
    (h : m.run fuel t a = some (.error e, b)) (i : Nat) : e.cause ≠ .openTerm i := by
  refine run_cause_ne (fun rest hf => by cases hf) (fun s hmem => ?_) (fun s _ fn args _ _ => ?_) h
  · have hs : s.Meets .wellFormed := meets_states Shape.inherited_wellFormed ht s hmem
    exact hs.move_ne_openTerm i
  · intro hperf
    cases perform_error hperf

/-- **Closed programs stay closed.**  Take a closed term, any machine, any account and any number of
steps.  In every state of the run each body that is captured in a closure, or waits in the control
or in a frame, is scoped by its environment, and so is every body inside the values of that
environment.  No run ends at an unbound variable, and the term it returns, or the term its failure
carries, is closed. -/
theorem run_closed (m : Machine) {t : Term} (ht : t.IsClosed) (a : Account) (fuel : Nat) :
    (∀ s ∈ m.states fuel t a, s.Meets .wellFormed) ∧
    (∀ r b, m.run fuel t a = some (.ok r, b) → r.IsClosed) ∧
    ∀ e b, m.run fuel t a = some (.error e, b) →
      (∀ i, e.cause ≠ .openTerm i) ∧ ∀ u, e.cause.term? = some u → u.IsClosed := by
  refine ⟨meets_states Shape.inherited_wellFormed ht, fun r b h => ?_, fun e b h => ?_⟩
  · obtain ⟨v, hv, rfl⟩ := run_ok_meets Shape.inherited_wellFormed ht h
    exact Value.isClosed_toTerm hv
  · refine ⟨run_ne_openTerm ht h, fun u hu => ?_⟩
    obtain ⟨v, hv, rfl⟩ := run_error_meets Shape.inherited_wellFormed ht h hu
    exact Value.isClosed_toTerm hv

/-- A program that returns a closure over a constant. -/
def capture : Term :=
  .apply (.lambda (.lambda (.apply (.var 1) (.var 2)))) (.constant (.integer 7))

theorem run_closed_capture : capture.IsClosed ∧
    (∃ b, (flat ⟨1, 1⟩ ⟨1, 2⟩ ⟨3, 4⟩).run 40 capture (.ofBudget ⟨100, 100⟩) =
      some (.ok (.lambda (.apply (.var 1) (.constant (.integer 7)))), b)) ∧
    Term.IsClosed (.lambda (.apply (.var 1) (.constant (.integer 7)))) := by
  have hclosed : capture.IsClosed := by decide
  obtain ⟨b, hrun⟩ : ∃ b,
      (flat ⟨1, 1⟩ ⟨1, 2⟩ ⟨3, 4⟩).run 40 capture (.ofBudget ⟨100, 100⟩) =
        some (.ok (.lambda (.apply (.var 1) (.constant (.integer 7)))), b) := ⟨_, rfl⟩
  obtain ⟨-, hresult, -⟩ :=
    run_closed (flat ⟨1, 1⟩ ⟨1, 2⟩ ⟨3, 4⟩) hclosed (.ofBudget ⟨100, 100⟩) 40
  exact ⟨hclosed, ⟨b, hrun⟩, hresult _ b hrun⟩

end Machine

end PlutusCek
