import PlutusCek.Proofs.States

/-!
# Proofs.Lockstep — two machines that take the same steps

Two machines are in lockstep if, from every state that matters, they take the same step, unless the
first one fails there for a reason that tells them apart.  Then a run of the second is the run of
the first, or the first ends for such a reason (`Lockstep.run`).  Machines that charge alike are in
lockstep once their builtin calls come to the same (`lockstep_of_invoke`).
-/

namespace PlutusCek.Machine

/-- From a state that meets `Fits`, the second machine takes the step that the first one takes,
unless the first one fails there for a reason that is `Telling`. -/
structure Lockstep (Fits : RunState → Prop) (Telling : Failure → Prop) (m₁ m₂ : Machine) :
    Prop where
  startup : m₂.costs.startup = m₁.costs.startup
  fits : ∀ {s s'}, Fits s → m₁.step s = .more s' → Fits s'
  step : ∀ {s}, Fits s →
    m₂.step s = m₁.step s ∨ ∃ e fs b, m₁.step s = .stop (.error e) fs b ∧ Telling e.cause

variable {Fits : RunState → Prop} {Telling : Failure → Prop} {m₁ m₂ : Machine}

namespace Lockstep

theorem resume (h : Lockstep Fits Telling m₁ m₂) {s : RunState} (hs : Fits s) (fuel : Nat) :
    m₂.resume fuel s = m₁.resume fuel s ∨
      ∃ e b, m₁.resume fuel s = some (.error e, b) ∧ Telling e.cause := by
  induction fuel generalizing s with
  | zero => exact .inl rfl
  | succ fuel ih =>
    simp only [resume_succ]
    rcases h.step hs with hsame | ⟨e, fs, b, hstop, he⟩
    · rw [hsame]
      cases hnext : m₁.step s with
      | more s' => exact ih (h.fits hs hnext)
      | stop x fs b => exact .inl rfl
    · refine .inr ⟨e, b, ?_, he⟩
      rw [hstop]

/-- **Runs in lockstep** come to the same, unless the first one fails for a telling reason. -/
theorem run (h : Lockstep Fits Telling m₁ m₂) {t : Term} {a : Account}
    (hstart : ∀ b, a.settle.spend m₁.costs.startup = .ok b → Fits ⟨.compute t [], [], b⟩)
    (fuel : Nat) :
    m₂.run fuel t a = m₁.run fuel t a ∨
      ∃ e b, m₁.run fuel t a = some (.error e, b) ∧ Telling e.cause := by
  simp only [run_eq_resume]
  rw [h.startup]
  cases hspend : a.settle.spend m₁.costs.startup with
  | error y => exact .inl rfl
  | ok b => exact h.resume (hstart b hspend) fuel

end Lockstep

/-! ### Machines with the same costs -/

section SameCosts

variable (hcosts : m₂.costs = m₁.costs)
  (hinvoke : ∀ fn args a, m₂.invoke fn args a = m₁.invoke fn args a ∨
    ∃ f b, m₁.invoke fn args a = .error (f, b) ∧ Telling f)
include hcosts hinvoke

theorem follow_lockstep (kind : Option StepKind) (left : List Frame) (a : Account) (move : Move) :
    m₂.follow kind left a move = m₁.follow kind left a move ∨
      ∃ e fs b, m₁.follow kind left a move = .stop (.error e) fs b ∧ Telling e.cause := by
  cases move with
  | next control frames => exact .inl rfl
  | call fn args frames =>
    simp only [follow]
    rcases hinvoke fn args a with hsame | ⟨f, b, hfail, hf⟩
    · rw [hsame]
      exact .inl rfl
    · refine .inr ⟨⟨f, kind⟩, left, b, ?_, hf⟩
      rw [hfail]
  | halt v =>
    refine .inl ?_
    simp only [follow, hcosts]
  | stuck f => exact .inl rfl

/-- Machines that charge alike are in lockstep if each builtin call of the second is that of the
first, unless that one fails for a telling reason. -/
theorem lockstep_of_invoke (hslippage : m₂.slippage = m₁.slippage) :
    Lockstep (fun _ => True) Telling m₁ m₂ where
  startup := by rw [hcosts]
  fits _ _ := trivial
  step {s} _ := by
    obtain ⟨control, frames, account⟩ := s
    cases control with
    | compute t env =>
      have hcharge : m₂.chargeStep = m₁.chargeStep := by
        funext kind a
        simp only [chargeStep, hcosts, hslippage]
      simp only [Machine.step, hcharge]
      cases m₁.chargeStep (StepKind.of? t) account with
      | ok a => exact follow_lockstep hcosts hinvoke _ _ _ _
      | error y => exact .inl rfl
    | answer v => exact follow_lockstep hcosts hinvoke _ _ _ _

end SameCosts

end PlutusCek.Machine
