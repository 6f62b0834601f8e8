import PlutusCek.Proofs.Payment

/-!
# Proofs.Independence — costs decide whether a run is cut short, and nothing else

The course of an evaluation depends on the language, the protocol version, the semantics and the set
of builtins that have costs.  Two machines that agree on these take the same course, and a longer
run only continues it.  So any two runs of a term that are not overdrawn end alike.
-/

namespace PlutusCek.Machine

variable {m : Machine}

/-! ### More fuel -/

/-- A course that has ended stays as it is with more fuel. -/
theorem course_mono {fuel fuel' : Nat} {control : Control} {frames : List Frame}
    {x : Except MachineError Term} (h : (m.course fuel control frames).2 = some x)
    (hle : fuel ≤ fuel') : m.course fuel' control frames = m.course fuel control frames := by
  induction fuel generalizing fuel' control frames with
  | zero => cases h
  | succ fuel ih =>
    obtain ⟨k, rfl⟩ : ∃ k, fuel' = k + 1 := ⟨fuel' - 1, by omega⟩
    rcases hadv : m.advance frames control with ⟨es, p⟩
    cases p with
    | ended y => rw [course_succ_ended hadv, course_succ_ended hadv]
    | going c fs =>
      rw [course_succ_going hadv] at h
      rw [course_succ_going hadv, course_succ_going hadv, ih h (by omega)]

/-- Two courses of one evaluation that have both ended are equal. -/
theorem course_unique {fuel fuel' : Nat} {control : Control} {frames : List Frame}
    {x y : Except MachineError Term} (hx : (m.course fuel control frames).2 = some x)
    (hy : (m.course fuel' control frames).2 = some y) :
    m.course fuel control frames = m.course fuel' control frames := by
  rcases Nat.le_total fuel fuel' with hle | hle
  · exact (course_mono hx hle).symm
  · exact course_mono hy hle

/-! ### Other costs -/

/-- The machines allow the same calls and mean the same by them. -/
structure Agrees (m₁ m₂ : Machine) : Prop where
  language : m₁.language = m₂.language
  protocol : m₁.protocol = m₂.protocol
  semantics : m₁.semantics = m₂.semantics
  costed : ∀ fn, (m₁.costs.builtinCost? fn).isSome = (m₂.costs.builtinCost? fn).isSome

namespace Agrees

variable {m₁ m₂ : Machine}

theorem isAvailable (h : Agrees m₁ m₂) (fn : Builtin) : m₁.isAvailable fn = m₂.isAvailable fn := by
  unfold Machine.isAvailable
  rw [h.language, h.protocol, h.costed fn]

theorem perform (h : Agrees m₁ m₂) (fn : Builtin) (args : List Value) :
    m₁.perform fn args = m₂.perform fn args := by
  unfold Machine.perform Machine.respond unavailable
  rw [h.isAvailable fn, h.semantics, h.language, h.protocol]

theorem carryOut (h : Agrees m₁ m₂) (kind : Option StepKind) (move : Move) :
    m₁.carryOut kind move = m₂.carryOut kind move := by
  cases move with
  | call fn args frames => simp only [Machine.carryOut, h.perform fn args]
  | _ => rfl

theorem advance (h : Agrees m₁ m₂) (frames : List Frame) (control : Control) :
    m₁.advance frames control = m₂.advance frames control := by
  cases control with
  | compute t env => simp only [Machine.advance, h.carryOut]
  | answer v => exact h.carryOut _ _

/-- Machines that agree take the same course. -/
theorem course (h : Agrees m₁ m₂) (fuel : Nat) (control : Control) (frames : List Frame) :
    m₁.course fuel control frames = m₂.course fuel control frames := by
  induction fuel generalizing control frames with
  | zero => rfl
  | succ fuel ih =>
    simp only [Machine.course, h.advance]
    rcases m₂.advance frames control with ⟨es, p⟩
    cases p with
    | ended x => rfl
    | going c fs => simp only [ih c fs]

end Agrees

/-- **Resources decide nothing but exhaustion.**  Whatever two machines that agree charge, and
whatever budgets they start from, two runs of a term that end without an overdraft have the same
result and the same log. -/
theorem run_resource_independent {m₁ m₂ : Machine} (hm : Agrees m₁ m₂) (t : Term)
    (budget₁ budget₂ : Budget) {fuel₁ fuel₂ : Nat} {x₁ x₂ : Except MachineError Term}
    {a₁ a₂ : Account} (h₁ : m₁.run fuel₁ t (.ofBudget budget₁) = some (x₁, a₁))
    (h₂ : m₂.run fuel₂ t (.ofBudget budget₂) = some (x₂, a₂))
    (hx₁ : ¬ Overdrawn x₁) (hx₂ : ¬ Overdrawn x₂) : x₁ = x₂ ∧ a₁.log = a₂.log := by
  obtain ⟨hres₁, hlog₁⟩ := run_of_not_overdrawn h₁ hx₁
  obtain ⟨hres₂, hlog₂⟩ := run_of_not_overdrawn h₂ hx₂
  rw [hm.course] at hres₁ hlog₁
  have hcourse := course_unique hres₁ hres₂
  rw [hcourse] at hres₁ hlog₁
  refine ⟨Option.some.inj (hres₁.symm.trans hres₂), Array.ext' ?_⟩
  rw [hlog₁, hlog₂]
  rfl

set_option maxRecDepth 1000 in
theorem run_resource_independent_difference :
    ∃ a₁ a₂ : Account,
      (flat ⟨1, 1⟩ ⟨1, 2⟩ ⟨3, 4⟩).run 40 .difference (.ofBudget ⟨100, 100⟩) =
        some (.ok (.constant (.integer 1)), a₁) ∧
      a₁.remaining = ⟨77, 59⟩ ∧ a₁.log = #["subtract"] ∧
      ({ flat .zero ⟨5, 0⟩ ⟨0, 7⟩ with slippage := 3 } : Machine).run 50 .difference
        (.ofBudget ⟨1000, 20⟩) = some (.ok (.constant (.integer 1)), a₂) ∧
      a₂.remaining = ⟨920, 6⟩ ∧ a₂.log = #["subtract"] := by
  have hagrees : Agrees (flat ⟨1, 1⟩ ⟨1, 2⟩ ⟨3, 4⟩)
      { flat .zero ⟨5, 0⟩ ⟨0, 7⟩ with slippage := 3 } :=
    ⟨rfl, rfl, rfl, fun fn => by simp only [builtinCost?_flat, Option.isSome_some]⟩
  obtain ⟨a₁, h₁, hleft₁, hlog₁⟩ :
      ∃ a, (flat ⟨1, 1⟩ ⟨1, 2⟩ ⟨3, 4⟩).run 40 .difference (.ofBudget ⟨100, 100⟩) =
          some (.ok (.constant (.integer 1)), a) ∧
        a.remaining = ⟨77, 59⟩ ∧ a.log = #["subtract"] := ⟨_, rfl, rfl, rfl⟩
  obtain ⟨a₂, h₂, hleft₂⟩ :
      ∃ a, ({ flat .zero ⟨5, 0⟩ ⟨0, 7⟩ with slippage := 3 } : Machine).run 50 .difference
          (.ofBudget ⟨1000, 20⟩) = some (.ok (.constant (.integer 1)), a) ∧
        a.remaining = ⟨920, 6⟩ := ⟨_, rfl, rfl⟩
  obtain ⟨-, hlog⟩ := run_resource_independent hagrees .difference _ _ h₁ h₂ (not_overdrawn_ok _)
    (not_overdrawn_ok _)
  exact ⟨a₁, a₂, h₁, hleft₁, hlog₁, h₂, hleft₂, hlog.symm.trans hlog₁⟩

end PlutusCek.Machine
