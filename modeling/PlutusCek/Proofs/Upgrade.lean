import PlutusCek.Proofs.Heredity
import PlutusCek.Proofs.Lockstep

/-!
# Proofs.Upgrade — a later protocol version takes nothing away

A builtin that is allowed at one protocol version is allowed at every later one
(`Builtin.allowed_mono`), and the protocol version has no other part in an evaluation.  So a run
under a later version is the same run, unless the earlier version stops it at a builtin that is not
available; and such a stop comes before the call is charged for or logs anything
(`Machine.run_upgraded`).
-/

namespace PlutusCek

/-! ### Availability -/

namespace Protocol

variable {p q r : Protocol}

theorem isLT_compare : (p.compare q).isLT = true ↔ p.major.toNat < q.major.toNat ∨
    p.major.toNat = q.major.toNat ∧ p.minor.toNat < q.minor.toNat := by
  simp only [compare, Ordering.isLT_iff_eq_lt, Ordering.then_eq_lt, Nat.compare_eq_lt,
    Nat.compare_eq_eq]

theorem isLE_compare : (p.compare q).isLE = true ↔ p.major.toNat < q.major.toNat ∨
    p.major.toNat = q.major.toNat ∧ p.minor.toNat ≤ q.minor.toNat := by
  simp only [compare, Ordering.isLE_then_iff_or, Nat.compare_eq_lt, Nat.compare_eq_eq,
    Nat.isLE_compare]

/-- A version that is no later than one before `r` comes before `r`. -/
theorem isLT_of_isLE (hpq : (p.compare q).isLE = true) (hqr : (q.compare r).isLT = true) :
    (p.compare r).isLT = true := by
  rw [isLE_compare] at hpq
  rw [isLT_compare] at hqr ⊢
  omega

theorem major_le (h : (p.compare q).isLE = true) : p.major.toNat ≤ q.major.toNat := by
  rw [isLE_compare] at h
  omega

end Protocol

/-- A builtin that is allowed stays so. -/
theorem Builtin.allowed_mono {fn : Builtin} {l : Language} {p q : Protocol}
    (hpq : (p.compare q).isLE = true) (h : fn.allowed l p = true) : fn.allowed l q = true := by
  have hmajor := Protocol.major_le hpq
  have hearly : (q.compare l.introducedIn).isLT = true → (p.compare l.introducedIn).isLT = true :=
    Protocol.isLT_of_isLE hpq
  unfold allowed at h ⊢
  dsimp only at h ⊢
  split at h
  · cases h
  · rename_i htime
    have htime' : ¬ (decide (q.major.toNat < fn.batch.introduction.2) ||
        (q.compare l.introducedIn).isLT) = true := by
      simp only [Bool.or_eq_true, decide_eq_true_eq] at htime ⊢
      rintro (hmajor' | hlt)
      · exact htime (.inl (by omega))
      · exact htime (.inr (hearly hlt))
    rw [if_neg htime']
    simp only [Bool.or_eq_true, Bool.and_eq_true, decide_eq_true_eq] at h ⊢
    rcases h with hintro | ⟨heleven, hsixth⟩
    · exact .inl hintro
    · exact .inr ⟨by omega, hsixth⟩

/-- A result that reports a builtin that is not available. -/
def Unavailable (result : Except MachineError Term) : Prop :=
  ∃ fn language protocol step, result = .error ⟨.unavailable fn language protocol, step⟩

namespace Machine

variable {m : Machine} {later : Protocol}

theorem isAvailable_mono (hlater : (m.protocol.compare later).isLE = true) {fn : Builtin}
    (h : m.isAvailable fn = true) :
    ({ m with protocol := later } : Machine).isAvailable fn = true := by
  obtain ⟨hallowed, hcost⟩ := Bool.and_eq_true_iff.1 h
  exact Bool.and_eq_true_iff.2 ⟨Builtin.allowed_mono hlater hallowed, hcost⟩

/-! ### Calls -/

/-- The call of a builtin that has costs does not depend on the protocol version. -/
theorem callBuiltin_protocol {fn : Builtin} (h : m.isAvailable fn = true) (args : List Value)
    (a : Account) :
    ({ m with protocol := later } : Machine).callBuiltin fn args a = m.callBuiltin fn args a := by
  obtain ⟨-, hcost⟩ := Bool.and_eq_true_iff.1 h
  obtain ⟨c, hc⟩ := Option.isSome_iff_exists.1 hcost
  simp only [callBuiltin, charge, hc]

theorem invoke_upgraded (hlater : (m.protocol.compare later).isLE = true) (fn : Builtin)
    (args : List Value) (a : Account) :
    ({ m with protocol := later } : Machine).invoke fn args a = m.invoke fn args a ∨
      ∃ f b, m.invoke fn args a = .error (f, b) ∧
        ∃ fn language protocol, f = .unavailable fn language protocol := by
  unfold invoke
  by_cases hav : m.isAvailable fn = true
  · rw [if_pos hav, if_pos (isAvailable_mono hlater hav)]
    refine .inl ?_
    cases Value.operands args with
    | ok ops => exact callBuiltin_protocol hav ops a
    | error f => rfl
  · rw [if_neg hav]
    exact .inr ⟨_, a, rfl, fn, m.language, m.protocol, rfl⟩

/-! ### A builtin that is not available -/

/-- A step that stops at a builtin that is not available leaves the account as it was. -/
theorem step_unavailable {s : RunState} {fn : Builtin} {language : Language} {protocol : Protocol}
    {kind : Option StepKind} {fs : List Frame} {b : Account}
    (h : m.step s = .stop (.error ⟨.unavailable fn language protocol, kind⟩) fs b) :
    ∃ args rest, s.move = .call fn args rest ∧ m.isAvailable fn = false ∧ b = s.account := by
  rcases step_stopped h with ⟨hended, hpay⟩ | ⟨e, he, hpay⟩
  · rcases advance_ended hended with ⟨v, -, hx⟩ | ⟨f, hstuck, hx⟩ |
      ⟨g, args, rest, f, hcall, hfail, hx⟩
    · cases hx
    · cases hx
      cases RunState.stuck hstuck
    · cases hx
      cases perform_error hfail with
      | unavailable hav =>
        refine ⟨args, rest, hcall, hav, ?_⟩
        -- neither the step nor the call has an event
        have hkind : s.kind? = none := by
          obtain ⟨control, frames, account⟩ := s
          cases control with
          | answer v => rfl
          | compute t env =>
            rcases compute_cases t env frames with ⟨c, fs, hmove⟩ | ⟨f, hmove⟩
            · cases hmove.symm.trans hcall
            · cases hmove.symm.trans hcall
        have hnone : (m.perform fn args).1 = [] := by
          simp only [perform, hav, Bool.false_eq_true, if_false]
        rw [advance_eq, hkind, hcall, Prod.map_fst, carryOut_call_events, hnone] at hpay
        cases hpay
        rfl
  · cases he
    cases (payAll_error_overdrawn hpay).1

/-- **Protocol upgrades are conservative.**  Take any machine, a protocol version no earlier than
its own, any term, any account and any number of steps.  If the run does not stop at a builtin that
is not available, then under the later version it comes to the same: it has not ended yet either, or
it has the same result, the same budget left and the same log.  A run that stops at a builtin that
is not available does so in a state that calls the builtin, and leaves the account of that state
unchanged: nothing is charged for the call, and nothing logged. -/
theorem run_upgraded (m : Machine) (later : Protocol)
    (hlater : (m.protocol.compare later).isLE = true) (fuel : Nat) (t : Term) (a : Account) :
    ((∀ x b, m.run fuel t a = some (x, b) → ¬ Unavailable x) →
      ({ m with protocol := later } : Machine).run fuel t a = m.run fuel t a) ∧
    ∀ fn language protocol kind b,
      m.run fuel t a = some (.error ⟨.unavailable fn language protocol, kind⟩, b) →
        ∃ s ∈ m.states fuel t a, ∃ args rest, s.move = .call fn args rest ∧
          m.isAvailable fn = false ∧
          m.step s = .stop (.error ⟨.unavailable fn language protocol, kind⟩) s.left b ∧
          b = s.account := by
  refine ⟨fun hgoes => ?_, fun fn language protocol kind b h => ?_⟩
  · have hlock : Lockstep _ _ m { m with protocol := later } :=
      lockstep_of_invoke rfl (invoke_upgraded hlater) rfl
    rcases hlock.run (fun _ _ => trivial) fuel with hsame | ⟨e, b, hrun, fn, language, protocol, he⟩
    · exact hsame
    · refine absurd ⟨fn, language, protocol, e.step, ?_⟩ (hgoes _ _ hrun)
      rw [← he]
  · rcases run_stops h with ⟨f, hspend, hf⟩ | ⟨s, hmem, fs, hstop⟩
    · obtain ⟨-, -, rfl⟩ := Account.spend_error hspend
      cases hf
    · obtain rfl := step_stop_left hstop
      obtain ⟨args, rest, hcall, hav, hb⟩ := step_unavailable hstop
      exact ⟨s, hmem, args, rest, hcall, hav, hstop, hb⟩

/-- A program that logs a message and then counts the bits of a byte string. -/
def countBits : Term :=
  .apply (.apply (.apply (.force (.builtin .trace)) (.constant (.string "count")))
    (.builtin .countSetBits)) (.constant (.bytes [7]))

set_option maxRecDepth 1000 in
theorem run_upgraded_countBits :
    (∃ b, ({ flat ⟨1, 1⟩ ⟨1, 2⟩ ⟨3, 4⟩ with protocol := ⟨10, 7⟩ } : Machine).run 40 countBits
        (.ofBudget ⟨100, 100⟩) = some (.ok (.constant (.integer 3)), b) ∧
      (flat ⟨1, 1⟩ ⟨1, 2⟩ ⟨3, 4⟩).run 40 countBits (.ofBudget ⟨100, 100⟩) =
        some (.ok (.constant (.integer 3)), b)) ∧
    ∃ b, ({ flat ⟨1, 1⟩ ⟨1, 2⟩ ⟨3, 4⟩ with protocol := ⟨9, 7⟩ } : Machine).run 40 countBits
        (.ofBudget ⟨100, 100⟩) = some (.error ⟨.unavailable .countSetBits .v3 ⟨9, 7⟩, none⟩, b) ∧
      ∃ s ∈ ({ flat ⟨1, 1⟩ ⟨1, 2⟩ ⟨3, 4⟩ with protocol := ⟨9, 7⟩ } : Machine).states 40 countBits
        (.ofBudget ⟨100, 100⟩), b = s.account := by
  constructor
  · obtain ⟨b, hb⟩ : ∃ b, ({ flat ⟨1, 1⟩ ⟨1, 2⟩ ⟨3, 4⟩ with protocol := ⟨10, 7⟩ } : Machine).run 40
        countBits (.ofBudget ⟨100, 100⟩) = some (.ok (.constant (.integer 3)), b) := ⟨_, rfl⟩
    refine ⟨b, hb, ?_⟩
    rw [← hb]
    refine (run_upgraded { flat ⟨1, 1⟩ ⟨1, 2⟩ ⟨3, 4⟩ with protocol := ⟨10, 7⟩ } ⟨11, 0⟩
      (by decide) 40 countBits (.ofBudget ⟨100, 100⟩)).1 fun x c hx => ?_
    rw [hb] at hx
    cases hx
    rintro ⟨fn, language, protocol, kind, hfail⟩
    cases hfail
  · obtain ⟨b, hb⟩ : ∃ b, ({ flat ⟨1, 1⟩ ⟨1, 2⟩ ⟨3, 4⟩ with protocol := ⟨9, 7⟩ } : Machine).run 40
        countBits (.ofBudget ⟨100, 100⟩) =
          some (.error ⟨.unavailable .countSetBits .v3 ⟨9, 7⟩, none⟩, b) := ⟨_, rfl⟩
    obtain ⟨s, hmem, -, -, -, -, -, hs⟩ := (run_upgraded
      { flat ⟨1, 1⟩ ⟨1, 2⟩ ⟨3, 4⟩ with protocol := ⟨9, 7⟩ } ⟨11, 0⟩ (by decide) 40
        countBits (.ofBudget ⟨100, 100⟩)).2 _ _ _ _ b hb
    exact ⟨b, hb, s, hmem, hs⟩

end Machine

end PlutusCek
