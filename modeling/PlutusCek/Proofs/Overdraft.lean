import PlutusCek.Proofs.Heredity

/-!
# Proofs.Overdraft — a run reports an overdrawn budget exactly when it is overdrawn

Every charge is looked at as it is made, so an account that has paid is not overdrawn, whatever it
has paid for (`payAll_nonneg`), and neither is any state of a run (`states_nonneg`).  A step pays
before it does anything else: one that overdraws the account leaves the log alone, and the run ends
with it (`step_stop_overdrawn`).  No other failure is a report of exhaustion, so the report and the
overdraft come together, also in a session that was overdrawn before (`Session.run_exhausted_iff`).
-/

namespace PlutusCek

namespace Machine

variable {m : Machine} {s s' : RunState} {x : Except MachineError Term} {fs : List Frame}
  {a b : Account}

/-! ### Accounts that have paid -/

theorem pay_nonneg {e : Event} (ha : ∀ r, 0 ≤ a.remaining.units r) (h : m.pay a e = .ok b)
    (r : Resource) : 0 ≤ b.remaining.units r := by
  rcases pay_ok h with ⟨-, rfl⟩ | ⟨cost, -, -, hex⟩
  · rw [carry_remaining]
    exact ha r
  · exact Budget.not_isExhausted_iff.1 hex r

/-- An account that is not overdrawn and pays is not overdrawn, whatever the charges are. -/
theorem payAll_nonneg {es : List Event} (ha : ∀ r, 0 ≤ a.remaining.units r)
    (h : m.payAll a es = .ok b) (r : Resource) : 0 ≤ b.remaining.units r := by
  induction es generalizing a with
  | nil =>
    cases h
    exact ha r
  | cons e es ih =>
    obtain ⟨c, hpay, hrest⟩ := payAll_cons_ok h
    exact ih (pay_nonneg ha hpay) hrest

/-! ### The events of a step -/

/-- A step has at most one event that is charged for, and it comes first. -/
theorem advance_events (s : RunState) :
    (m.advance s.frames s.control).1 = [] ∨
      ∃ e message, (m.advance s.frames s.control).1 = e :: Event.ofMessage message := by
  obtain ⟨control, frames, account⟩ := s
  cases control with
  | compute t env =>
    have hquiet : (m.advance frames (.compute t env)).1 = Event.ofKind (StepKind.of? t) := by
      rcases compute_cases t env frames with ⟨c, fs, hmove⟩ | ⟨f, hmove⟩ <;>
        simp only [advance, hmove, carryOut, Prod.map_fst, List.append_nil]
    rw [hquiet]
    cases StepKind.of? t with
    | none => exact .inl rfl
    | some k => exact .inr ⟨.step k, none, rfl⟩
  | answer v =>
    simp only [advance]
    cases Move.answer v frames with
    | next control frames => exact .inl rfl
    | call fn args frames =>
      rw [carryOut_call_events]
      rcases perform_events (m := m) fn args with hnil | ⟨ops, message, hcons⟩
      · exact .inl hnil
      · exact .inr ⟨_, message, hcons⟩
    | halt v => exact .inr ⟨.finish, none, rfl⟩
    | stuck f => exact .inl rfl

/-- A step that cannot be paid for logs nothing. -/
theorem payAll_advance_log {e : MachineError}
    (h : m.payAll a (m.advance s.frames s.control).1 = .error (e, b)) : b.log = a.log := by
  rcases advance_events (m := m) s with hnil | ⟨ev, message, hcons⟩
  · rw [hnil] at h
    cases h
  · rw [hcons] at h
    simp only [payAll] at h
    cases hpay : m.pay a ev with
    | error y =>
      rw [hpay] at h
      cases h
      exact pay_error_log hpay
    | ok c =>
      simp only [hpay, payAll_ofMessage] at h
      cases h

/-- What an evaluation ends with by itself is no report of exhaustion. -/
theorem not_overdrawn_of_ended (h : (m.advance s.frames s.control).2 = .ended x) :
    ¬ Overdrawn x := by
  rintro ⟨rest, kind, rfl⟩
  rcases advance_ended h with ⟨v, -, hx⟩ | ⟨f, hstuck, hx⟩ | ⟨fn, args, frames, f, -, hfail, hx⟩
  · cases hx
  · cases hx
    cases RunState.stuck hstuck
  · cases hx
    cases perform_error hfail

/-! ### Steps and runs -/

theorem step_nonneg (hs : ∀ r, 0 ≤ s.account.remaining.units r) (h : m.step s = .more s')
    (r : Resource) : 0 ≤ s'.account.remaining.units r :=
  payAll_nonneg hs (step_going h).2 r

/-- No state of a run is overdrawn. -/
theorem states_nonneg {fuel : Nat} {t : Term} :
    ∀ s ∈ m.states fuel t a, ∀ r, 0 ≤ s.account.remaining.units r := by
  refine states_induction_of_start (fun b hb => ?_) step_nonneg
  exact Budget.not_isExhausted_iff.1 (Account.spend_ok hb).2

/-- How a step stops: overdrawn, with a report and nothing logged, or not overdrawn and without a
report. -/
theorem step_stop_overdrawn (hs : ∀ r, 0 ≤ s.account.remaining.units r)
    (h : m.step s = .stop x fs b) :
    (∃ kind, x = .error ⟨.budgetExhausted b.remaining, kind⟩) ∧ (∃ r, b.remaining.units r < 0) ∧
        b.log = s.account.log ∨
      ¬ Overdrawn x ∧ ∀ r, 0 ≤ b.remaining.units r := by
  rcases step_stopped h with ⟨hended, hpay⟩ | ⟨e, rfl, hpay⟩
  · exact .inr ⟨not_overdrawn_of_ended hended, payAll_nonneg hs hpay⟩
  · obtain ⟨hcause, hex⟩ := payAll_error_overdrawn hpay
    refine .inl ⟨⟨e.step, ?_⟩, Budget.isExhausted_iff.1 hex, payAll_advance_log hpay⟩
    rw [← hcause]

end Machine

namespace Session

/-- How a run stops: overdrawn, with a report, at the startup cost or by the step of its last state;
or not overdrawn and without a report. -/
theorem run_stop_overdrawn {m : Machine} {session session' : Session} {fuel : Nat} {t : Term}
    {x : Except MachineError Term} (h : session.run m fuel t = some (x, session')) :
    (∃ kind, x = .error ⟨.budgetExhausted session'.remaining, kind⟩) ∧
        (∃ r, session'.remaining.units r < 0) ∧
        (m.states fuel t session.account = [] ∧ session'.log = session.log ∨
          ∃ s ∈ m.states fuel t session.account,
            m.step s = .stop x session'.frames session'.account ∧
            session'.log = s.account.log) ∨
      ¬ Overdrawn x ∧ ∀ r, 0 ≤ session'.remaining.units r := by
  rcases run_stops h with ⟨f, hspend, rfl⟩ | ⟨s, hmem, hstop⟩
  · obtain ⟨hb, hex, rfl⟩ := Account.spend_error hspend
    refine .inl ⟨⟨none, rfl⟩, Budget.isExhausted_iff.1 hex, .inl ⟨?_, ?_⟩⟩
    · simp only [Machine.states, hspend]
    · show session'.account.log = session.account.log
      rw [hb]
      rfl
  · rw [states_eq] at hmem
    rcases Machine.step_stop_overdrawn (Machine.states_nonneg s hmem) hstop with
      ⟨hx, hneg, hlog⟩ | hrest
    · exact .inl ⟨hx, hneg, .inr ⟨s, hmem, hstop, hlog⟩⟩
    · exact .inr hrest

/-- **Exhaustion is reported exactly when the budget is overdrawn.**  Take any machine, whatever its
costs, and any session, whatever runs it has served and however they left it.  A run reports an
exhausted budget if and only if a component of the budget left is negative, and it reports the
budget left.  No state of the run is overdrawn, so nothing comes after an overdraft: it happens at
the startup cost, before there is a state, or in the step of the last state, and logs nothing. -/
theorem run_exhausted_iff (m : Machine) (session : Session) (fuel : Nat) (t : Term) :
    (∀ s ∈ m.states fuel t session.account, ∀ r, 0 ≤ s.account.remaining.units r) ∧
    ∀ x session', session.run m fuel t = some (x, session') →
      (Overdrawn x ↔ ∃ r, session'.remaining.units r < 0) ∧
      (∀ rest kind, x = .error ⟨.budgetExhausted rest, kind⟩ → rest = session'.remaining) ∧
      (Overdrawn x →
        m.states fuel t session.account = [] ∧ session'.log = session.log ∨
          ∃ s ∈ m.states fuel t session.account,
            m.step s = .stop x session'.frames session'.account ∧
            session'.log = s.account.log) := by
  refine ⟨Machine.states_nonneg, fun x session' h => ?_⟩
  rcases run_stop_overdrawn h with ⟨⟨kind, rfl⟩, hneg, hlast⟩ | ⟨hx, hpos⟩
  · refine ⟨⟨fun _ => hneg, fun _ => ⟨_, kind, rfl⟩⟩, fun rest kind' hrest => ?_, fun _ => hlast⟩
    cases hrest
    rfl
  · refine ⟨⟨fun hover => absurd hover hx, ?_⟩, fun rest kind hrest => ?_,
      fun hover => absurd hover hx⟩
    · rintro ⟨r, hr⟩
      have := hpos r
      exact absurd hr (Int.not_lt.2 this)
    · exact absurd ⟨rest, kind, hrest⟩ hx

set_option maxRecDepth 1000 in
theorem run_exhausted_iff_difference :
    ∃ x s, (Session.start ⟨22, 100⟩).run (.flat ⟨1, 1⟩ ⟨1, 2⟩ ⟨3, 4⟩) 40 .difference = some (x, s) ∧
      s.remaining = ⟨-1, 59⟩ ∧ Overdrawn x ∧
      ∃ y s', s.run (.flat ⟨1, 1⟩ ⟨1, 2⟩ ⟨3, 4⟩) 40 .difference = some (y, s') ∧
        s'.remaining = ⟨-2, 58⟩ ∧ Overdrawn y := by
  obtain ⟨x, s, hs, hleft, y, s', hs', hleft'⟩ :
      ∃ x s, (Session.start ⟨22, 100⟩).run (.flat ⟨1, 1⟩ ⟨1, 2⟩ ⟨3, 4⟩) 40 .difference =
          some (x, s) ∧ s.remaining = ⟨-1, 59⟩ ∧
        ∃ y s', s.run (.flat ⟨1, 1⟩ ⟨1, 2⟩ ⟨3, 4⟩) 40 .difference = some (y, s') ∧
          s'.remaining = ⟨-2, 58⟩ := ⟨_, _, rfl, rfl, _, _, rfl, rfl⟩
  obtain ⟨hiff, -⟩ := (run_exhausted_iff (.flat ⟨1, 1⟩ ⟨1, 2⟩ ⟨3, 4⟩) _ 40 .difference).2 x s hs
  obtain ⟨hiff', -⟩ := (run_exhausted_iff (.flat ⟨1, 1⟩ ⟨1, 2⟩ ⟨3, 4⟩) s 40 .difference).2 y s' hs'
  refine ⟨x, s, hs, hleft, hiff.2 ⟨.mem, ?_⟩, y, s', hs', hleft', hiff'.2 ⟨.mem, ?_⟩⟩
  · rw [hleft]
    decide
  · rw [hleft']
    decide

end Session

end PlutusCek
