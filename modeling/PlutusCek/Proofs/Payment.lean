import PlutusCek.Proofs.Course
import PlutusCek.Proofs.Units

/-!
# Proofs.Payment — what paying for events does to an account

Paying for an event changes the pending steps and the log without looking at the budget (`carry`),
and then deducts what is due, if anything is.  A run that pays for all of its events has logged all
of their messages; one that stops early has logged those of a first part and reports the overdrawn
budget.
-/

namespace PlutusCek

/-- A result that reports an overdrawn budget. -/
def Overdrawn (result : Except MachineError Term) : Prop :=
  ∃ rest step, result = .error ⟨.budgetExhausted rest, step⟩

theorem not_overdrawn_ok (t : Term) : ¬ Overdrawn (.ok t) := by
  rintro ⟨rest, step, h⟩
  cases h

/-- No charge of the machine is negative. -/
structure Machine.NonnegCosts (m : Machine) : Prop where
  startup : ∀ r, 0 ≤ m.costs.startup.units r
  step : ∀ k r, 0 ≤ (m.costs.stepCost k).units r
  call : ∀ fn args r, 0 ≤ (m.price fn args).units r

namespace Account

variable {a b : Account} {cost : Budget}

theorem spend_ok (h : a.spend cost = .ok b) :
    b = { a with remaining := a.remaining - cost } ∧ b.remaining.isExhausted = false := by
  simp only [spend] at h
  split at h
  · cases h
  · rename_i hex
    cases h
    exact ⟨rfl, by simpa using hex⟩

theorem spend_error {f : Failure} (h : a.spend cost = .error (f, b)) :
    b = { a with remaining := a.remaining - cost } ∧ b.remaining.isExhausted = true ∧
      f = .budgetExhausted b.remaining := by
  simp only [spend] at h
  split at h
  · rename_i hex
    cases h
    exact ⟨rfl, hex, rfl⟩
  · cases h

end Account

namespace Machine

variable {m : Machine} {a b : Account}

@[simp] theorem carry_remaining (a : Account) (e : Event) :
    (m.carry a e).remaining = a.remaining := by
  cases e with
  | step k => simp only [carry]; split <;> rfl
  | _ => rfl

theorem carry_log (a : Account) (e : Event) :
    (m.carry a e).log.toList = a.log.toList ++ e.message?.toList := by
  cases e with
  | step k =>
    simp only [carry, Event.message?, Option.toList_none, List.append_nil]
    split <;> rfl
  | note s => simp [carry, Account.note, Event.message?]
  | _ => simp [carry, Account.settle, Event.message?]

/-- An event is paid for in one of two ways: nothing is due, or what is due can be deducted. -/
theorem pay_ok {e : Event} (h : m.pay a e = .ok b) :
    (m.due a e = none ∧ b = m.carry a e) ∨
      ∃ cost, m.due a e = some cost ∧
        b = { m.carry a e with remaining := a.remaining - cost } ∧
        b.remaining.isExhausted = false := by
  unfold pay at h
  cases hdue : m.due a e with
  | none =>
    rw [hdue] at h
    cases h
    exact .inl ⟨rfl, rfl⟩
  | some cost =>
    rw [hdue] at h
    obtain ⟨hb, hex⟩ := Account.spend_ok h
    rw [carry_remaining] at hb
    exact .inr ⟨cost, rfl, hb, hex⟩

/-- An event that cannot be paid for leaves the account overdrawn by what is due. -/
theorem pay_error {e : Event} {f : Failure} (h : m.pay a e = .error (f, b)) :
    ∃ cost, m.due a e = some cost ∧ b = { m.carry a e with remaining := a.remaining - cost } ∧
      b.remaining.isExhausted = true ∧ f = .budgetExhausted b.remaining := by
  unfold pay at h
  cases hdue : m.due a e with
  | none => rw [hdue] at h; cases h
  | some cost =>
    rw [hdue] at h
    obtain ⟨hb, hex, hf⟩ := Account.spend_error h
    rw [carry_remaining] at hb
    exact ⟨cost, rfl, hb, hex, hf⟩

/-! ### The log -/

theorem pay_log {e : Event} (h : m.pay a e = .ok b) :
    b.log.toList = a.log.toList ++ e.message?.toList := by
  rcases pay_ok h with ⟨-, rfl⟩ | ⟨cost, -, rfl, -⟩
  · exact carry_log a e
  · exact carry_log a e

/-- A message is free, so an event that overdraws the account logs nothing. -/
theorem pay_error_log {e : Event} {f : Failure} (h : m.pay a e = .error (f, b)) :
    b.log = a.log := by
  obtain ⟨cost, hdue, rfl, -, -⟩ := pay_error h
  have hnone : e.message?.toList = [] := by
    cases e with
    | note s => cases hdue
    | _ => rfl
  have h := carry_log (m := m) a e
  rw [hnone, List.append_nil] at h
  exact Array.ext' h

/-- Events that are paid for log their messages. -/
theorem payAll_log {es : List Event} (h : m.payAll a es = .ok b) :
    b.log.toList = a.log.toList ++ Event.messages es := by
  induction es generalizing a with
  | nil => cases h; simp
  | cons e es ih =>
    obtain ⟨c, hpay, hrest⟩ := payAll_cons_ok h
    have hcons : Event.messages (e :: es) = e.message?.toList ++ Event.messages es := by
      cases e <;> rfl
    rw [ih hrest, pay_log hpay, hcons, List.append_assoc]

/-- Events that overdraw the account log the messages of those before the overdraft. -/
theorem payAll_error_log {es : List Event} {e : MachineError} (h : m.payAll a es = .error (e, b)) :
    b.log.toList <+: a.log.toList ++ Event.messages es := by
  obtain ⟨es₁, ev, es₂, c, f, rfl, h₁, h₂, -⟩ := payAll_error_split h
  rw [pay_error_log h₂, payAll_log h₁, Event.messages_append, ← List.append_assoc]
  exact List.prefix_append _ _

/-- Events without messages leave the log alone, also when they overdraw the account. -/
theorem payAll_error_log_eq {es : List Event} {e : MachineError}
    (h : m.payAll a es = .error (e, b)) (hes : Event.messages es = []) : b.log = a.log := by
  obtain ⟨es₁, ev, es₂, c, f, rfl, h₁, h₂, -⟩ := payAll_error_split h
  rw [Event.messages_append, List.append_eq_nil_iff] at hes
  have hlog := payAll_log h₁
  rw [hes.1, List.append_nil] at hlog
  rw [pay_error_log h₂]
  exact Array.ext' hlog

theorem payAll_error_overdrawn {es : List Event} {e : MachineError}
    (h : m.payAll a es = .error (e, b)) :
    e.cause = .budgetExhausted b.remaining ∧ b.remaining.isExhausted = true := by
  obtain ⟨es₁, ev, es₂, c, f, -, -, h₂, rfl⟩ := payAll_error_split h
  obtain ⟨-, -, -, hex, rfl⟩ := pay_error h₂
  exact ⟨rfl, hex⟩

theorem overdrawn_of_payAll_error {es : List Event} {e : MachineError}
    (h : m.payAll a es = .error (e, b)) : Overdrawn (.error e) :=
  ⟨b.remaining, e.step, by rw [← (payAll_error_overdrawn h).1]⟩

/-! ### The budget -/

theorem due_nonneg (hm : m.NonnegCosts) {e : Event} {cost : Budget} (h : m.due a e = some cost)
    (r : Resource) : 0 ≤ cost.units r := by
  have hpending : ∀ pending, 0 ≤ (Account.pendingCost m.costs pending).units r := by
    intro pending
    have := Account.pendingUnits_nonneg (fun k => hm.step k r) pending
    rw [Account.units_pendingCost fun k => hm.step k r]
    unfold Amount.greatest
    omega
  cases e with
  | start => cases h; exact hm.startup r
  | step k =>
    simp only [due] at h
    split at h
    · cases h; exact hpending _
    · cases h
  | call fn args => cases h; exact hm.call fn args r
  | note s => cases h
  | finish => cases h; exact hpending _

/-- Paying never adds to a budget and does not overdraw it. -/
theorem pay_units_le (hm : m.NonnegCosts) {e : Event} (ha : ∀ r, 0 ≤ a.remaining.units r)
    (h : m.pay a e = .ok b) (r : Resource) :
    0 ≤ b.remaining.units r ∧ b.remaining.units r ≤ a.remaining.units r := by
  rcases pay_ok h with ⟨-, rfl⟩ | ⟨cost, hdue, hb, hex⟩
  · rw [carry_remaining]
    exact ⟨ha r, Int.le_refl _⟩
  · have hcost := due_nonneg hm hdue r
    have hsub := Budget.units_sub_of_nonneg (ha r) hcost
    have hrem : b.remaining = a.remaining - cost := by rw [hb]
    refine ⟨Budget.not_isExhausted_iff.1 hex r, ?_⟩
    rw [hrem, hsub]
    omega

theorem payAll_units_le (hm : m.NonnegCosts) {es : List Event} (ha : ∀ r, 0 ≤ a.remaining.units r)
    (h : m.payAll a es = .ok b) (r : Resource) :
    0 ≤ b.remaining.units r ∧ b.remaining.units r ≤ a.remaining.units r := by
  induction es generalizing a with
  | nil => cases h; exact ⟨ha r, Int.le_refl _⟩
  | cons e es ih =>
    obtain ⟨c, hpay, hrest⟩ := payAll_cons_ok h
    have hc := pay_units_le hm ha hpay
    have hb := ih (fun r => (hc r).1) hrest
    exact ⟨hb.1, Int.le_trans hb.2 (hc r).2⟩

/-- Paying the startup cost deducts it. -/
theorem pay_start_ok (h : m.pay a .start = .ok b) :
    b.remaining = a.remaining - m.costs.startup ∧ ∀ r, 0 ≤ b.remaining.units r := by
  obtain ⟨hb, hex⟩ := Account.spend_ok h
  refine ⟨?_, Budget.not_isExhausted_iff.1 hex⟩
  rw [hb]
  rfl

/-- An account that can pay the startup cost was not overdrawn. -/
theorem nonneg_of_payAll_start (hm : m.NonnegCosts) {es : List Event}
    (h : m.payAll a (.start :: es) = .ok b) (r : Resource) : 0 ≤ a.remaining.units r := by
  obtain ⟨c, hpay, -⟩ := payAll_cons_ok h
  obtain ⟨hrem, hpos⟩ := pay_start_ok hpay
  have hs := hm.startup r
  have hr := hpos r
  rw [hrem, Budget.units_sub] at hr
  unfold Amount.least Amount.greatest at hr
  omega

/-! ### Runs -/

/-- A run ends in one of two ways: its course ends and is paid for, or the account is overdrawn. -/
theorem run_cases {fuel : Nat} {t : Term} {x : Except MachineError Term}
    (h : m.run fuel t a = some (x, b)) :
    ((m.course fuel (.compute t []) []).2 = some x ∧
      m.payAll a (.start :: (m.course fuel (.compute t []) []).1) = .ok b) ∨
    ∃ e, x = .error e ∧
      m.payAll a (.start :: (m.course fuel (.compute t []) []).1) = .error (e, b) := by
  rw [run_eq] at h
  cases hpay : m.payAll a (.start :: (m.course fuel (.compute t []) []).1) with
  | ok c =>
    rw [hpay] at h
    obtain ⟨y, hy, hyx⟩ := Option.map_eq_some_iff.1 h
    cases hyx
    exact .inl ⟨hy, rfl⟩
  | error y =>
    rw [hpay] at h
    cases h
    exact .inr ⟨y.1, rfl, rfl⟩

/-- A run that is not overdrawn ends as its course does, and logs the messages of its course. -/
theorem run_of_not_overdrawn {fuel : Nat} {t : Term} {x : Except MachineError Term}
    (h : m.run fuel t a = some (x, b)) (hx : ¬ Overdrawn x) :
    (m.course fuel (.compute t []) []).2 = some x ∧
      b.log.toList = a.log.toList ++ Event.messages (m.course fuel (.compute t []) []).1 := by
  rcases run_cases h with ⟨hres, hpay⟩ | ⟨e, rfl, hpay⟩
  · refine ⟨hres, ?_⟩
    rw [payAll_log hpay, Event.messages_start]
  · exact absurd (overdrawn_of_payAll_error hpay) hx

/-- A run whose course ends is overdrawn and has logged a first part of the messages, or ends as its
course does and has logged all of them. -/
theorem run_of_course {fuel : Nat} {t : Term} {es : List Event} {x : Except MachineError Term}
    (h : m.course fuel (.compute t []) [] = (es, some x)) (a : Account) :
    ∃ y b, m.run fuel t a = some (y, b) ∧
      (Overdrawn y ∧ b.log.toList <+: a.log.toList ++ Event.messages es ∨
        y = x ∧ b.log.toList = a.log.toList ++ Event.messages es) := by
  rw [run_eq, h, ← Event.messages_start es]
  cases hpay : m.payAll a (.start :: es) with
  | ok b => exact ⟨x, b, rfl, .inr ⟨rfl, payAll_log hpay⟩⟩
  | error y =>
    obtain ⟨e, b⟩ := y
    exact ⟨.error e, b, rfl, .inl ⟨overdrawn_of_payAll_error hpay, payAll_error_log hpay⟩⟩

/-- An evaluation is a run on a fresh account. -/
theorem evaluate_eq (fuel : Nat) (p : Program) (budget : Budget) :
    m.evaluate fuel p budget =
      (m.run fuel p.term (.ofBudget budget)).map fun (x, b) => ⟨x, budget, b.remaining, b.log⟩ := by
  show _ = (m.run fuel p.term (Session.start budget).account).map _
  rw [← Session.run_account, Option.map_map]
  rfl

/-- A successful evaluation has paid for a course with that result. -/
theorem evaluate_ok {fuel : Nat} {p : Program} {budget : Budget} {e : Evaluation} {t : Term}
    (h : m.evaluate fuel p budget = some e) (ht : e.result = .ok t) :
    (m.course fuel (.compute p.term []) []).2 = some (.ok t) ∧
      ∃ b, m.payAll (.ofBudget budget) (.start :: (m.course fuel (.compute p.term []) []).1) =
          .ok b ∧
        e = ⟨.ok t, budget, b.remaining, b.log⟩ := by
  rw [evaluate_eq] at h
  obtain ⟨⟨x, b⟩, hrun, rfl⟩ := Option.map_eq_some_iff.1 h
  cases ht
  rcases run_cases hrun with ⟨hres, hpay⟩ | ⟨err, herr, -⟩
  · exact ⟨hres, b, hpay, rfl⟩
  · cases herr

/-- An evaluation whose course ends and can be paid for. -/
theorem evaluate_of_payAll_ok {fuel : Nat} {p : Program} {budget : Budget} {b : Account}
    {x : Except MachineError Term} (hres : (m.course fuel (.compute p.term []) []).2 = some x)
    (hpay : m.payAll (.ofBudget budget) (.start :: (m.course fuel (.compute p.term []) []).1) =
      .ok b) :
    m.evaluate fuel p budget = some ⟨x, budget, b.remaining, b.log⟩ := by
  rw [evaluate_eq, run_eq, hpay, hres]
  rfl

/-- An evaluation whose course overdraws the account. -/
theorem evaluate_of_payAll_error {fuel : Nat} {p : Program} {budget : Budget} {b : Account}
    {err : MachineError}
    (hpay : m.payAll (.ofBudget budget) (.start :: (m.course fuel (.compute p.term []) []).1) =
      .error (err, b)) :
    m.evaluate fuel p budget = some ⟨.error err, budget, b.remaining, b.log⟩ := by
  rw [evaluate_eq, run_eq, hpay]
  rfl

/-! ### Flat charges -/

/-- A machine that charges the same for every step, and the same for every call. -/
def flat (startup step call : Budget) : Machine :=
  .new .v3 ⟨11, 0⟩
    { startup := startup
      steps := .uniform step
      builtins := ⟨.replicate Builtin.count (some ⟨.constant call.mem, .constant call.cpu⟩)⟩ }

theorem builtinCost?_flat (startup step call : Budget) (fn : Builtin) :
    (flat startup step call).costs.builtinCost? fn =
      some ⟨.constant call.mem, .constant call.cpu⟩ := by
  simp only [flat, new, CostModel.builtinCost?, BuiltinTable.get, Vector.getElem_replicate]

theorem price_flat (startup step call : Budget) (fn : Builtin) (args : List Value) :
    (flat startup step call).price fn args = call ∨
      (flat startup step call).price fn args = .zero := by
  unfold price
  rw [builtinCost?_flat]
  cases fn.prepare (flat startup step call).semantics args with
  | error f => exact .inr rfl
  | ok c => exact .inl rfl

theorem nonnegCosts_flat {startup step call : Budget} (hstartup : .zero ≤ startup)
    (hstep : .zero ≤ step) (hcall : .zero ≤ call) : (flat startup step call).NonnegCosts where
  startup := Budget.units_nonneg hstartup
  step k r := by
    show 0 ≤ ((PerStep.uniform step).get k).units r
    rw [PerStep.get_uniform]
    exact Budget.units_nonneg hstep r
  call fn args r := by
    rcases price_flat startup step call fn args with h | h
    · rw [h]
      exact Budget.units_nonneg hcall r
    · rw [h]
      exact Budget.units_nonneg (by decide) r

end Machine

/-- A program that takes two integers out of a constructor, logs a message and subtracts the first
from the second. -/
def Term.difference : Term :=
  .case (.constr 0 [.constant (.integer 2), .constant (.integer 3)])
    [.lambda (.lambda (.apply (.apply (.force (.builtin .trace)) (.constant (.string "subtract")))
      (.apply (.apply (.builtin .subtractInteger) (.var 1)) (.var 2))))]

end PlutusCek
