import Mathlib.Algebra.GroupWithZero.Nat
import PlutusCek.Proofs.Slippage
import PlutusCek.Proofs.States

/-!
# Proofs.Accounting — what a run has been charged for

A run that is not overdrawn has paid for the events of all of its states (`run_paid`), and those are
its steps, its calls, and what is free (`sum_exactCost_events`).  The balance of its account is
therefore what all of them cost; the budget left is more by the cost of the steps still pending.
These are among the steps taken, and fewer than are charged together (`Tallied`).  So the budget a
run has consumed is the startup cost, the cost of all of its steps but the pending ones, and the
price of its calls (`consumed_exact`).
-/

namespace PlutusCek

namespace Machine

/-- The builtin call a state makes, with its operands.  A builtin that is not available is not
called. -/
def call? (m : Machine) (s : RunState) : Option (Builtin × List Value) :=
  match s.move with
  | .call fn args _ =>
    if m.isAvailable fn then (Value.operands args).toOption.map fun ops => (fn, ops) else none
  | _ => none

/-- The kinds of the steps of a run, in order.  Steps that are never charged for have none. -/
def stepsTaken (m : Machine) (fuel : Nat) (t : Term) (a : Account) : List StepKind :=
  (m.states fuel t a).filterMap RunState.kind?

/-- The builtin calls of a run, in order. -/
def callsMade (m : Machine) (fuel : Nat) (t : Term) (a : Account) : List (Builtin × List Value) :=
  (m.states fuel t a).filterMap m.call?

/-- What a state asks of its account. -/
def events (m : Machine) (s : RunState) : List Event := (m.advance s.frames s.control).1

variable {m : Machine} {s : RunState} {x : Except MachineError Term} {a b : Account}

/-! ### The events of a state -/

theorem events_eq (s : RunState) :
    m.events s = Event.ofKind s.kind? ++ (m.carryOut s.kind? s.move).1 := by
  rw [events, advance_eq]
  rfl

/-- Carrying out a move counts no step. -/
theorem kinds_carryOut (kind : Option StepKind) (move : Move) :
    (m.carryOut kind move).1.filterMap Event.kind? = [] := by
  cases move with
  | next control frames => rfl
  | call fn args frames =>
    rw [carryOut_call_events, List.filterMap_eq_nil_iff]
    exact fun ev hev => kind?_of_mem_perform hev
  | halt v => rfl
  | stuck f => rfl

/-- A state counts the step it takes, and no other. -/
theorem kinds_events (s : RunState) :
    (m.events s).filterMap Event.kind? = s.kind?.toList := by
  rw [events_eq, List.filterMap_append, kinds_carryOut, List.append_nil]
  cases s.kind? <;> rfl

theorem sum_exactCost_ofMessage (r : Resource) (message : Option String) :
    ((Event.ofMessage message).map (m.exactCost r)).sum = 0 := by
  cases message <;> rfl

theorem sum_exactCost_carryOut (r : Resource) (s : RunState) :
    ((m.carryOut s.kind? s.move).1.map (m.exactCost r)).sum =
      ((m.call? s).toList.map fun c => (m.price c.1 c.2).units r).sum := by
  unfold call?
  cases s.move with
  | next control frames => rfl
  | call fn args frames =>
    rw [carryOut_call_events]
    rcases perform_cases (m := m) fn args with
      ⟨ops, hav, hops, heq⟩ | ⟨hav, heq⟩ | ⟨f, hops, heq⟩
    · simp only [heq, hav, hops, if_true]
      rcases respond_events (m := m) fn ops with ⟨hnil, hfree⟩ | ⟨message, hcons⟩
      · -- the operands are refused
        rw [hnil]
        simp [Except.toOption, hfree]
      · rw [hcons, List.map_cons, List.sum_cons, sum_exactCost_ofMessage]
        simp [Except.toOption, exactCost]
    · -- there is nothing to call
      simp [heq, hav]
    · simp [heq, hops, Except.toOption]
  | halt v => rfl
  | stuck f => rfl

/-- The events of a state cost what its step and its call do. -/
theorem sum_exactCost_events (r : Resource) (s : RunState) :
    ((m.events s).map (m.exactCost r)).sum =
      (s.kind?.toList.map fun k => (m.costs.stepCost k).units r).sum +
        ((m.call? s).toList.map fun c => (m.price c.1 c.2).units r).sum := by
  rw [events_eq, List.map_append, List.sum_append, sum_exactCost_carryOut]
  congr 1
  cases s.kind? <;> rfl

/-! ### The events of a run -/

theorem kinds_flatMap_events (ss : List RunState) :
    (ss.flatMap m.events).filterMap Event.kind? = ss.filterMap RunState.kind? := by
  induction ss with
  | nil => rfl
  | cons s ss ih =>
    rw [List.flatMap_cons, List.filterMap_append, ih, kinds_events]
    simp only [List.filterMap_eq_flatMap_toList, List.flatMap_cons]

theorem sum_exactCost_flatMap_events (r : Resource) (ss : List RunState) :
    ((ss.flatMap m.events).map (m.exactCost r)).sum =
      ((ss.filterMap RunState.kind?).map fun k => (m.costs.stepCost k).units r).sum +
        ((ss.filterMap m.call?).map fun c => (m.price c.1 c.2).units r).sum := by
  induction ss with
  | nil => rfl
  | cons s ss ih =>
    rw [List.flatMap_cons, List.map_append, List.sum_append, ih, sum_exactCost_events]
    simp only [List.filterMap_eq_flatMap_toList, List.flatMap_cons, List.map_append,
      List.sum_append]
    omega

theorem start_not_mem_flatMap_events (ss : List RunState) :
    Event.start ∉ ss.flatMap m.events := by
  intro h
  obtain ⟨s, -, hs⟩ := List.mem_flatMap.1 h
  exact start_not_mem_advance _ _ hs

theorem resume_paid {fuel : Nat} (h : m.resume fuel s = some (x, b)) (hx : ¬ Overdrawn x) :
    m.payAll s.account ((m.trail fuel s).flatMap m.events) = .ok b := by
  induction fuel generalizing s with
  | zero => cases h
  | succ fuel ih =>
    rw [resume_succ] at h
    rw [trail, List.flatMap_cons, payAll_append]
    cases hnext : m.step s with
    | more s₁ =>
      rw [hnext] at h
      rw [events, (step_going hnext).2]
      exact ih h
    | stop y fs c =>
      rw [hnext] at h
      cases h
      rcases step_stopped hnext with ⟨-, hpay⟩ | ⟨e, rfl, hpay⟩
      · rw [events, hpay]
        rfl
      · exact absurd (overdrawn_of_payAll_error hpay) hx

/-- **A run that is not overdrawn has paid for the events of its states.** -/
theorem run_paid {fuel : Nat} {t : Term} (h : m.run fuel t a = some (x, b)) (hx : ¬ Overdrawn x) :
    m.payAll a (.start :: (m.states fuel t a).flatMap m.events) = .ok b := by
  simp only [payAll, pay, due, carry]
  rw [run_eq_resume] at h
  unfold states
  cases hspend : a.settle.spend m.costs.startup with
  | ok c =>
    rw [hspend] at h
    exact resume_paid h hx
  | error y =>
    rw [hspend] at h
    cases h
    obtain ⟨-, -, hf⟩ := Account.spend_error hspend
    exact absurd ⟨_, none, by rw [hf]⟩ hx

/-- A run that succeeds leaves no step pending. -/
theorem run_ok_pending {fuel : Nat} {t u : Term} (h : m.run fuel t a = some (.ok u, b)) :
    b.pending = .uniform 0 := by
  rcases run_cases h with ⟨hres, hpay⟩ | ⟨e, he, -⟩
  · obtain ⟨es, hes⟩ := course_ok_finish hres
    rw [hes] at hpay
    have hend : m.payAll a ((.start :: es) ++ [.finish]) = .ok b := hpay
    exact pending_of_finish hend
  · cases he

end Machine

/-! ### Pending steps -/

namespace Account

/-- The pending steps of a regular account are among the steps taken, and no more in all than it
says. -/
structure Tallied (slippage : Nat) (taken : List StepKind) (a : Account) : Prop where
  regular : a.Regular slippage
  among : ∀ k, a.pending.get k ≤ taken.count k
  total : (StepKind.all.map a.pending.get).sum ≤ a.pendingTotal

variable {slippage : Nat} {taken : List StepKind} {a : Account}

theorem tallied_settle (slippage : Nat) (taken : List StepKind) (a : Account) :
    a.settle.Tallied slippage taken where
  regular := regular_settle slippage a
  among k := by
    show (PerStep.uniform 0).get k ≤ _
    rw [PerStep.get_uniform]
    exact Nat.zero_le _
  total := Nat.le_refl 0

theorem sum_get_modify_le (pending : PerStep Nat) (k : StepKind) {f : Nat → Nat}
    (hf : ∀ n, f n ≤ n + 1) :
    (StepKind.all.map (pending.modify k f).get).sum ≤
      (StepKind.all.map pending.get).sum + 1 := by
  have hk := hf (pending.get k)
  cases k <;>
  · simp only [PerStep.get] at hk
    simp only [StepKind.all, List.map_cons, List.map_nil, List.sum_cons, List.sum_nil,
      PerStep.modify, PerStep.get]
    omega

/-- A step that is counted is one of those taken. -/
theorem tallied_count (ha : a.Tallied slippage taken) (hs : slippage ≤ maxCount) {k : StepKind}
    (hk : ¬ slippage ≤ (a.count k).pendingTotal) :
    (a.count k).Tallied slippage (taken ++ [k]) where
  regular := regular_count ha.regular hs hk
  among j := by
    have hj := ha.among j
    show (a.pending.modify k fun n => min (n + 1) maxCount).get j ≤ _
    rw [List.count_append]
    by_cases hkj : k = j
    · subst hkj
      rw [PerStep.get_modify_self, List.count_singleton_self]
      omega
    · rw [PerStep.get_modify_ne _ _ hkj]
      omega
  total := by
    have hsum : (StepKind.all.map (a.count k).pending.get).sum ≤
        (StepKind.all.map a.pending.get).sum + 1 :=
      sum_get_modify_le a.pending k fun n => Nat.min_le_left _ _
    have htotal := ha.total
    rw [ha.regular.pendingTotal_count hs k]
    omega

end Account

namespace Machine

variable {m : Machine} {x : Except MachineError Term} {a b : Account} {taken : List StepKind}

theorem tallied_carry (ha : a.Tallied m.slippage.val taken) (e : Event) :
    (m.carry a e).Tallied m.slippage.val (taken ++ e.kind?.toList) := by
  have hsame : a.Tallied m.slippage.val (taken ++ []) := by rwa [List.append_nil]
  cases e with
  | start => exact Account.tallied_settle _ _ _
  | step k =>
    simp only [carry]
    split
    · exact Account.tallied_settle _ _ _
    · rename_i hk
      exact Account.tallied_count ha m.slippage_le hk
  | call fn args => exact hsame
  | note s => exact ⟨regular_carry ha.regular (.note s), hsame.among, hsame.total⟩
  | finish => exact Account.tallied_settle _ _ _

theorem tallied_pay (ha : a.Tallied m.slippage.val taken) {e : Event} (h : m.pay a e = .ok b) :
    b.Tallied m.slippage.val (taken ++ e.kind?.toList) := by
  have hcarry := tallied_carry ha e
  refine ⟨regular_pay ha.regular h, ?_, ?_⟩
  · rcases pay_ok h with ⟨-, rfl⟩ | ⟨cost, -, rfl, -⟩ <;> exact hcarry.among
  · rcases pay_ok h with ⟨-, rfl⟩ | ⟨cost, -, rfl, -⟩ <;> exact hcarry.total

theorem tallied_payAll (ha : a.Tallied m.slippage.val taken) {es : List Event}
    (h : m.payAll a es = .ok b) :
    b.Tallied m.slippage.val (taken ++ es.filterMap Event.kind?) := by
  induction es generalizing a taken with
  | nil =>
    cases h
    simpa using ha
  | cons e es ih =>
    obtain ⟨c, hpay, h⟩ := payAll_cons_ok h
    have hrest := ih (tallied_pay ha hpay) h
    simp only [List.filterMap_eq_flatMap_toList, List.flatMap_cons] at hrest ⊢
    rwa [← List.append_assoc]

/-! ### The budget consumed -/

/-- A sum over steps, gathered by kind. -/
theorem sum_map_eq_by_kind (f : StepKind → Int) (taken : List StepKind) :
    (taken.map f).sum = (StepKind.all.map fun k => (taken.count k : Int) * f k).sum := by
  induction taken with
  | nil => simp
  | cons k taken ih =>
    rw [List.map_cons, List.sum_cons, ih]
    cases k <;>
    · simp only [StepKind.all, List.map_cons, List.map_nil, List.sum_cons, List.sum_nil,
        List.count_cons, Int.natCast_add, Int.add_mul, beq_iff_eq, reduceCtorEq,
        ↓reduceIte, Nat.cast_one, Nat.cast_zero, one_mul, zero_mul]
      omega

/-- The cost of the steps taken, less that of the steps pending. -/
theorem sum_steps_sub_pendingUnits (costs : CostModel) (taken : List StepKind)
    (pending : PerStep Nat) (r : Resource) :
    (taken.map fun k => (costs.stepCost k).units r).sum - Account.pendingUnits costs pending r =
      (StepKind.all.map fun k =>
        ((taken.count k : Int) - pending.get k) * (costs.stepCost k).units r).sum := by
  rw [sum_map_eq_by_kind]
  simp only [Account.pendingUnits, StepKind.all, List.map_cons, List.map_nil, List.sum_cons,
    List.sum_nil, Int.sub_mul, Int.mul_comm ((costs.stepCost _).units r)]
  omega

/-- What a run that is not overdrawn has consumed: the startup cost, and the exact cost of its
events, less that of the steps still pending. -/
theorem consumed_of_run (hm : m.NonnegCosts) {budget : Budget}
    (hlt : ∀ r, budget.units r < Amount.greatest) {fuel : Nat} {t : Term}
    (h : m.run fuel t (.ofBudget budget) = some (x, b)) (hx : ¬ Overdrawn x) (r : Resource) :
    (budget - b.remaining).units r =
      m.costs.startup.units r +
        (((m.states fuel t (.ofBudget budget)).flatMap m.events).map (m.exactCost r)).sum -
        Account.pendingUnits m.costs b.pending r := by
  have hpaid := run_paid h hx
  have hbal := payAll_start_balance hm hlt (start_not_mem_flatMap_events _) hpaid r
  have hbudget : ∀ r, 0 ≤ budget.units r := nonneg_of_payAll_start hm hpaid
  have hleft := (payAll_units_le hm hbudget hpaid r).1
  rw [Budget.units_sub_of_nonneg (hbudget r) hleft]
  rw [Account.balance, List.map_cons, List.sum_cons] at hbal
  simp only [exactCost] at hbal ⊢
  omega

/-- **Exact cost accounting.**  If no charge is negative and neither component of the budget is the
greatest amount, a run that is not overdrawn has consumed the startup cost, the cost of its steps
but for some it was not charged for, and the price of its calls, exactly.  A success was charged
for all of its steps; a failure got fewer steps for free than are charged together. -/
theorem consumed_exact (hm : m.NonnegCosts) {budget : Budget}
    (hlt : ∀ r, budget.units r < Amount.greatest) {fuel : Nat} {t : Term} {s : Session}
    (h : (Session.start budget).run m fuel t = some (x, s)) (hx : ¬ Overdrawn x) :
    ∃ free : StepKind → Nat,
      (∀ k, free k ≤ (m.stepsTaken fuel t (.ofBudget budget)).count k) ∧
      (x.isOk = true → (StepKind.all.map free).sum = 0) ∧
      (StepKind.all.map free).sum < max m.slippage.val 1 ∧
      ∀ r, s.consumed.units r =
        m.costs.startup.units r +
        (StepKind.all.map fun k =>
          (((m.stepsTaken fuel t (.ofBudget budget)).count k : Int) - free k) *
            (m.costs.stepCost k).units r).sum +
        ((m.callsMade fuel t (.ofBudget budget)).map fun c => (m.price c.1 c.2).units r).sum := by
  have hrun := Session.machine_run h
  rw [Session.start_account] at hrun
  have hinitial : s.initial = budget := Session.run_initial h
  have htally : s.account.Tallied m.slippage.val (m.stepsTaken fuel t (.ofBudget budget)) := by
    have hsettled := Account.tallied_settle m.slippage.val [] (.ofBudget budget)
    have hkinds := tallied_payAll hsettled (run_paid hrun hx)
    rwa [List.nil_append, List.filterMap_cons_none rfl, kinds_flatMap_events] at hkinds
  -- the free steps are those still pending when the run stops
  refine ⟨s.account.pending.get, htally.among, fun hok => ?_, ?_, fun r => ?_⟩
  · cases x with
    | ok u =>
      rw [run_ok_pending hrun]
      rfl
    | error e => cases hok
  · exact Nat.lt_of_le_of_lt htally.total htally.regular.total
  · have hcost := consumed_of_run hm hlt hrun hx r
    rw [sum_exactCost_flatMap_events] at hcost
    rw [← sum_steps_sub_pendingUnits]
    show (s.initial - s.account.remaining).units r = _
    rw [hinitial, hcost]
    unfold stepsTaken callsMade
    omega

/-- A program that fails after two calls: it discards a difference and gives up. -/
def discarded : Term := .apply (.lambda .error) .difference

/-- Four steps are charged together, at one unit of memory each. -/
def byFours : Machine := { flat ⟨1, 1⟩ ⟨1, 2⟩ ⟨3, 4⟩ with slippage := ⟨4, by decide⟩ }

set_option maxRecDepth 1000 in
theorem consumed_exact_discarded :
    ∃ x s, (Session.start ⟨100, 100⟩).run byFours 60 discarded = some (x, s) ∧ ¬ Overdrawn x ∧
      s.consumed = ⟨23, 41⟩ ∧
      ∃ free : StepKind → Nat,
        (∀ k, free k ≤ (byFours.stepsTaken 60 discarded (.ofBudget ⟨100, 100⟩)).count k) ∧
        (StepKind.all.map free).sum = 2 := by
  have hm : byFours.NonnegCosts :=
    (nonnegCosts_flat (by decide) (by decide) (by decide)).slippage 4
  have hlt : ∀ r, (⟨100, 100⟩ : Budget).units r < Amount.greatest := by
    rintro (_ | _) <;> decide
  obtain ⟨s, hrun, hconsumed⟩ :
      ∃ s, (Session.start ⟨100, 100⟩).run byFours 60 discarded =
        some (.error ⟨.explicitError, none⟩, s) ∧ s.consumed = ⟨23, 41⟩ := ⟨_, rfl, rfl⟩
  have hx : ¬ Overdrawn (.error ⟨.explicitError, none⟩) := by
    rintro ⟨rest, step, h⟩
    cases h
  have hsteps : byFours.stepsTaken 60 discarded (.ofBudget ⟨100, 100⟩) =
      [.apply, .lambda, .case, .constr, .constant, .constant, .lambda, .lambda, .apply, .apply,
        .force, .builtin, .constant, .apply, .apply, .builtin, .var, .var] := rfl
  have hcalls : ((byFours.callsMade 60 discarded (.ofBudget ⟨100, 100⟩)).map fun c =>
      (byFours.price c.1 c.2).units .mem) = [3, 3] := rfl
  obtain ⟨free, hamong, -, -, hexact⟩ := consumed_exact hm hlt hrun hx
  refine ⟨_, s, hrun, hx, hconsumed, free, hamong, ?_⟩
  have hmem := hexact .mem
  rw [hconsumed, hsteps, hcalls] at hmem
  have hcost : ∀ k, (byFours.costs.stepCost k).units .mem = 1 := by
    intro k
    cases k <;> rfl
  simp only [hcost] at hmem
  have h₁ : (⟨23, 41⟩ : Budget).units .mem = 23 := rfl
  have h₂ : byFours.costs.startup.units .mem = 1 := rfl
  rw [h₁, h₂] at hmem
  simp only [StepKind.all, List.map_cons, List.map_nil, List.sum_cons, List.sum_nil,
    List.count_cons, List.count_nil, beq_iff_eq, reduceCtorEq, ↓reduceIte] at hmem ⊢
  omega

end Machine

end PlutusCek
