import PlutusCek.Proofs.Payment

/-!
# Proofs.Balance — the budget left, less the cost of the steps still pending

Steps are charged in batches, so the budget left lags behind the cost of the course.  The balance
does not: each event lowers it by the exact cost of that event, whenever the batch happens to be
charged (`pay_balance`).  This needs counters that never stop counting, which holds because a batch
is charged before a counter can reach its greatest value (`Regular`), and a budget below the
greatest amount, which no cost that has been cut off can be deducted from.
-/

namespace PlutusCek

namespace Account

/-- The budget left after the pending steps will have been charged for, over the integers. -/
def balance (costs : CostModel) (a : Account) (r : Resource) : Int :=
  a.remaining.units r - pendingUnits costs a.pending r

/-- Fewer steps are pending than are charged together, and none goes uncounted. -/
structure Regular (slippage : Nat) (a : Account) : Prop where
  total : a.pendingTotal < max slippage 1
  kind : ∀ k, a.pending.get k ≤ a.pendingTotal

theorem regular_settle (slippage : Nat) (a : Account) : a.settle.Regular slippage := by
  refine ⟨?_, fun k => ?_⟩
  · show 0 < max slippage 1
    omega
  · show (PerStep.uniform 0).get k ≤ 0
    rw [PerStep.get_uniform]

theorem regular_ofBudget (slippage : Nat) (budget : Budget) :
    (ofBudget budget).Regular slippage :=
  regular_settle slippage (ofBudget budget)

/-- Counting a step in a regular account adds its cost to what is pending. -/
theorem pendingUnits_count {slippage : Nat} {a : Account} (ha : a.Regular slippage)
    (hs : slippage ≤ maxCount) (costs : CostModel) (k : StepKind) (r : Resource) :
    pendingUnits costs (a.count k).pending r =
      pendingUnits costs a.pending r + (costs.stepCost k).units r := by
  refine pendingUnits_modify a.pending k _ ?_ r
  have h₁ := ha.total
  have h₂ := ha.kind k
  unfold maxCount at *
  omega

theorem Regular.pendingTotal_count {slippage : Nat} {a : Account} (ha : a.Regular slippage)
    (hs : slippage ≤ maxCount) (k : StepKind) : (a.count k).pendingTotal = a.pendingTotal + 1 := by
  have htotal := ha.total
  show min (a.pendingTotal + 1) maxCount = a.pendingTotal + 1
  unfold maxCount at *
  omega

/-- Counting a step keeps an account regular until the batch is complete. -/
theorem regular_count {slippage : Nat} {a : Account} (ha : a.Regular slippage)
    (hs : slippage ≤ maxCount) {k : StepKind} (hk : ¬ slippage ≤ (a.count k).pendingTotal) :
    (a.count k).Regular slippage := by
  refine ⟨by omega, fun j => ?_⟩
  have h₁ := ha.total
  have h₂ := ha.kind j
  show (a.pending.modify k fun n => min (n + 1) maxCount).get j ≤ min (a.pendingTotal + 1) maxCount
  by_cases hkj : k = j
  · subst hkj
    rw [PerStep.get_modify_self]
    omega
  · rw [PerStep.get_modify_ne _ _ hkj]
    unfold maxCount at *
    omega

end Account

namespace Machine

/-- The exact cost of an event. -/
def exactCost (m : Machine) (r : Resource) : Event → Int
  | .start => m.costs.startup.units r
  | .step k => (m.costs.stepCost k).units r
  | .call fn args => (m.price fn args).units r
  | .note _ => 0
  | .finish => 0

variable {m : Machine} {a b : Account}

theorem slippage_le (m : Machine) : m.slippage.val ≤ Account.maxCount :=
  Nat.le_of_lt_succ m.slippage.isLt

theorem exactCost_nonneg (hm : m.NonnegCosts) (r : Resource) (e : Event) : 0 ≤ m.exactCost r e := by
  cases e with
  | start => exact hm.startup r
  | step k => exact hm.step k r
  | call fn args => exact hm.call fn args r
  | note s => exact Int.le_refl _
  | finish => exact Int.le_refl _

theorem sum_exactCost_nonneg (hm : m.NonnegCosts) (r : Resource) (es : List Event) :
    0 ≤ (es.map (m.exactCost r)).sum := by
  refine List.sum_nonneg ?_
  intro x hx
  obtain ⟨e, -, rfl⟩ := List.mem_map.1 hx
  exact exactCost_nonneg hm r e

theorem regular_carry (ha : a.Regular m.slippage.val) (e : Event) :
    (m.carry a e).Regular m.slippage.val := by
  cases e with
  | start => exact Account.regular_settle _ _
  | step k =>
    simp only [carry]
    split
    · exact Account.regular_settle _ _
    · rename_i hk
      exact Account.regular_count ha m.slippage_le hk
  | call fn args => exact ha
  | note s => exact ⟨ha.total, ha.kind⟩
  | finish => exact Account.regular_settle _ _

theorem regular_pay (ha : a.Regular m.slippage.val) {e : Event} (h : m.pay a e = .ok b) :
    b.Regular m.slippage.val := by
  have hcarry := regular_carry ha e
  rcases pay_ok h with ⟨-, rfl⟩ | ⟨cost, -, rfl, -⟩
  · exact hcarry
  · exact ⟨hcarry.total, hcarry.kind⟩

/-- What leaves the pending steps at an event, together with the cost of the event, is due; a cost
that exceeds the greatest amount is cut off. -/
theorem due_eq (hm : m.NonnegCosts) (ha : a.Regular m.slippage.val) {e : Event} (he : e ≠ .start)
    (r : Resource) :
    ((m.due a e).elim 0 fun cost => cost.units r) =
      min (Account.pendingUnits m.costs a.pending r + m.exactCost r e -
        Account.pendingUnits m.costs (m.carry a e).pending r) Amount.greatest := by
  have hg : (0 : Int) ≤ Amount.greatest := by decide
  have hsettled : ∀ c : Account, Account.pendingUnits m.costs c.settle.pending r = 0 :=
    fun c => Account.pendingUnits_uniform_zero m.costs r
  cases e with
  | start => exact absurd rfl he
  | step k =>
    have hcount := Account.pendingUnits_count ha m.slippage_le m.costs k r
    by_cases hk : m.slippage.val ≤ (a.count k).pendingTotal
    · -- the batch is complete, and charged with this step
      simp only [due, carry, if_pos hk, Option.elim_some, exactCost, hsettled]
      rw [Account.units_pendingCost fun k => hm.step k r, hcount]
      omega
    · -- the step joins the batch
      simp only [due, carry, if_neg hk, Option.elim_none, exactCost]
      rw [hcount]
      omega
  | call fn args =>
    have := (m.price fn args).units_le_greatest r
    simp only [due, carry, Option.elim_some, exactCost]
    omega
  | note s =>
    simp only [due, carry, Option.elim_none, exactCost, Account.note]
    omega
  | finish =>
    simp only [due, carry, Option.elim_some, exactCost, hsettled]
    rw [Account.units_pendingCost fun k => hm.step k r]
    omega

/-! ### One event -/

/-- An event that is paid for lowers the balance by its exact cost. -/
theorem pay_balance (hm : m.NonnegCosts) (ha : a.Regular m.slippage.val)
    (hpos : ∀ r, 0 ≤ a.remaining.units r) (hlt : ∀ r, a.remaining.units r < Amount.greatest)
    {e : Event} (he : e ≠ .start) (h : m.pay a e = .ok b) (r : Resource) :
    b.balance m.costs r = a.balance m.costs r - m.exactCost r e := by
  have hdue := due_eq hm ha he r
  have hl := hlt r
  have hp := hpos r
  unfold Account.balance
  rcases pay_ok h with ⟨hnone, rfl⟩ | ⟨cost, hsome, hb, hex⟩
  · rw [hnone, Option.elim_none] at hdue
    rw [carry_remaining]
    omega
  · -- what is left is not negative, so the cost has not been cut off
    rw [hsome, Option.elim_some] at hdue
    have hleft := Budget.not_isExhausted_iff.1 hex r
    have hrem : b.remaining = a.remaining - cost := by rw [hb]
    have hpend : b.pending = (m.carry a e).pending := by rw [hb]
    rw [hrem, Budget.units_sub_of_nonneg hp (due_nonneg hm hsome r)] at hleft ⊢
    rw [hpend]
    omega

/-- An event whose exact cost the balance covers can be paid for. -/
theorem pay_of_balance (hm : m.NonnegCosts) (ha : a.Regular m.slippage.val)
    (hpos : ∀ r, 0 ≤ a.remaining.units r) {e : Event} (he : e ≠ .start)
    (hle : ∀ r, m.exactCost r e ≤ a.balance m.costs r) : ∃ b, m.pay a e = .ok b := by
  cases hpay : m.pay a e with
  | ok b => exact ⟨b, rfl⟩
  | error x =>
    obtain ⟨f, b⟩ := x
    obtain ⟨cost, hsome, hb, hex, -⟩ := pay_error hpay
    obtain ⟨r, hr⟩ := Budget.isExhausted_iff.1 hex
    have hdue := due_eq hm ha he r
    have hcover := hle r
    have hrest := Account.pendingUnits_nonneg (fun k => hm.step k r) (m.carry a e).pending
    have hrem : b.remaining = a.remaining - cost := by rw [hb]
    rw [hsome, Option.elim_some] at hdue
    rw [hrem, Budget.units_sub_of_nonneg (hpos r) (due_nonneg hm hsome r)] at hr
    unfold Account.balance at hcover
    omega

/-! ### A list of events -/

theorem payAll_balance (hm : m.NonnegCosts) (ha : a.Regular m.slippage.val)
    (hpos : ∀ r, 0 ≤ a.remaining.units r) (hlt : ∀ r, a.remaining.units r < Amount.greatest)
    {es : List Event} (hes : ∀ e ∈ es, e ≠ .start) (h : m.payAll a es = .ok b) (r : Resource) :
    b.balance m.costs r = a.balance m.costs r - (es.map (m.exactCost r)).sum := by
  induction es generalizing a with
  | nil =>
    cases h
    simp
  | cons e es ih =>
    obtain ⟨c, hpay, h⟩ := payAll_cons_ok h
    have hc := pay_units_le hm hpos hpay
    have hfirst := pay_balance hm ha hpos hlt (hes e (by simp)) hpay r
    have hrest := ih (regular_pay ha hpay) (fun r => (hc r).1)
      (fun r => Int.lt_of_le_of_lt (hc r).2 (hlt r)) (fun e he => hes e (by simp [he])) h
    rw [hrest, hfirst, List.map_cons, List.sum_cons]
    omega

theorem payAll_of_balance (hm : m.NonnegCosts) (ha : a.Regular m.slippage.val)
    (hpos : ∀ r, 0 ≤ a.remaining.units r) (hlt : ∀ r, a.remaining.units r < Amount.greatest)
    {es : List Event} (hes : ∀ e ∈ es, e ≠ .start)
    (hle : ∀ r, (es.map (m.exactCost r)).sum ≤ a.balance m.costs r) :
    ∃ b, m.payAll a es = .ok b := by
  induction es generalizing a with
  | nil => exact ⟨a, rfl⟩
  | cons e es ih =>
    have hne := hes e (by simp)
    have hrest : ∀ r, 0 ≤ (es.map (m.exactCost r)).sum := fun r => sum_exactCost_nonneg hm r es
    have hsplit : ∀ r, m.exactCost r e + (es.map (m.exactCost r)).sum ≤ a.balance m.costs r :=
      fun r => by simpa using hle r
    obtain ⟨c, hpay⟩ := pay_of_balance hm ha hpos hne fun r => by
      have h₁ := hsplit r
      have h₂ := hrest r
      omega
    have hc := pay_units_le hm hpos hpay
    obtain ⟨b, hb⟩ := ih (regular_pay ha hpay) (fun r => (hc r).1)
      (fun r => Int.lt_of_le_of_lt (hc r).2 (hlt r)) (fun e he => hes e (by simp [he]))
      (fun r => by
        have := hsplit r
        rw [pay_balance hm ha hpos hlt hne hpay r]
        omega)
    exact ⟨b, by simp only [payAll, hpay, hb]⟩

end Machine

end PlutusCek
