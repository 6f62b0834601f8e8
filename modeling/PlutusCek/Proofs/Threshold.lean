import PlutusCek.Proofs.Payment

/-!
# Proofs.Threshold — the exact budget a program needs

When no charge is negative, what a successful evaluation has consumed is exactly the budget it
needs.  The events of a course and the charges they lead to do not depend on the budget, so a second
account follows the first at a constant distance for as long as it can pay (`payAll_follow`), and is
overdrawn otherwise.
-/

namespace PlutusCek

namespace Account

/-- The account with another budget. -/
def withBudget (a : Account) (b : Budget) : Account := { a with remaining := b }

@[simp] theorem remaining_withBudget (a : Account) (b : Budget) :
    (a.withBudget b).remaining = b := rfl

/-- What has been spent of a resource from one account to a later one. -/
def spent (a b : Account) (r : Resource) : Int := a.remaining.units r - b.remaining.units r

end Account

namespace Machine

variable {m : Machine} {a b : Account}

theorem due_withBudget (a : Account) (c : Budget) (e : Event) :
    m.due (a.withBudget c) e = m.due a e := by
  cases e <;> rfl

theorem carry_withBudget (a : Account) (c : Budget) (e : Event) :
    m.carry (a.withBudget c) e = (m.carry a e).withBudget c := by
  cases e with
  | step k =>
    show (if m.slippage.val ≤ (a.count k).pendingTotal then ((a.count k).withBudget c).settle
      else (a.count k).withBudget c) = _
    simp only [carry]
    split <;> rfl
  | _ => rfl

/-! ### A second account -/

/-- If one account can pay for an event, another in the same state is charged the same, and can pay
exactly if it has as much. -/
theorem pay_follow (hm : m.NonnegCosts) {e : Event} (ha : ∀ r, 0 ≤ a.remaining.units r)
    (h : m.pay a e = .ok b) {c : Budget} (hc : ∀ r, 0 ≤ c.units r) :
    ((∀ r, a.spent b r ≤ c.units r) →
      ∃ d, m.pay (a.withBudget c) e = .ok (b.withBudget d) ∧
        ∀ r, d.units r = c.units r - a.spent b r) ∧
    ((∃ r, c.units r < a.spent b r) →
      ∃ f d, m.pay (a.withBudget c) e = .error (f, d) ∧
        ∀ r, c.units r - d.remaining.units r = a.spent b r) := by
  rcases pay_ok h with ⟨hdue, rfl⟩ | ⟨cost, hdue, hb, -⟩
  · -- nothing is due
    have hspent : ∀ r, a.spent (m.carry a e) r = 0 := fun r => by
      rw [Account.spent, carry_remaining]
      omega
    refine ⟨fun _ => ⟨c, ?_, fun r => ?_⟩, ?_⟩
    · simp only [pay, due_withBudget, hdue, carry_withBudget]
    · rw [hspent r]
      omega
    · rintro ⟨r, hr⟩
      have := hc r
      rw [hspent r] at hr
      omega
  · -- both are charged `cost`
    have hcost := due_nonneg hm hdue
    have hspent : ∀ r, a.spent b r = cost.units r := fun r => by
      have hrem : b.remaining = a.remaining - cost := by rw [hb]
      rw [Account.spent, hrem, Budget.units_sub_of_nonneg (ha r) (hcost r)]
      omega
    have hsub : ∀ r, (c - cost).units r = c.units r - cost.units r :=
      fun r => Budget.units_sub_of_nonneg (hc r) (hcost r)
    have hpay : m.pay (a.withBudget c) e =
        if (c - cost).isExhausted then
          .error (.budgetExhausted (c - cost), (m.carry a e).withBudget (c - cost))
        else .ok ((m.carry a e).withBudget (c - cost)) := by
      simp only [pay, due_withBudget, hdue, carry_withBudget]
      rfl
    refine ⟨fun hle => ⟨c - cost, ?_, fun r => ?_⟩, ?_⟩
    · have hex : (c - cost).isExhausted = false := by
        refine Budget.not_isExhausted_iff.2 fun r => ?_
        have := hle r
        rw [hspent r] at this
        rw [hsub r]
        omega
      rw [hpay, hex, hb]
      rfl
    · rw [hspent r, hsub r]
    · rintro ⟨r, hr⟩
      have hex : (c - cost).isExhausted = true := by
        refine Budget.isExhausted_iff.2 ⟨r, ?_⟩
        rw [hspent r] at hr
        rw [hsub r]
        omega
      refine ⟨_, _, by rw [hpay, hex]; rfl, fun r => ?_⟩
      rw [hspent r, Account.remaining_withBudget, hsub r]
      omega

/-- If one account can pay for a list of events, another in the same state is charged the same for
as long as it can pay, and can pay for all of it exactly if it has as much. -/
theorem payAll_follow (hm : m.NonnegCosts) {es : List Event} (ha : ∀ r, 0 ≤ a.remaining.units r)
    (h : m.payAll a es = .ok b) {c : Budget} (hc : ∀ r, 0 ≤ c.units r) :
    ((∀ r, a.spent b r ≤ c.units r) →
      ∃ d, m.payAll (a.withBudget c) es = .ok (b.withBudget d) ∧
        ∀ r, d.units r = c.units r - a.spent b r) ∧
    ((∃ r, c.units r < a.spent b r) →
      ∃ e d, m.payAll (a.withBudget c) es = .error (e, d) ∧
        ∀ r, c.units r - d.remaining.units r ≤ a.spent b r) := by
  induction es generalizing a c with
  | nil =>
    cases h
    have hspent : ∀ r, b.spent b r = 0 := fun r => Int.sub_self _
    refine ⟨fun _ => ⟨c, rfl, fun r => ?_⟩, ?_⟩
    · rw [hspent r]
      omega
    · rintro ⟨r, hr⟩
      have := hc r
      rw [hspent r] at hr
      omega
  | cons e es ih =>
    obtain ⟨d, hpay, h⟩ := payAll_cons_ok h
    have hd := pay_units_le hm ha hpay
    have hb := payAll_units_le hm (fun r => (hd r).1) h
    have hsum : ∀ r, a.spent b r = a.spent d r + d.spent b r := fun r => by
      simp only [Account.spent]
      omega
    have hrest : ∀ r, 0 ≤ d.spent b r := fun r => by
      have := hb r
      simp only [Account.spent]
      omega
    obtain ⟨hfirst, hfail⟩ := pay_follow hm ha hpay hc
    by_cases hle : ∀ r, a.spent d r ≤ c.units r
    · -- the first event is paid for, and the rest comes out of `c'`
      obtain ⟨c', hc', hunits⟩ := hfirst hle
      have hpos : ∀ r, 0 ≤ c'.units r := fun r => by
        have := hle r
        rw [hunits r]
        omega
      obtain ⟨hall, hsome⟩ := ih (fun r => (hd r).1) h hpos
      simp only [payAll, hc']
      refine ⟨fun henough => ?_, ?_⟩
      · obtain ⟨d', hd', hunits'⟩ := hall fun r => by
          have := henough r
          rw [hsum r] at this
          rw [hunits r]
          omega
        refine ⟨d', hd', fun r => ?_⟩
        rw [hunits' r, hunits r, hsum r]
        omega
      · rintro ⟨r, hr⟩
        obtain ⟨x, y, hxy, hle'⟩ := hsome ⟨r, by rw [hunits r]; rw [hsum r] at hr; omega⟩
        refine ⟨x, y, hxy, fun r => ?_⟩
        have := hle' r
        rw [hunits r] at this
        rw [hsum r]
        omega
    · -- the first event already overdraws
      obtain ⟨r, hr⟩ := not_forall.1 hle
      refine ⟨fun henough => absurd (henough r) ?_, fun _ => ?_⟩
      · have := hrest r
        rw [hsum r]
        omega
      · obtain ⟨f, y, hy, hunits⟩ := hfail ⟨r, by omega⟩
        refine ⟨⟨f, e.kind?⟩, y, by simp only [payAll, hy], fun r => ?_⟩
        have := hrest r
        rw [hunits r, hsum r]
        omega

/-! ### The threshold -/

/-- An overdrawn account cannot pay the startup cost. -/
theorem payAll_start_of_neg (hm : m.NonnegCosts) (es : List Event) {r : Resource}
    (hneg : a.remaining.units r < 0) :
    ∃ e d, m.payAll a (.start :: es) = .error (e, d) ∧
      ∀ r, a.remaining.units r - d.remaining.units r ≤ m.costs.startup.units r := by
  cases hpay : m.pay a .start with
  | ok c =>
    have hok : m.payAll a [.start] = .ok c := by simp only [payAll, hpay]
    have := nonneg_of_payAll_start hm hok r
    omega
  | error x =>
    obtain ⟨f, d⟩ := x
    refine ⟨⟨f, none⟩, d, by simp only [payAll, hpay]; rfl, fun r => ?_⟩
    obtain ⟨hd, -, -⟩ := Account.spend_error hpay
    have hrem : d.remaining = a.remaining - m.costs.startup := by rw [hd]; rfl
    have hs := hm.startup r
    have hlow := a.remaining.least_le_units r
    have hhigh := a.remaining.units_le_greatest r
    rw [hrem, Budget.units_sub]
    unfold Amount.least Amount.greatest at *
    omega

/-- Paying for a course costs at least the startup cost. -/
theorem startup_le_spent (hm : m.NonnegCosts) {es : List Event}
    (h : m.payAll a (.start :: es) = .ok b) (r : Resource) :
    m.costs.startup.units r ≤ a.spent b r := by
  have ha := nonneg_of_payAll_start hm h
  obtain ⟨c, hpay, hrest⟩ := payAll_cons_ok h
  obtain ⟨hrem, hpos⟩ := pay_start_ok hpay
  have hunits := Budget.units_sub_of_nonneg (ha r) (hm.startup r)
  have hle := payAll_units_le hm hpos hrest r
  rw [hrem, hunits] at hle
  unfold Account.spent
  omega

/-- A budget that does not cover what a course costs is overdrawn on the way, by no more. -/
theorem payAll_start_short (hm : m.NonnegCosts) {budget budget' : Budget} {es : List Event}
    (h : m.payAll (.ofBudget budget) (.start :: es) = .ok b)
    (hshort : ∃ r, budget'.units r < (Account.ofBudget budget).spent b r) :
    ∃ err d, m.payAll (.ofBudget budget') (.start :: es) = .error (err, d) ∧
      ∀ r, budget'.units r - d.remaining.units r ≤ (Account.ofBudget budget).spent b r := by
  by_cases hneg : ∃ r, budget'.units r < 0
  · -- not even the startup cost can be paid
    obtain ⟨r, hr⟩ := hneg
    obtain ⟨err, d, hd, hstart⟩ := payAll_start_of_neg (a := .ofBudget budget') hm es hr
    exact ⟨err, d, hd, fun r => Int.le_trans (hstart r) (startup_le_spent hm h r)⟩
  · have hpos : ∀ r, 0 ≤ budget'.units r := by
      intro r
      by_contra hr
      exact hneg ⟨r, by omega⟩
    exact (payAll_follow hm (nonneg_of_payAll_start hm h) h hpos).2 hshort

/-- **The exact budget threshold.**  Suppose no charge is negative and a program succeeds with some
budget.  With any budget that covers what it consumed, it succeeds alike, consumes the same and
leaves the difference.  With any other budget it ends overdrawn: some component of what remains is
negative, it has logged a first part of the messages and consumed no more. -/
theorem evaluate_threshold (hm : m.NonnegCosts) {p : Program} {budget : Budget} {fuel : Nat}
    {e : Evaluation} {t : Term} (h : m.evaluate fuel p budget = some e) (ht : e.result = .ok t)
    (budget' : Budget) :
    ∃ e', m.evaluate fuel p budget' = some e' ∧
      (e.consumed ≤ budget' →
        e'.result = .ok t ∧ e'.log = e.log ∧ e'.consumed = e.consumed ∧
          ∀ r, e'.remaining.units r = budget'.units r - e.consumed.units r) ∧
      (¬ e.consumed ≤ budget' →
        Overdrawn e'.result ∧ (∃ r, e'.remaining.units r < 0) ∧
          e'.log.toList <+: e.log.toList ∧ e'.consumed ≤ e.consumed) := by
  obtain ⟨hres, b, hpay, rfl⟩ := evaluate_ok h ht
  have hpos := nonneg_of_payAll_start hm hpay
  have hb := payAll_units_le hm hpos hpay
  have hspent : ∀ r, (budget - b.remaining).units r = (Account.ofBudget budget).spent b r :=
    fun r => Budget.units_sub_of_nonneg (hpos r) (hb r).1
  have hcovers : (budget - b.remaining ≤ budget') ↔
      ∀ r, (Account.ofBudget budget).spent b r ≤ budget'.units r := by
    rw [Budget.le_iff_units]
    exact forall_congr' fun r => by rw [hspent r]
  by_cases hle : budget - b.remaining ≤ budget'
  · -- the second account follows the first to the end
    have hpos' : ∀ r, 0 ≤ budget'.units r := fun r => by
      have h₁ := hcovers.1 hle r
      have h₂ := (hb r).2
      unfold Account.spent at h₁
      omega
    obtain ⟨d, hd, hunits⟩ := (payAll_follow hm hpos hpay hpos').1 (hcovers.1 hle)
    refine ⟨_, evaluate_of_payAll_ok hres hd, fun _ => ⟨rfl, rfl, ?_, fun r => ?_⟩,
      fun hnot => absurd hle hnot⟩
    · refine Budget.ext_units fun r => ?_
      have h₁ := hcovers.1 hle r
      have h₂ : 0 ≤ d.units r := by rw [hunits r]; omega
      show (budget' - d).units r = (budget - b.remaining).units r
      rw [Budget.units_sub_of_nonneg (hpos' r) h₂, hunits r, hspent r]
      omega
    · show d.units r = budget'.units r - (budget - b.remaining).units r
      rw [hunits r, hspent r]
  · -- the second account is overdrawn on the way
    obtain ⟨r, hr⟩ := not_forall.1 (mt hcovers.2 hle)
    obtain ⟨err, d, hd, hconsumed⟩ := payAll_start_short hm hpay ⟨r, Int.not_le.1 hr⟩
    obtain ⟨hcause, hex⟩ := payAll_error_overdrawn hd
    refine ⟨_, evaluate_of_payAll_error hd, fun hle' => absurd hle' hle, fun _ =>
      ⟨⟨d.remaining, err.step, by rw [← hcause]⟩, Budget.isExhausted_iff.1 hex, ?_, ?_⟩⟩
    · have hlog := payAll_error_log hd
      have hlog' := payAll_log hpay
      rw [hlog']
      exact hlog
    · refine Budget.le_iff_units.2 fun r => ?_
      show (budget' - d.remaining).units r ≤ (budget - b.remaining).units r
      have h₁ := hconsumed r
      have h₂ := (hb r).2
      rw [Budget.units_sub, hspent r]
      unfold Account.spent at *
      unfold Amount.least Amount.greatest
      omega

set_option maxRecDepth 1000 in
theorem evaluate_threshold_difference :
    (∃ e, (flat ⟨1, 1⟩ ⟨1, 2⟩ ⟨3, 4⟩).evaluate 40 ⟨.sums, .difference⟩ ⟨23, 41⟩ = some e ∧
      e.result = .ok (.constant (.integer 1)) ∧ e.consumed = ⟨23, 41⟩) ∧
    ∃ e, (flat ⟨1, 1⟩ ⟨1, 2⟩ ⟨3, 4⟩).evaluate 40 ⟨.sums, .difference⟩ ⟨23, 40⟩ = some e ∧
      Overdrawn e.result := by
  have hm : (flat ⟨1, 1⟩ ⟨1, 2⟩ ⟨3, 4⟩).NonnegCosts :=
    nonnegCosts_flat (by decide) (by decide) (by decide)
  obtain ⟨e, he, ht, hconsumed⟩ :
      ∃ e, (flat ⟨1, 1⟩ ⟨1, 2⟩ ⟨3, 4⟩).evaluate 40 ⟨.sums, .difference⟩ ⟨100, 100⟩ = some e ∧
        e.result = .ok (.constant (.integer 1)) ∧ e.consumed = ⟨23, 41⟩ := ⟨_, rfl, rfl, rfl⟩
  obtain ⟨e₁, he₁, hcovered, -⟩ := evaluate_threshold hm he ht ⟨23, 41⟩
  obtain ⟨e₂, he₂, -, hshort⟩ := evaluate_threshold hm he ht ⟨23, 40⟩
  rw [hconsumed] at hcovered hshort
  obtain ⟨hres, -, hsame, -⟩ := hcovered (by decide)
  exact ⟨⟨e₁, he₁, hres, hsame⟩, e₂, he₂, (hshort (by decide)).1⟩

end Machine

end PlutusCek
