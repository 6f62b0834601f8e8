import PlutusCek.Proofs.Balance
import PlutusCek.Proofs.Independence

/-!
# Proofs.Slippage — how many steps are charged together does not matter to a success

A machine takes the same course at any slippage, and each event of it has the same exact cost.  A
success has charged for every step, so the budget it leaves is its balance; and a budget that the
exact cost of the course leaves a balance of is enough at any slippage.
-/

namespace PlutusCek.Machine

variable {m : Machine} {a b : Account}

/-! ### Courses that end in success -/

/-- The charge for the pending steps leaves none pending. -/
theorem pending_of_finish {es : List Event} (h : m.payAll a (es ++ [.finish]) = .ok b) :
    b.pending = .uniform 0 := by
  obtain ⟨c, -, hlast⟩ := payAll_append_ok h
  obtain ⟨d, hpay, hnil⟩ := payAll_cons_ok hlast
  obtain ⟨hd, -⟩ := Account.spend_ok hpay
  cases hnil
  rw [hd]
  rfl

/-- After the charge for the pending steps the balance is the budget left. -/
theorem balance_of_finish {es : List Event} (h : m.payAll a (es ++ [.finish]) = .ok b)
    (r : Resource) : b.balance m.costs r = b.remaining.units r := by
  rw [Account.balance, pending_of_finish h, Account.pendingUnits_uniform_zero]
  omega

theorem balance_ofBudget (costs : CostModel) (budget : Budget) (r : Resource) :
    (Account.ofBudget budget).balance costs r = budget.units r := by
  have h : Account.pendingUnits costs (Account.ofBudget budget).pending r = 0 :=
    Account.pendingUnits_uniform_zero costs r
  rw [Account.balance, h, Int.sub_zero]
  rfl

/-- A fresh account can pay the startup cost exactly if it has as much. -/
theorem pay_start_iff (hm : m.NonnegCosts) (budget : Budget) :
    m.pay (.ofBudget budget) .start = .ok (.ofBudget (budget - m.costs.startup)) ↔
      ∀ r, m.costs.startup.units r ≤ budget.units r := by
  have hpay : m.pay (.ofBudget budget) .start =
      if (budget - m.costs.startup).isExhausted then
        .error (.budgetExhausted (budget - m.costs.startup),
          .ofBudget (budget - m.costs.startup))
      else .ok (.ofBudget (budget - m.costs.startup)) := rfl
  rw [hpay]
  constructor
  · intro h r
    have hs := hm.startup r
    split at h
    · cases h
    · rename_i hex
      have hpos := Budget.not_isExhausted_iff.1 (Bool.eq_false_of_not_eq_true hex) r
      rw [Budget.units_sub] at hpos
      unfold Amount.least Amount.greatest at hpos
      omega
  · intro h
    have hex : (budget - m.costs.startup).isExhausted = false := by
      refine Budget.not_isExhausted_iff.2 fun r => ?_
      have h₁ := h r
      have h₂ := hm.startup r
      rw [Budget.units_sub_of_nonneg (by omega) h₂]
      omega
    rw [hex]
    rfl

/-- What is left of a fresh account that can pay the startup cost. -/
theorem units_sub_startup (hm : m.NonnegCosts) {budget : Budget}
    (h : ∀ r, m.costs.startup.units r ≤ budget.units r) (r : Resource) :
    (budget - m.costs.startup).units r = budget.units r - m.costs.startup.units r := by
  have h₁ := h r
  have h₂ := hm.startup r
  exact Budget.units_sub_of_nonneg (by omega) h₂

/-- A fresh account that pays the startup cost and some events is balanced by their exact cost. -/
theorem payAll_start_balance (hm : m.NonnegCosts) {budget : Budget}
    (hlt : ∀ r, budget.units r < Amount.greatest) {es : List Event} (hes : Event.start ∉ es)
    (h : m.payAll (.ofBudget budget) (.start :: es) = .ok a) (r : Resource) :
    a.balance m.costs r =
      budget.units r - ((Event.start :: es).map (m.exactCost r)).sum := by
  have hne : ∀ e ∈ es, e ≠ Event.start := fun e he hstart => hes (hstart ▸ he)
  obtain ⟨c, hpay, h⟩ := payAll_cons_ok h
  obtain ⟨-, hpos⟩ := pay_start_ok hpay
  obtain ⟨hc, -⟩ := Account.spend_ok hpay
  have hc : c = .ofBudget (budget - m.costs.startup) := hc
  subst hc
  have hunits := units_sub_startup hm ((pay_start_iff hm budget).1 hpay)
  have hrest : ∀ r, (budget - m.costs.startup).units r < Amount.greatest := fun r => by
    have h₁ := hm.startup r
    have h₂ := hlt r
    rw [hunits r]
    omega
  have hbal := payAll_balance hm (Account.regular_ofBudget _ _) hpos hrest hne h r
  rw [balance_ofBudget, hunits r] at hbal
  rw [hbal, List.map_cons, List.sum_cons]
  show _ = budget.units r - (m.costs.startup.units r + _)
  omega

/-- A fresh account that pays for a whole course has spent its exact cost. -/
theorem payAll_exact (hm : m.NonnegCosts) {budget : Budget}
    (hlt : ∀ r, budget.units r < Amount.greatest) {es : List Event}
    (hes : Event.start ∉ es ++ [.finish])
    (h : m.payAll (.ofBudget budget) (.start :: (es ++ [.finish])) = .ok a) (r : Resource) :
    a.remaining.units r =
      budget.units r - ((Event.start :: (es ++ [.finish])).map (m.exactCost r)).sum := by
  have hend : m.payAll (.ofBudget budget) ((.start :: es) ++ [.finish]) = .ok a := h
  rw [← payAll_start_balance hm hlt hes h r, balance_of_finish hend r]

/-- A fresh account that covers the exact cost of a whole course can pay for it. -/
theorem payAll_of_exact (hm : m.NonnegCosts) {budget : Budget}
    (hlt : ∀ r, budget.units r < Amount.greatest) {es : List Event}
    (hes : Event.start ∉ es ++ [.finish])
    (hle : ∀ r, ((Event.start :: (es ++ [.finish])).map (m.exactCost r)).sum ≤ budget.units r) :
    ∃ a, m.payAll (.ofBudget budget) (.start :: (es ++ [.finish])) = .ok a := by
  have hne : ∀ e ∈ es ++ [.finish], e ≠ Event.start := fun e he hstart => hes (hstart ▸ he)
  have hsplit : ∀ r, m.costs.startup.units r +
      ((es ++ [Event.finish]).map (m.exactCost r)).sum ≤ budget.units r := fun r => hle r
  have hsum : ∀ r, 0 ≤ ((es ++ [Event.finish]).map (m.exactCost r)).sum :=
    fun r => sum_exactCost_nonneg hm r _
  have hstart : ∀ r, m.costs.startup.units r ≤ budget.units r := fun r => by
    have h₁ := hsplit r
    have h₂ := hsum r
    omega
  have hunits := units_sub_startup hm hstart
  obtain ⟨a, ha⟩ := payAll_of_balance (a := .ofBudget (budget - m.costs.startup)) hm
    (Account.regular_ofBudget _ _)
    (fun r => by
      have := hstart r
      show 0 ≤ (budget - m.costs.startup).units r
      rw [hunits r]
      omega)
    (fun r => by
      have h₁ := hlt r
      have h₂ := hm.startup r
      show (budget - m.costs.startup).units r < Amount.greatest
      rw [hunits r]
      omega) hne
    (fun r => by
      have := hsplit r
      rw [balance_ofBudget, hunits r]
      omega)
  exact ⟨a, by simp only [payAll, (pay_start_iff hm budget).2 hstart, ha]⟩

/-! ### Two slippages -/

theorem agrees_slippage (m : Machine) (s₁ s₂ : Fin 4294967296) :
    Agrees { m with slippage := s₁ } { m with slippage := s₂ } :=
  ⟨rfl, rfl, rfl, fun _ => rfl⟩

theorem NonnegCosts.slippage (hm : m.NonnegCosts) (s : Fin 4294967296) :
    NonnegCosts { m with slippage := s } :=
  ⟨hm.startup, hm.step, hm.call⟩

theorem exactCost_slippage (m : Machine) (s : Fin 4294967296) (r : Resource) :
    exactCost { m with slippage := s } r = exactCost m r := by
  funext e
  cases e <;> rfl

theorem evaluate_slippage_imp (hm : m.NonnegCosts) {p : Program} {budget : Budget}
    (hlt : ∀ r, budget.units r < Amount.greatest) (s₁ s₂ : Fin 4294967296) {fuel : Nat}
    {e : Evaluation} {t : Term} (ht : e.result = .ok t)
    (h : evaluate { m with slippage := s₁ } fuel p budget = some e) :
    evaluate { m with slippage := s₂ } fuel p budget = some e := by
  obtain ⟨hres, a, hpay, rfl⟩ := evaluate_ok h ht
  obtain ⟨es, hes⟩ := course_ok_finish hres
  have hno := start_not_mem_course (m := { m with slippage := s₁ }) fuel (.compute p.term []) []
  have hcourse := (agrees_slippage m s₁ s₂).course fuel (.compute p.term []) []
  rw [hes] at hpay hno
  have hspent := payAll_exact (hm.slippage s₁) hlt hno hpay
  have hleft := payAll_units_le (hm.slippage s₁)
    (nonneg_of_payAll_start (hm.slippage s₁) hpay) hpay
  obtain ⟨b, hb⟩ := payAll_of_exact (hm.slippage s₂) hlt hno fun r => by
    have h₁ := hspent r
    have h₂ := (hleft r).1
    rw [exactCost_slippage] at h₁ ⊢
    omega
  have hrem : b.remaining = a.remaining := by
    refine Budget.ext_units fun r => ?_
    rw [payAll_exact (hm.slippage s₂) hlt hno hb r, hspent r]
    simp only [exactCost_slippage]
  have hlog : b.log = a.log := Array.ext' (by rw [payAll_log hb, payAll_log hpay])
  rw [← hes, hcourse] at hb
  rw [hcourse] at hres
  rw [evaluate_of_payAll_ok hres hb, hrem, hlog]

/-- **Slippage is invisible to a success.**  If no charge is negative and neither component of the
budget is the greatest amount, a program succeeds at one slippage exactly if it does at another,
with the same result, the same log and the same budget left. -/
theorem evaluate_slippage (hm : m.NonnegCosts) (p : Program) {budget : Budget}
    (hlt : ∀ r, budget.units r < Amount.greatest) (s₁ s₂ : Fin 4294967296) (fuel : Nat)
    {e : Evaluation} (he : e.isSuccess = true) :
    evaluate { m with slippage := s₁ } fuel p budget = some e ↔
      evaluate { m with slippage := s₂ } fuel p budget = some e := by
  obtain ⟨t, ht⟩ : ∃ t, e.result = .ok t := by
    unfold Evaluation.isSuccess at he
    cases hres : e.result with
    | ok t => exact ⟨t, rfl⟩
    | error err => rw [hres] at he; cases he
  exact ⟨evaluate_slippage_imp hm hlt s₁ s₂ ht, evaluate_slippage_imp hm hlt s₂ s₁ ht⟩

set_option maxRecDepth 1000 in
theorem evaluate_slippage_difference :
    let e : Evaluation :=
      ⟨.ok (.constant (.integer 1)), ⟨100, 100⟩, ⟨77, 59⟩, #["subtract"]⟩
    evaluate { flat ⟨1, 1⟩ ⟨1, 2⟩ ⟨3, 4⟩ with slippage := 0 } 40 ⟨.sums, .difference⟩
        ⟨100, 100⟩ = some e ∧
      evaluate { flat ⟨1, 1⟩ ⟨1, 2⟩ ⟨3, 4⟩ with slippage := 4294967295 } 40 ⟨.sums, .difference⟩
        ⟨100, 100⟩ = some e := by
  intro e
  have hm : (flat ⟨1, 1⟩ ⟨1, 2⟩ ⟨3, 4⟩).NonnegCosts :=
    nonnegCosts_flat (by decide) (by decide) (by decide)
  have hlt : ∀ r, (⟨100, 100⟩ : Budget).units r < Amount.greatest := by
    rintro (_ | _) <;> decide
  have he : evaluate { flat ⟨1, 1⟩ ⟨1, 2⟩ ⟨3, 4⟩ with slippage := 0 } 40 ⟨.sums, .difference⟩
      ⟨100, 100⟩ = some e := rfl
  have hsuccess : e.isSuccess = true := rfl
  exact ⟨he, (evaluate_slippage hm _ hlt 0 4294967295 40 hsuccess).1 he⟩

end PlutusCek.Machine
