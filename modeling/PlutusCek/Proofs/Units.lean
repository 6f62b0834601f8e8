import Mathlib.Algebra.Order.BigOperators.Group.List
import Mathlib.Algebra.Order.Group.Int
import Mathlib.Algebra.Ring.Int.Defs
import PlutusCek.Machine.Account

/-!
# Proofs.Units — budgets over the integers

A budget is seen as the integer amounts of its two resources.  Arithmetic on budgets clamps, but
among amounts that are not negative a subtraction is exact, and a sum is the exact one cut off at
the greatest amount.  The cost of the pending steps is such a sum (`units_pendingCost`).
-/

namespace PlutusCek

/-- What a budget is an amount of. -/
inductive Resource where
  | mem
  | cpu
deriving DecidableEq

namespace Budget

/-- The amount of a resource, as an integer. -/
def units (b : Budget) : Resource → Int
  | .mem => b.mem.toInt
  | .cpu => b.cpu.toInt

variable {a b : Budget} {r : Resource}

theorem ext_units (h : ∀ r, a.units r = b.units r) : a = b := by
  have hmem : a.mem = b.mem := Amount.ext (h .mem)
  have hcpu : a.cpu = b.cpu := Amount.ext (h .cpu)
  cases a
  cases b
  cases hmem
  cases hcpu
  rfl

/-- No more of either resource. -/
instance : LE Budget := ⟨fun a b => a.mem ≤ b.mem ∧ a.cpu ≤ b.cpu⟩

instance (a b : Budget) : Decidable (a ≤ b) :=
  inferInstanceAs (Decidable (a.mem ≤ b.mem ∧ a.cpu ≤ b.cpu))

theorem le_iff_units : a ≤ b ↔ ∀ r, a.units r ≤ b.units r := by
  constructor
  · rintro ⟨hmem, hcpu⟩ r
    cases r
    · exact hmem
    · exact hcpu
  · intro h
    exact ⟨h .mem, h .cpu⟩

theorem units_nonneg (h : zero ≤ b) (r : Resource) : 0 ≤ b.units r := by
  have hr := le_iff_units.1 h r
  cases r <;> exact hr

theorem least_le_units (b : Budget) (r : Resource) : Amount.least ≤ b.units r := by
  cases r
  · exact b.mem.least_le
  · exact b.cpu.least_le

theorem units_le_greatest (b : Budget) (r : Resource) : b.units r ≤ Amount.greatest := by
  cases r
  · exact b.mem.le_greatest
  · exact b.cpu.le_greatest

@[simp] theorem units_zero (r : Resource) : zero.units r = 0 := by
  cases r <;> rfl

theorem units_sub (a b : Budget) (r : Resource) :
    (a - b).units r = Max.max Amount.least (min (a.units r - b.units r) Amount.greatest) := by
  cases r
  · exact Amount.toInt_sub a.mem b.mem
  · exact Amount.toInt_sub a.cpu b.cpu

theorem units_add (a b : Budget) (r : Resource) :
    (a + b).units r = Max.max Amount.least (min (a.units r + b.units r) Amount.greatest) := by
  cases r
  · exact Amount.toInt_add a.mem b.mem
  · exact Amount.toInt_add a.cpu b.cpu

theorem isExhausted_iff : b.isExhausted = true ↔ ∃ r, b.units r < 0 := by
  simp only [isExhausted, Bool.or_eq_true, decide_eq_true_eq]
  constructor
  · rintro (h | h)
    · exact ⟨.mem, h⟩
    · exact ⟨.cpu, h⟩
  · rintro ⟨r, h⟩
    cases r
    · exact .inl h
    · exact .inr h

theorem not_isExhausted_iff : b.isExhausted = false ↔ ∀ r, 0 ≤ b.units r := by
  constructor
  · intro h r
    by_contra hr
    have hex : b.isExhausted = true := isExhausted_iff.2 ⟨r, by omega⟩
    rw [h] at hex
    cases hex
  · intro h
    by_contra hex
    obtain ⟨r, hr⟩ := isExhausted_iff.1 (Bool.eq_true_of_not_eq_false hex)
    have := h r
    omega

/-- Subtraction among amounts that are not negative is exact. -/
theorem units_sub_of_nonneg (ha : 0 ≤ a.units r) (hb : 0 ≤ b.units r) :
    (a - b).units r = a.units r - b.units r := by
  have h₁ := a.units_le_greatest r
  have h₂ := b.units_le_greatest r
  rw [units_sub]
  unfold Amount.least Amount.greatest at *
  omega

/-- Addition of amounts that are not negative is cut off at the greatest amount. -/
theorem units_add_of_nonneg (ha : 0 ≤ a.units r) (hb : 0 ≤ b.units r) :
    (a + b).units r = min (a.units r + b.units r) Amount.greatest := by
  rw [units_add]
  unfold Amount.least Amount.greatest
  omega

/-- So is a multiple. -/
theorem units_occurrences_of_nonneg (hb : 0 ≤ b.units r) (n : Nat) :
    (b.occurrences n).units r = min (b.units r * n) Amount.greatest := by
  have hmul : (b.occurrences n).units r =
      Max.max Amount.least (min (b.units r * (Amount.clamp n).toInt) Amount.greatest) := by
    cases r
    · exact Amount.toInt_mul b.mem (Amount.clamp n)
    · exact Amount.toInt_mul b.cpu (Amount.clamp n)
  rw [hmul]
  by_cases hn : (n : Int) ≤ Amount.greatest
  · have hlow : Amount.least ≤ (n : Int) := by unfold Amount.least; omega
    rw [Amount.toInt_clamp_of_mem hlow hn]
    have hprod : 0 ≤ b.units r * (n : Int) := Int.mul_nonneg hb (by omega)
    unfold Amount.least Amount.greatest
    omega
  · -- beyond the greatest amount the factor is cut off, and so is the product
    have hclamp : (Amount.clamp n).toInt = Amount.greatest := by
      rw [Amount.toInt_clamp]
      unfold Amount.least Amount.greatest at *
      omega
    rw [hclamp]
    rcases Int.lt_or_eq_of_le hb with hpos | hzero
    · have h₁ : 1 * Amount.greatest ≤ b.units r * Amount.greatest :=
        Int.mul_le_mul_of_nonneg_right hpos (by decide)
      have h₂ : b.units r * Amount.greatest ≤ b.units r * n :=
        Int.mul_le_mul_of_nonneg_left (by omega) hb
      unfold Amount.least Amount.greatest at *
      omega
    · rw [← hzero, Int.zero_mul, Int.zero_mul]
      decide

end Budget

namespace Account

/-- The exact cost of pending steps in a resource. -/
def pendingUnits (costs : CostModel) (pending : PerStep Nat) (r : Resource) : Int :=
  (StepKind.all.map fun k => (costs.stepCost k).units r * pending.get k).sum

variable {costs : CostModel} {r : Resource}

theorem units_foldl_add {ι : Type} (cost : ι → Budget) (exact : ι → Int) (r : Resource)
    (hexact : ∀ i, 0 ≤ exact i)
    (hcost : ∀ i, (cost i).units r = min (exact i) Amount.greatest) (l : List ι) (total : Budget)
    (htotal : 0 ≤ total.units r) :
    (l.foldl (fun t i => t + cost i) total).units r =
      min (total.units r + (l.map exact).sum) Amount.greatest := by
  induction l generalizing total with
  | nil =>
    have := total.units_le_greatest r
    simp only [List.foldl_nil, List.map_nil, List.sum_nil]
    omega
  | cons i l ih =>
    have hi := hexact i
    have hci := hcost i
    have hpos : 0 ≤ (cost i).units r := by
      rw [hci]; unfold Amount.greatest; omega
    have hadd := Budget.units_add_of_nonneg htotal hpos
    have hnext : 0 ≤ (total + cost i).units r := by
      rw [hadd]; unfold Amount.greatest; omega
    have hsum : 0 ≤ (l.map exact).sum := by
      refine List.sum_nonneg ?_
      intro x hx
      obtain ⟨j, -, rfl⟩ := List.mem_map.1 hx
      exact hexact j
    rw [List.foldl_cons, ih _ hnext, hadd, hci, List.map_cons, List.sum_cons]
    omega

/-- **The cost of pending steps** is their exact cost, cut off at the greatest amount. -/
theorem units_pendingCost (hcosts : ∀ k, 0 ≤ (costs.stepCost k).units r) (pending : PerStep Nat) :
    (pendingCost costs pending).units r =
      min (pendingUnits costs pending r) Amount.greatest := by
  have h := units_foldl_add (fun k => (costs.stepCost k).occurrences (pending.get k))
    (fun k => (costs.stepCost k).units r * pending.get k) r
    (fun k => Int.mul_nonneg (hcosts k) (by omega))
    (fun k => Budget.units_occurrences_of_nonneg (hcosts k) _) StepKind.all Budget.zero
    (by rw [Budget.units_zero])
  rw [Budget.units_zero, Int.zero_add] at h
  exact h

theorem pendingUnits_nonneg (hcosts : ∀ k, 0 ≤ (costs.stepCost k).units r)
    (pending : PerStep Nat) : 0 ≤ pendingUnits costs pending r := by
  refine List.sum_nonneg ?_
  intro x hx
  obtain ⟨k, -, rfl⟩ := List.mem_map.1 hx
  exact Int.mul_nonneg (hcosts k) (by omega)

@[simp] theorem pendingUnits_uniform_zero (costs : CostModel) (r : Resource) :
    pendingUnits costs (.uniform 0) r = 0 := by
  simp [pendingUnits, StepKind.all]

/-- One more step of a kind adds its cost. -/
theorem pendingUnits_modify (pending : PerStep Nat) (k : StepKind) (f : Nat → Nat)
    (hf : f (pending.get k) = pending.get k + 1) (r : Resource) :
    pendingUnits costs (pending.modify k f) r =
      pendingUnits costs pending r + (costs.stepCost k).units r := by
  cases k <;>
  · simp only [PerStep.get] at hf
    simp only [pendingUnits, StepKind.all, List.map_cons, List.map_nil, List.sum_cons, List.sum_nil,
      PerStep.modify, PerStep.get, hf, Int.natCast_add, Int.mul_add]
    omega

end Account

end PlutusCek
