import Mathlib.Algebra.Order.Ring.Int
import PlutusCek.Proofs.Sizes

/-!
# Proofs.Clamping — a clamped cost is the exact cost, cut off once

Cost functions compute in amounts, and every sum and product on the way is clamped.  Over numbers
that are not negative no step loses anything: a number that was cut off meets only summands that are
not negative, and factors that are zero or at least one (`Amount.Caps.add`, `Amount.Caps.mul`).  So
the cost is the formula of the shape over the integers, cut off at the greatest amount
(`CostFunction.cost_eq_min_formula`).
-/

namespace PlutusCek

/-! ### Numbers that are cut off -/

namespace Amount

/-- The amount is a number that is not negative, cut off at the greatest amount. -/
structure Caps (a : Amount) (n : Int) : Prop where
  nonneg : 0 ≤ n
  toInt_eq : a.toInt = min greatest n

variable {a b : Amount} {m n : Int}

theorem caps_toInt (h : 0 ≤ a.toInt) : a.Caps a.toInt :=
  ⟨h, (min_eq_right a.le_greatest).symm⟩

theorem caps_zero : (0 : Amount).Caps 0 := ⟨Int.le_refl 0, by decide⟩

theorem Caps.add (ha : a.Caps m) (hb : b.Caps n) : (a + b).Caps (m + n) := by
  obtain ⟨hm, ha⟩ := ha
  obtain ⟨hn, hb⟩ := hb
  refine ⟨Int.add_nonneg hm hn, ?_⟩
  rw [toInt_add, ha, hb]
  unfold least greatest
  omega

/-- A factor that was cut off is absorbed: the other one is zero or at least one. -/
theorem min_mul_of_le {bound : Int} (hbound : 1 ≤ bound) (hm : bound ≤ m) (hn : 0 ≤ n) :
    min bound (bound * min bound n) = min bound (m * n) := by
  rcases Int.le_iff_eq_or_lt.1 hn with rfl | hpos
  · rw [min_eq_right (by omega : (0 : Int) ≤ bound), Int.mul_zero, Int.mul_zero]
  · have hcut : 1 ≤ min bound n := by omega
    have hleft : bound ≤ bound * min bound n := le_mul_of_one_le_right (by omega) hcut
    have hright : bound ≤ m * n := calc
      bound ≤ m := hm
      _ ≤ m * n := le_mul_of_one_le_right (by omega) hpos
    rw [min_eq_left hleft, min_eq_left hright]

theorem min_mul_min {bound : Int} (hbound : 1 ≤ bound) (hm : 0 ≤ m) (hn : 0 ≤ n) :
    min bound (min bound m * min bound n) = min bound (m * n) := by
  rcases Int.le_total bound m with hle | hle
  · rw [min_eq_left hle, min_mul_of_le hbound hle hn]
  · rcases Int.le_total bound n with hle' | hle'
    · rw [min_eq_left hle', Int.mul_comm, min_mul_of_le hbound hle' hm, Int.mul_comm]
    · rw [min_eq_right hle, min_eq_right hle']

theorem Caps.mul (ha : a.Caps m) (hb : b.Caps n) : (a * b).Caps (m * n) := by
  obtain ⟨hm, ha⟩ := ha
  obtain ⟨hn, hb⟩ := hb
  have hexact := Int.mul_nonneg hm hn
  refine ⟨hexact, ?_⟩
  rw [toInt_mul, ha, hb, min_comm, min_mul_min (by decide) hm hn]
  unfold least greatest
  omega

theorem toInt_min (a b : Amount) : (min a b).toInt = min a.toInt b.toInt := by
  show (if a ≤ b then a else b).toInt = _
  split
  · rename_i hle
    exact (min_eq_left (le_iff.1 hle)).symm
  · rename_i hle
    exact (min_eq_right (Int.le_of_lt (Int.not_le.1 hle))).symm

theorem toInt_max (a b : Amount) : (max a b).toInt = max a.toInt b.toInt := by
  show (if a ≤ b then b else a).toInt = _
  split
  · rename_i hle
    exact (max_eq_right (le_iff.1 hle)).symm
  · rename_i hle
    exact (max_eq_left (Int.le_of_lt (Int.not_le.1 hle))).symm

theorem Caps.min (ha : a.Caps m) (hb : b.Caps n) : (min a b).Caps (min m n) := by
  obtain ⟨hm, ha⟩ := ha
  obtain ⟨hn, hb⟩ := hb
  refine ⟨by omega, ?_⟩
  rw [toInt_min, ha, hb]
  omega

theorem Caps.max (ha : a.Caps m) (hb : b.Caps n) : (max a b).Caps (max m n) := by
  obtain ⟨hm, ha⟩ := ha
  obtain ⟨hn, hb⟩ := hb
  refine ⟨by omega, ?_⟩
  rw [toInt_max, ha, hb]
  omega

/-- A difference may be negative, but not its maximum with an amount that is not. -/
theorem caps_max_sub {minimum : Amount} (ha : 0 ≤ a.toInt) (hb : 0 ≤ b.toInt)
    (hmin : 0 ≤ minimum.toInt) :
    (Max.max (a - b) minimum).Caps (Max.max (a.toInt - b.toInt) minimum.toInt) := by
  have ha' := a.le_greatest
  have hb' := b.le_greatest
  have hmin' := minimum.le_greatest
  refine ⟨by omega, ?_⟩
  rw [toInt_max, toInt_sub]
  unfold least greatest at *
  omega

/-- Half as much again. -/
theorem Caps.add_half (ha : a.Caps n) : (a + a.half).Caps (n + n / 2) := by
  obtain ⟨hn, ha⟩ := ha
  have hhalf : a.half.toInt = a.toInt / 2 := by
    rw [half, Int.tdiv_eq_ediv_of_nonneg (by unfold greatest at ha; omega)]
    refine toInt_clamp_of_mem ?_ ?_
    · unfold least greatest at *
      omega
    · unfold greatest at *
      omega
  refine ⟨by omega, ?_⟩
  rw [toInt_add, hhalf, ha]
  unfold least greatest
  omega

end Amount

/-! ### The formulas over the integers -/

/-- `intercept + slope * n`. -/
def Linear.formula (l : Linear) (n : Int) : Int :=
  l.intercept.toInt + l.slope.toInt * n

/-- `c0 + c1 * n + c2 * n ^ 2`. -/
def Quadratic.formula (q : Quadratic) (n : Int) : Int :=
  q.c0.toInt + q.c1.toInt * n + q.c2.toInt * n ^ 2

/-- `intercept + slope1 * m + slope2 * n`. -/
def Bilinear.formula (l : Bilinear) (m n : Int) : Int :=
  l.intercept.toInt + l.slope1.toInt * m + l.slope2.toInt * n

/-- The quadratic form at `x` and `y`, not below the minimum. -/
def Biquadratic.formula (q : Biquadratic) (x y : Int) : Int :=
  max (q.c00.toInt + q.c10.toInt * x + q.c01.toInt * y + q.c20.toInt * x ^ 2 +
    q.c11.toInt * x * y + q.c02.toInt * y ^ 2) q.minimum.toInt

/-- `c00 + c11 * y * z + c12 * y * z ^ 2`, and half of it again if `x > z`. -/
def PowerCoefficients.formula (c : PowerCoefficients) (x y z : Int) : Int :=
  let cost := c.c00.toInt + c.c11.toInt * y * z + c.c12.toInt * y * z ^ 2
  if x > z then cost + cost / 2 else cost

/-- The cost over the integers, of operands whose sizes are given by position. -/
def CostFunction.formula (size : Nat → Int) : CostFunction → Int
  | .constant c => c.toInt
  | .linearInX l => l.formula (size 0)
  | .linearInY l => l.formula (size 1)
  | .linearInZ l => l.formula (size 2)
  | .linearInU l => l.formula (size 3)
  | .addedSizes l => l.formula (size 0 + size 1)
  | .subtractedSizes l minimum => l.formula (max (size 0 - size 1) minimum.toInt)
  | .multipliedSizes l => l.formula (size 0 * size 1)
  | .minSize l => l.formula (min (size 0) (size 1))
  | .maxSize l => l.formula (max (size 0) (size 1))
  | .linearOnDiagonal c l => if size 0 = size 1 then l.formula (size 0) else c.toInt
  | .constAboveDiagonal c model => if size 0 < size 1 then c.toInt else model.formula size
  | .constBelowDiagonal c model => if size 0 > size 1 then c.toInt else model.formula size
  | .quadraticInY q => q.formula (size 1)
  | .quadraticInZ q => q.formula (size 2)
  | .quadraticInXY q => q.formula (size 0) (size 1)
  | .linearInYZ l => l.formula (size 1) (size 2)
  | .linearInMaxYZ l => l.formula (max (size 1) (size 2))
  | .literalInYOrLinearInZ l => if size 1 = 0 then l.formula (size 2) else size 1
  | .power c => c.formula (size 0) (size 1) (size 2)

/-! ### The parts of a cost function -/

open Amount (Caps caps_toInt)

theorem Linear.caps_eval {l : Linear} {stem : String}
    (h : ∀ p ∈ CostFunction.linearParameters stem l, 0 ≤ p.2.toInt) {n : Amount} {k : Int}
    (hn : n.Caps k) : (l.eval n).Caps (l.formula k) := by
  obtain ⟨hintercept, hrest⟩ := List.forall_mem_cons.1 h
  have hslope := List.forall_mem_singleton.1 hrest
  exact (caps_toInt hintercept).add ((caps_toInt hslope).mul hn)

theorem Quadratic.caps_eval {q : Quadratic} (h₀ : 0 ≤ q.c0.toInt) (h₁ : 0 ≤ q.c1.toInt)
    (h₂ : 0 ≤ q.c2.toInt) {n : Amount} (hn : 0 ≤ n.toInt) :
    (q.eval n).Caps (q.formula n.toInt) := by
  have hn := caps_toInt hn
  have hlinear := (caps_toInt h₀).add ((caps_toInt h₁).mul hn)
  have hsquare := ((caps_toInt h₂).mul hn).mul hn
  rw [Int.mul_assoc, ← pow_two] at hsquare
  exact hlinear.add hsquare

theorem Bilinear.caps_eval {l : Bilinear} (h₀ : 0 ≤ l.intercept.toInt) (h₁ : 0 ≤ l.slope1.toInt)
    (h₂ : 0 ≤ l.slope2.toInt) {m n : Amount} (hm : 0 ≤ m.toInt) (hn : 0 ≤ n.toInt) :
    (l.eval m n).Caps (l.formula m.toInt n.toInt) := by
  have hfirst := (caps_toInt h₀).add ((caps_toInt h₁).mul (caps_toInt hm))
  exact hfirst.add ((caps_toInt h₂).mul (caps_toInt hn))

theorem Biquadratic.caps_eval {q : Biquadratic} (hmin : 0 ≤ q.minimum.toInt)
    (h₀₀ : 0 ≤ q.c00.toInt) (h₁₀ : 0 ≤ q.c10.toInt) (h₀₁ : 0 ≤ q.c01.toInt)
    (h₂₀ : 0 ≤ q.c20.toInt) (h₁₁ : 0 ≤ q.c11.toInt) (h₀₂ : 0 ≤ q.c02.toInt) {x y : Amount}
    (hx : 0 ≤ x.toInt) (hy : 0 ≤ y.toInt) : (q.eval x y).Caps (q.formula x.toInt y.toInt) := by
  have hx := caps_toInt hx
  have hy := caps_toInt hy
  have hxx := ((caps_toInt h₂₀).mul hx).mul hx
  rw [Int.mul_assoc, ← pow_two] at hxx
  have hyy := ((caps_toInt h₀₂).mul hy).mul hy
  rw [Int.mul_assoc, ← pow_two] at hyy
  have hlinear := ((caps_toInt h₀₀).add ((caps_toInt h₁₀).mul hx)).add ((caps_toInt h₀₁).mul hy)
  have hform := ((hlinear.add hxx).add (((caps_toInt h₁₁).mul hx).mul hy)).add hyy
  exact hform.max (caps_toInt hmin)

theorem PowerCoefficients.caps_eval {c : PowerCoefficients} (h₀₀ : 0 ≤ c.c00.toInt)
    (h₁₁ : 0 ≤ c.c11.toInt) (h₁₂ : 0 ≤ c.c12.toInt) {x y z : Amount} (hy : 0 ≤ y.toInt)
    (hz : 0 ≤ z.toInt) : (c.eval x y z).Caps (c.formula x.toInt y.toInt z.toInt) := by
  have hz := caps_toInt hz
  have hyz := (caps_toInt hy).mul hz
  have hproduct := (caps_toInt h₁₁).mul hyz
  rw [← Int.mul_assoc] at hproduct
  have hcubic := ((caps_toInt h₁₂).mul hyz).mul hz
  rw [← Int.mul_assoc, Int.mul_assoc, ← pow_two] at hcubic
  have hcost := ((caps_toInt h₀₀).add hproduct).add hcubic
  simp only [eval, formula, Amount.lt_iff, gt_iff_lt]
  split
  · exact hcost.add_half
  · exact hcost

/-! ### Cost functions -/

namespace CostFunction

variable {size : Nat → Amount}

theorem caps_cost {f : CostFunction} {stem : String}
    (hparams : ∀ p ∈ f.parameters stem, 0 ≤ p.2.toInt) (hsize : ∀ i, 0 ≤ (size i).toInt) :
    (f.cost size).Caps (f.formula fun i => (size i).toInt) := by
  have hx := caps_toInt (hsize 0)
  have hy := caps_toInt (hsize 1)
  have hz := caps_toInt (hsize 2)
  have hu := caps_toInt (hsize 3)
  induction f generalizing stem with
  | constant c =>
    have hc := List.forall_mem_singleton.1 hparams
    exact caps_toInt hc
  | linearInX l => exact l.caps_eval hparams hx
  | linearInY l => exact l.caps_eval hparams hy
  | linearInZ l => exact l.caps_eval hparams hz
  | linearInU l => exact l.caps_eval hparams hu
  | addedSizes l => exact l.caps_eval hparams (hx.add hy)
  | subtractedSizes l minimum =>
    obtain ⟨hl, hrest⟩ := List.forall_mem_append.1 hparams
    have hminimum := List.forall_mem_singleton.1 hrest
    exact l.caps_eval hl (Amount.caps_max_sub (hsize 0) (hsize 1) hminimum)
  | multipliedSizes l => exact l.caps_eval hparams (hx.mul hy)
  | minSize l => exact l.caps_eval hparams (hx.min hy)
  | maxSize l => exact l.caps_eval hparams (hx.max hy)
  | linearOnDiagonal c l =>
    obtain ⟨hc, hl⟩ := List.forall_mem_cons.1 hparams
    simp only [cost, formula, Amount.ext_iff]
    split
    · exact l.caps_eval hl hx
    · exact caps_toInt hc
  | constAboveDiagonal c model ih =>
    obtain ⟨hc, hmodel⟩ := List.forall_mem_cons.1 hparams
    simp only [cost, formula, Amount.lt_iff]
    split
    · exact caps_toInt hc
    · exact ih hmodel
  | constBelowDiagonal c model ih =>
    obtain ⟨hc, hmodel⟩ := List.forall_mem_cons.1 hparams
    simp only [cost, formula, Amount.lt_iff, gt_iff_lt]
    split
    · exact caps_toInt hc
    · exact ih hmodel
  | quadraticInY q =>
    simp only [parameters, List.forall_mem_cons] at hparams
    obtain ⟨h₀, h₁, h₂, -⟩ := hparams
    exact q.caps_eval h₀ h₁ h₂ (hsize 1)
  | quadraticInZ q =>
    simp only [parameters, List.forall_mem_cons] at hparams
    obtain ⟨h₀, h₁, h₂, -⟩ := hparams
    exact q.caps_eval h₀ h₁ h₂ (hsize 2)
  | quadraticInXY q =>
    simp only [parameters, List.forall_mem_cons] at hparams
    obtain ⟨hmin, h₀₀, h₁₀, h₀₁, h₂₀, h₁₁, h₀₂, -⟩ := hparams
    exact q.caps_eval hmin h₀₀ h₁₀ h₀₁ h₂₀ h₁₁ h₀₂ (hsize 0) (hsize 1)
  | linearInYZ l =>
    simp only [parameters, List.forall_mem_cons] at hparams
    obtain ⟨h₀, h₁, h₂, -⟩ := hparams
    exact l.caps_eval h₀ h₁ h₂ (hsize 1) (hsize 2)
  | linearInMaxYZ l => exact l.caps_eval hparams (hy.max hz)
  | literalInYOrLinearInZ l =>
    have hzero : size 1 = 0 ↔ (size 1).toInt = 0 := Amount.ext_iff
    simp only [cost, formula, hzero]
    split
    · exact l.caps_eval hparams hz
    · exact hy
  | power c =>
    simp only [parameters, List.forall_mem_cons] at hparams
    obtain ⟨h₀₀, h₁₁, h₁₂, -⟩ := hparams
    exact c.caps_eval h₀₀ h₁₁ h₁₂ (hsize 1) (hsize 2)

theorem toInt_sizesOf (sizes : List Amount) (i : Nat) :
    (sizesOf sizes i).toInt = (sizes.map Amount.toInt).getD i 0 := by
  rw [sizesOf, List.getD_eq_getElem?_getD, List.getD_eq_getElem?_getD, List.getElem?_map]
  cases sizes[i]? <;> rfl

theorem sizesOf_nonneg {sizes : List Amount} (h : ∀ n ∈ sizes, 0 ≤ n.toInt) (i : Nat) :
    0 ≤ (sizesOf sizes i).toInt := by
  rw [sizesOf, List.getD_eq_getElem?_getD]
  cases hi : sizes[i]? with
  | none => exact Amount.ofNat_nonneg 0
  | some n => exact h n (List.mem_of_getElem? hi)

/-- **Clamping only cuts off.**  Where neither the parameters of a cost function nor the sizes of
its operands are negative, the cost is the value of its formula over the integers, cut off at the
greatest amount.  Sizes past the end of the list count as zero. -/
theorem cost_eq_min_formula (f : CostFunction) {stem : String}
    (hparams : ∀ p ∈ f.parameters stem, 0 ≤ p.2.toInt) {sizes : List Amount}
    (hsizes : ∀ n ∈ sizes, 0 ≤ n.toInt) :
    (f.cost (sizesOf sizes)).toInt =
      min Amount.greatest (f.formula fun i => (sizes.map Amount.toInt).getD i 0) := by
  have hcaps := caps_cost hparams (sizesOf_nonneg hsizes)
  simp only [toInt_sizesOf] at hcaps
  exact hcaps.toInt_eq

/-- A cost that is cut off twice on the way: the sizes are multiplied first. -/
theorem cost_eq_min_formula_power :
    let f : CostFunction := .constAboveDiagonal 9 (.power ⟨10, 0, 1⟩)
    let sizes : List Amount := [1099511627777, 1099511627776, 1099511627776]
    (∀ p ∈ f.parameters "stem", 0 ≤ p.2.toInt) ∧ (∀ n ∈ sizes, 0 ≤ n.toInt) ∧
      Amount.greatest < (sizesOf sizes 1).toInt * (sizesOf sizes 2).toInt ∧
      (f.cost (sizesOf sizes)).toInt =
        min Amount.greatest (f.formula fun i => (sizes.map Amount.toInt).getD i 0) := by
  intro f sizes
  have hparams : ∀ p ∈ f.parameters "stem", 0 ≤ p.2.toInt := by decide +kernel
  have hsizes : ∀ n ∈ sizes, 0 ≤ n.toInt := by decide
  exact ⟨hparams, hsizes, by decide, f.cost_eq_min_formula hparams hsizes⟩

end CostFunction

end PlutusCek
