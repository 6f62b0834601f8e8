import PlutusCek.Cost.Defaults
import PlutusCek.Value

/-!
# Proofs.Sizes — sizes and costs are not negative

Every size is built from numbers that are not negative by operations that clamp, so it is not
negative either, however large the operand.  A cost function of such sizes is not negative if its
parameters are not; of a quadratic form in two sizes only the lower bound has to be
(`CostFunction.cost_nonneg`).  The default costs of every language are of this kind
(`CostModel.isNonneg_ofLanguage`).
-/

namespace PlutusCek

namespace Amount

variable {a b : Amount}

theorem clamp_nonneg {n : Int} (h : 0 ≤ n) : 0 ≤ (clamp n).toInt := by
  rw [toInt_clamp]
  unfold least greatest
  omega

@[simp] theorem clamp_natCast_nonneg (n : Nat) : 0 ≤ (clamp n).toInt :=
  clamp_nonneg (Int.natCast_nonneg n)

@[simp] theorem ofNat_nonneg (n : Nat) : 0 ≤ (no_index (OfNat.ofNat n) : Amount).toInt :=
  clamp_natCast_nonneg n

theorem add_nonneg (ha : 0 ≤ a.toInt) (hb : 0 ≤ b.toInt) : 0 ≤ (a + b).toInt :=
  clamp_nonneg (Int.add_nonneg ha hb)

theorem mul_nonneg (ha : 0 ≤ a.toInt) (hb : 0 ≤ b.toInt) : 0 ≤ (a * b).toInt :=
  clamp_nonneg (Int.mul_nonneg ha hb)

theorem half_nonneg (ha : 0 ≤ a.toInt) : 0 ≤ a.half.toInt :=
  clamp_nonneg (Int.tdiv_nonneg ha (by decide))

theorem min_nonneg (ha : 0 ≤ a.toInt) (hb : 0 ≤ b.toInt) : 0 ≤ (min a b).toInt := by
  show 0 ≤ (if a ≤ b then a else b).toInt
  split
  · exact ha
  · exact hb

theorem le_max_right (a b : Amount) : b.toInt ≤ (max a b).toInt := by
  show b.toInt ≤ (if a ≤ b then b else a).toInt
  split
  · exact Int.le_refl _
  · rename_i h
    rw [le_iff] at h
    omega

theorem max_nonneg (hb : 0 ≤ b.toInt) : 0 ≤ (max a b).toInt :=
  Int.le_trans hb (le_max_right a b)

end Amount

/-! ### Sizes -/

namespace Size

@[simp] theorem words_nonneg (n word : Nat) : 0 ≤ (words n word).toInt :=
  Amount.clamp_natCast_nonneg _

@[simp] theorem integer_nonneg (n : Int) : 0 ≤ (integer n).toInt := by
  unfold integer
  split
  · exact Amount.ofNat_nonneg 1
  · exact words_nonneg _ _

@[simp] theorem bytes_nonneg (b : Bytes) : 0 ≤ (bytes b).toInt := by
  unfold bytes
  split
  · exact Amount.ofNat_nonneg 1
  · exact words_nonneg _ _

@[simp] theorem string_nonneg (s : String) : 0 ≤ (string s).toInt := words_nonneg _ _

@[simp] theorem count_nonneg (n : Nat) : 0 ≤ (count n).toInt := Amount.clamp_natCast_nonneg n

@[simp] theorem magnitude_nonneg (n : Int) : 0 ≤ (magnitude n).toInt :=
  Amount.clamp_natCast_nonneg _

@[simp] theorem bytesAsWords_nonneg (n : Int) : 0 ≤ (bytesAsWords n).toInt := by
  unfold bytesAsWords
  split
  · exact words_nonneg _ _
  · exact Amount.clamp_nonneg (by decide)

theorem node_nonneg (d : Data) : 0 ≤ (node d).toInt := by
  cases d with
  | integer n => exact Amount.add_nonneg (Amount.ofNat_nonneg 4) (integer_nonneg n)
  | bytes b => exact Amount.add_nonneg (Amount.ofNat_nonneg 4) (bytes_nonneg b)
  | _ => exact Amount.ofNat_nonneg 4

theorem Walk.next?_nonneg {w w' : Walk} {n : Amount} (h : w.next? = some (n, w')) :
    0 ≤ n.toInt := by
  cases w with
  | nil => cases h
  | cons d rest =>
    cases h
    exact node_nonneg d

theorem Walk.total_nonneg (w : Walk) {acc : Amount} (hacc : 0 ≤ acc.toInt) :
    0 ≤ (w.total acc).toInt := by
  fun_induction Walk.total w acc with
  | case1 w acc h => exact hacc
  | case2 w acc n rest h ih => exact ih (Amount.add_nonneg hacc (next?_nonneg h))

@[simp] theorem data_nonneg (d : Data) : 0 ≤ (data d).toInt :=
  Walk.total_nonneg [d] (Amount.ofNat_nonneg 0)

theorem Walk.race_nonneg (xs ys : Walk) {x y : Amount} (hx : 0 ≤ x.toInt) (hy : 0 ≤ y.toInt) :
    0 ≤ (race xs ys x y).toInt := by
  fun_induction Walk.race xs ys x y with
  | case1 xs ys x y m xs' n ys' hxs hys ih =>
    exact ih (Amount.add_nonneg hx (next?_nonneg hxs)) (Amount.add_nonneg hy (next?_nonneg hys))
  | case2 xs ys x y m xs' hxs hys =>
    exact Amount.min_nonneg hy (Amount.add_nonneg hx (next?_nonneg hxs))
  | case3 xs ys x y n ys' hxs hys =>
    exact Amount.min_nonneg hx (Amount.add_nonneg hy (next?_nonneg hys))
  | case4 xs ys x y hxs hys => exact Amount.min_nonneg hx hy

@[simp] theorem comparison_nonneg (a b : Data) : 0 ≤ (comparison a b).toInt :=
  Walk.race_nonneg [a] [b] (Amount.ofNat_nonneg 0) (Amount.ofNat_nonneg 0)

mutual

@[simp] theorem constant_nonneg : ∀ c : Constant, 0 ≤ (constant c).toInt
  | .integer n => integer_nonneg n
  | .bytes b => bytes_nonneg b
  | .string s => string_nonneg s
  | .unit => Amount.ofNat_nonneg 1
  | .bool _ => Amount.ofNat_nonneg 1
  | .data d => data_nonneg d
  | .list _ items => constants_nonneg items (Amount.ofNat_nonneg 0)
  | .pair _ _ a b =>
    Amount.add_nonneg (Amount.add_nonneg (Amount.ofNat_nonneg 1) (constant_nonneg a))
      (constant_nonneg b)
  | .array _ items => count_nonneg items.length
  | .g1 _ => Amount.ofNat_nonneg 18
  | .g2 _ => Amount.ofNat_nonneg 36
  | .miller _ => Amount.ofNat_nonneg 72
  | .assets a => count_nonneg a.size

theorem constants_nonneg : ∀ (cs : List Constant) {acc : Amount}, 0 ≤ acc.toInt →
    0 ≤ (constants acc cs).toInt
  | [], _, hacc => hacc
  | c :: cs, _, hacc => constants_nonneg cs (Amount.add_nonneg hacc (constant_nonneg c))

end

end Size

@[simp] theorem Value.size_nonneg (v : Value) : 0 ≤ v.size.toInt := by
  cases v with
  | con c => exact Size.constant_nonneg c
  | _ => exact Amount.ofNat_nonneg 1

/-! ### Cost functions -/

/-- The parameters of a line are not negative. -/
def Linear.isNonneg (l : Linear) : Bool :=
  decide (0 ≤ l.intercept.toInt) && decide (0 ≤ l.slope.toInt)

/-- The parameters of a quadratic are not negative. -/
def Quadratic.isNonneg (q : Quadratic) : Bool :=
  decide (0 ≤ q.c0.toInt) && decide (0 ≤ q.c1.toInt) && decide (0 ≤ q.c2.toInt)

theorem Linear.eval_nonneg {l : Linear} (h : l.isNonneg = true) {n : Amount} (hn : 0 ≤ n.toInt) :
    0 ≤ (l.eval n).toInt := by
  simp only [isNonneg, Bool.and_eq_true, decide_eq_true_eq] at h
  exact Amount.add_nonneg h.1 (Amount.mul_nonneg h.2 hn)

theorem Quadratic.eval_nonneg {q : Quadratic} (h : q.isNonneg = true) {n : Amount}
    (hn : 0 ≤ n.toInt) : 0 ≤ (q.eval n).toInt := by
  simp only [isNonneg, Bool.and_eq_true, decide_eq_true_eq] at h
  obtain ⟨⟨h₀, h₁⟩, h₂⟩ := h
  have hlin := Amount.add_nonneg h₀ (Amount.mul_nonneg h₁ hn)
  exact Amount.add_nonneg hlin (Amount.mul_nonneg (Amount.mul_nonneg h₂ hn) hn)

namespace CostFunction

/-- No parameter that can make the cost negative is negative. -/
def isNonneg : CostFunction → Bool
  | .constant c => decide (0 ≤ c.toInt)
  | .linearInX l => l.isNonneg
  | .linearInY l => l.isNonneg
  | .linearInZ l => l.isNonneg
  | .linearInU l => l.isNonneg
  | .addedSizes l => l.isNonneg
  | .subtractedSizes l minimum => l.isNonneg && decide (0 ≤ minimum.toInt)
  | .multipliedSizes l => l.isNonneg
  | .minSize l => l.isNonneg
  | .maxSize l => l.isNonneg
  | .linearOnDiagonal c l => decide (0 ≤ c.toInt) && l.isNonneg
  | .constAboveDiagonal c model => decide (0 ≤ c.toInt) && model.isNonneg
  | .constBelowDiagonal c model => decide (0 ≤ c.toInt) && model.isNonneg
  | .quadraticInY q => q.isNonneg
  | .quadraticInZ q => q.isNonneg
  -- the value of the form itself is never below this
  | .quadraticInXY q => decide (0 ≤ q.minimum.toInt)
  | .linearInYZ l =>
    decide (0 ≤ l.intercept.toInt) && decide (0 ≤ l.slope1.toInt) && decide (0 ≤ l.slope2.toInt)
  | .linearInMaxYZ l => l.isNonneg
  | .literalInYOrLinearInZ l => l.isNonneg
  | .power c => decide (0 ≤ c.c00.toInt) && decide (0 ≤ c.c11.toInt) && decide (0 ≤ c.c12.toInt)

variable {size : Nat → Amount}

/-- **Costs are not negative**, whatever the sizes of the operands. -/
theorem cost_nonneg (hsize : ∀ i, 0 ≤ (size i).toInt) {f : CostFunction}
    (h : f.isNonneg = true) : 0 ≤ (f.cost size).toInt := by
  induction f with
  | constant c => exact of_decide_eq_true h
  | linearInX l => exact l.eval_nonneg h (hsize 0)
  | linearInY l => exact l.eval_nonneg h (hsize 1)
  | linearInZ l => exact l.eval_nonneg h (hsize 2)
  | linearInU l => exact l.eval_nonneg h (hsize 3)
  | addedSizes l => exact l.eval_nonneg h (Amount.add_nonneg (hsize 0) (hsize 1))
  | subtractedSizes l minimum =>
    simp only [isNonneg, Bool.and_eq_true, decide_eq_true_eq] at h
    exact l.eval_nonneg h.1 (Amount.max_nonneg h.2)
  | multipliedSizes l => exact l.eval_nonneg h (Amount.mul_nonneg (hsize 0) (hsize 1))
  | minSize l => exact l.eval_nonneg h (Amount.min_nonneg (hsize 0) (hsize 1))
  | maxSize l => exact l.eval_nonneg h (Amount.max_nonneg (hsize 1))
  | linearOnDiagonal c l =>
    simp only [isNonneg, Bool.and_eq_true, decide_eq_true_eq] at h
    simp only [cost]
    split
    · exact l.eval_nonneg h.2 (hsize 0)
    · exact h.1
  | constAboveDiagonal c model ih =>
    simp only [isNonneg, Bool.and_eq_true, decide_eq_true_eq] at h
    simp only [cost]
    split
    · exact h.1
    · exact ih h.2
  | constBelowDiagonal c model ih =>
    simp only [isNonneg, Bool.and_eq_true, decide_eq_true_eq] at h
    simp only [cost]
    split
    · exact h.1
    · exact ih h.2
  | quadraticInY q => exact q.eval_nonneg h (hsize 1)
  | quadraticInZ q => exact q.eval_nonneg h (hsize 2)
  | quadraticInXY q => exact Amount.max_nonneg (of_decide_eq_true h)
  | linearInYZ l =>
    simp only [isNonneg, Bool.and_eq_true, decide_eq_true_eq] at h
    obtain ⟨⟨h₀, h₁⟩, h₂⟩ := h
    have hlin := Amount.add_nonneg h₀ (Amount.mul_nonneg h₁ (hsize 1))
    exact Amount.add_nonneg hlin (Amount.mul_nonneg h₂ (hsize 2))
  | linearInMaxYZ l => exact l.eval_nonneg h (Amount.max_nonneg (hsize 2))
  | literalInYOrLinearInZ l =>
    simp only [cost]
    split
    · exact l.eval_nonneg h (hsize 2)
    · exact hsize 1
  | power c =>
    simp only [isNonneg, Bool.and_eq_true, decide_eq_true_eq] at h
    obtain ⟨⟨h₀, h₁⟩, h₂⟩ := h
    have hyz := Amount.mul_nonneg (hsize 1) (hsize 2)
    have hcost := Amount.add_nonneg (Amount.add_nonneg h₀ (Amount.mul_nonneg h₁ hyz))
      (Amount.mul_nonneg (Amount.mul_nonneg h₂ hyz) (hsize 2))
    simp only [cost, PowerCoefficients.eval]
    split
    · exact Amount.add_nonneg hcost (Amount.half_nonneg hcost)
    · exact hcost

end CostFunction

/-! ### Default costs -/

/-- Neither cost of a builtin can be negative. -/
def BuiltinCost.isNonneg (c : BuiltinCost) : Bool := c.mem.isNonneg && c.cpu.isNonneg

namespace CostModel

theorem isNonneg_costsV1 (fn : Builtin) : (costsV1 fn).all BuiltinCost.isNonneg = true := by
  cases fn <;> decide

theorem isNonneg_costsV3 (fn : Builtin) : (costsV3 fn).all BuiltinCost.isNonneg = true := by
  cases fn <;> decide

/-- No builtin has a negative default cost. -/
theorem isNonneg_ofLanguage (l : Language) (fn : Builtin) :
    ((ofLanguage l).builtinCost? fn).all BuiltinCost.isNonneg = true := by
  cases l with
  | v1 => simpa only [ofLanguage, builtinCost?, BuiltinTable.get_ofFn] using isNonneg_costsV1 fn
  | v2 => simpa only [ofLanguage, builtinCost?, BuiltinTable.get_ofFn] using isNonneg_costsV1 fn
  | v3 => simpa only [ofLanguage, builtinCost?, BuiltinTable.get_ofFn] using isNonneg_costsV3 fn

end CostModel

end PlutusCek
