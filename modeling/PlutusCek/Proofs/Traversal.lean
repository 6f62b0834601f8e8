import Mathlib.Algebra.Order.BigOperators.Group.List
import PlutusCek.Proofs.Clamping

/-!
# Proofs.Traversal — what a comparison of two data is sized by

The size of data is the sum of the sizes of its nodes, cut off at the greatest amount
(`Size.caps_data`).  A comparison walks two data side by side and stops when one of them has no more
nodes, so of the other it has seen one node more at most.  It is sized by the lesser of the two sums
up to there (`Size.caps_comparison`).  That is the lesser of the two sizes only if the walk did not
stop too early (`Size.comparison_eq_min_iff`): many small nodes against few large ones are sized by
the first of the small ones.
-/

namespace PlutusCek.Size

open Amount (Caps caps_toInt caps_zero)

/-! ### The sizes of the nodes -/

/-- Sizes added up over the integers. -/
def weight (sizes : List Amount) : Int := (sizes.map Amount.toInt).sum

@[simp] theorem weight_nil : weight [] = 0 := rfl

@[simp] theorem weight_cons (n : Amount) (sizes : List Amount) :
    weight (n :: sizes) = n.toInt + weight sizes := by
  rw [weight, List.map_cons, List.sum_cons, weight]

namespace Walk

variable {w rest : Walk} {n : Amount}

theorem sizes_of_none (h : w.next? = none) : w.sizes = [] := by
  rw [sizes]
  split
  · rfl
  · rename_i hnext
    cases h.symm.trans hnext

theorem sizes_of_some (h : w.next? = some (n, rest)) : w.sizes = n :: rest.sizes := by
  rw [sizes]
  split
  · rename_i hnext
    cases h.symm.trans hnext
  · rename_i hnext
    cases h.symm.trans hnext
    rfl

end Walk

theorem node_pos (d : Data) : 0 < (node d).toInt := by
  have hfour : 0 < (4 : Amount).toInt := by decide
  have hsum : ∀ a : Amount, 0 ≤ a.toInt → 0 < (4 + a).toInt := by
    intro a ha
    rw [Amount.toInt_add]
    unfold Amount.least Amount.greatest
    omega
  cases d with
  | integer n => exact hsum _ (integer_nonneg n)
  | bytes b => exact hsum _ (bytes_nonneg b)
  | _ => exact hfour

theorem Walk.forall_mem_sizes_pos (w : Walk) : ∀ n ∈ w.sizes, 0 < n.toInt := by
  fun_induction Walk.sizes w with
  | case1 w h => simp
  | case2 w n rest h ih =>
    refine List.forall_mem_cons.2 ⟨?_, ih⟩
    cases w with
    | nil => cases h
    | cons d ds =>
      cases h
      exact node_pos d

/-- Leaving out nodes lowers the sum. -/
theorem weight_take_lt {sizes : List Amount} (h : ∀ n ∈ sizes, 0 < n.toInt) {k : Nat}
    (hk : sizes.take k ≠ sizes) : weight (sizes.take k) < weight sizes := by
  induction sizes generalizing k with
  | nil => exact absurd List.take_nil hk
  | cons n sizes ih =>
    obtain ⟨hn, hsizes⟩ := List.forall_mem_cons.1 h
    have hrest : 0 ≤ weight sizes := by
      refine List.sum_nonneg fun x hx => ?_
      obtain ⟨n', hn', rfl⟩ := List.mem_map.1 hx
      exact Int.le_of_lt (hsizes n' hn')
    cases k with
    | zero =>
      rw [List.take_zero, weight_nil, weight_cons]
      omega
    | succ k =>
      rw [List.take_succ_cons] at hk ⊢
      have hlt := ih hsizes fun heq => hk (by rw [heq])
      rw [weight_cons, weight_cons]
      omega

/-! ### One walk, and two side by side -/

theorem Walk.caps_total (w : Walk) {acc : Amount} {k : Int} (hacc : acc.Caps k) :
    (w.total acc).Caps (k + weight w.sizes) := by
  fun_induction Walk.total w acc generalizing k with
  | case1 w acc h => simpa only [sizes_of_none h, weight_nil, Int.add_zero] using hacc
  | case2 w acc n rest h ih =>
    have hsum := ih (hacc.add (caps_toInt (next?_nonneg h)))
    rwa [sizes_of_some h, weight_cons, ← Int.add_assoc]

/-- The size of data is the sum over its nodes. -/
theorem caps_data (d : Data) : (data d).Caps (weight (Walk.sizes [d])) := by
  have h := Walk.caps_total [d] caps_zero
  rwa [Int.zero_add] at h

/-- Of the longer walk one node more is seen than the other one has. -/
theorem Walk.caps_race (xs ys : Walk) {x y : Amount} {m n : Int} (hx : x.Caps m) (hy : y.Caps n) :
    (race xs ys x y).Caps (min (m + weight (xs.sizes.take (ys.sizes.length + 1)))
      (n + weight (ys.sizes.take (xs.sizes.length + 1)))) := by
  fun_induction Walk.race xs ys x y generalizing m n with
  | case1 xs ys x y s xs' t ys' hxs hys ih =>
    have hrest := ih (hx.add (caps_toInt (next?_nonneg hxs)))
      (hy.add (caps_toInt (next?_nonneg hys)))
    simp only [sizes_of_some hxs, sizes_of_some hys, List.length_cons, List.take_succ_cons,
      weight_cons, ← Int.add_assoc]
    exact hrest
  | case2 xs ys x y s xs' hxs hys =>
    have hseen := hx.add (caps_toInt (next?_nonneg hxs))
    simp only [sizes_of_some hxs, sizes_of_none hys, List.length_nil, List.take_succ_cons,
      List.take_zero, List.take_nil, weight_cons, weight_nil, Int.add_zero]
    rw [min_comm]
    exact hy.min hseen
  | case3 xs ys x y t ys' hxs hys =>
    have hseen := hy.add (caps_toInt (next?_nonneg hys))
    simp only [sizes_of_none hxs, sizes_of_some hys, List.length_nil, List.take_succ_cons,
      List.take_zero, List.take_nil, weight_cons, weight_nil, Int.add_zero]
    exact hx.min hseen
  | case4 xs ys x y hxs hys =>
    simp only [sizes_of_none hxs, sizes_of_none hys, List.take_nil, weight_nil, Int.add_zero]
    exact hx.min hy

/-! ### Comparisons -/

/-- The sizes of the nodes of `a` that are seen on a walk beside `b`. -/
def seen (a b : Data) : List Amount :=
  (Walk.sizes [a]).take ((Walk.sizes [b]).length + 1)

theorem caps_comparison (a b : Data) :
    (comparison a b).Caps (min (weight (seen a b)) (weight (seen b a))) := by
  have h := Walk.caps_race [a] [b] caps_zero caps_zero
  rwa [Int.zero_add, Int.zero_add] at h

/-- All of the data with fewer nodes is seen. -/
theorem seen_or_seen (a b : Data) : seen a b = Walk.sizes [a] ∨ seen b a = Walk.sizes [b] := by
  unfold seen
  rcases Nat.le_total (Walk.sizes [a]).length (Walk.sizes [b]).length with h | h
  · exact .inl (List.take_of_length_le (by omega))
  · exact .inr (List.take_of_length_le (by omega))

theorem weight_seen_lt {a b : Data} (h : seen a b ≠ Walk.sizes [a]) :
    weight (seen a b) < weight (Walk.sizes [a]) :=
  weight_take_lt (Walk.forall_mem_sizes_pos [a]) h

theorem weight_seen_le (a b : Data) : weight (seen a b) ≤ weight (Walk.sizes [a]) := by
  by_cases h : seen a b = Walk.sizes [a]
  · rw [h]
  · exact Int.le_of_lt (weight_seen_lt h)

/-- With all of `b` seen, the lesser sum is the lesser size unless `a` was left too early. -/
theorem min_weight_iff {a b : Data} (hb : seen b a = Walk.sizes [b]) :
    min Amount.greatest (min (weight (seen a b)) (weight (seen b a))) =
        min Amount.greatest (min (weight (Walk.sizes [a])) (weight (Walk.sizes [b]))) ↔
      seen a b = Walk.sizes [a] ∨ (data b).toInt ≤ weight (seen a b) := by
  rw [hb, (caps_data b).toInt_eq]
  by_cases ha : seen a b = Walk.sizes [a]
  · rw [ha]
    exact iff_of_true rfl (.inl rfl)
  · have hlt := weight_seen_lt ha
    rw [or_iff_right ha]
    omega

/-- **A comparison is sized by the part that was walked.**  Its size is the lesser of two sums over
the nodes seen, cut off at the greatest amount, where of either data one node more is seen at most
than the other one has.  It never exceeds the lesser of the two sizes.  It is the lesser of the two
sizes exactly if neither data is left before its end while the sum over its nodes is still below the
size of the other one. -/
theorem comparison_eq_min_iff (a b : Data) :
    (comparison a b).toInt =
      min Amount.greatest (min (weight (seen a b)) (weight (seen b a))) ∧
    comparison a b ≤ min (data a) (data b) ∧
    (comparison a b = min (data a) (data b) ↔
      (seen a b = Walk.sizes [a] ∨ (data b).toInt ≤ weight (seen a b)) ∧
      (seen b a = Walk.sizes [b] ∨ (data a).toInt ≤ weight (seen b a))) := by
  have hwalk := (caps_comparison a b).toInt_eq
  have hmin := ((caps_data a).min (caps_data b)).toInt_eq
  refine ⟨hwalk, ?_, ?_⟩
  · have ha := weight_seen_le a b
    have hb := weight_seen_le b a
    rw [Amount.le_iff, hwalk, hmin]
    omega
  · rw [Amount.ext_iff, hwalk, hmin]
    rcases seen_or_seen b a with hb | ha
    · rw [min_weight_iff hb]
      exact (and_iff_left (.inl hb)).symm
    · rw [min_comm (weight (seen a b)), min_comm (weight (Walk.sizes [a])), min_weight_iff ha]
      exact (and_iff_right (.inl ha)).symm

/-- One node of 48 bytes. -/
def block : Data := .bytes (List.replicate 48 0)

/-- Three nodes. -/
def zeros : Data := .list [.integer 0, .integer 0]

/-- The walk ends with the block, after two of the three nodes: neither size is met. -/
theorem comparison_block_zeros :
    comparison block zeros = 9 ∧ data block = 10 ∧ data zeros = 14 ∧
      comparison block zeros ≠ min (data block) (data zeros) := by
  decide +kernel

end PlutusCek.Size
