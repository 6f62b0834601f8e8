import PlutusCek.Proofs.Clamping

/-!
# Proofs.Words — how many words integers and byte strings take

Sizes are amounts, so they are cut off at the greatest one.  Here they are counted exactly: an
integer takes at most `k` words if its magnitude is below `2 ^ (64 * k)`
(`Size.integerWords_le_iff`), and a byte string takes a word for every eight bytes it has or has
begun.  What arithmetic makes of integers takes no more words than follows from their bounds.
-/

namespace PlutusCek

theorem Amount.caps_clamp (n : Nat) : (Amount.clamp n).Caps n := by
  refine ⟨Int.natCast_nonneg n, ?_⟩
  rw [Amount.toInt_clamp]
  unfold Amount.least Amount.greatest
  omega

theorem Amount.clamp_ne_zero {n : Nat} (hn : 1 ≤ n) : Amount.clamp n ≠ 0 := by
  intro h
  have hint := congrArg Amount.toInt h
  rw [Amount.toInt_clamp] at hint
  change max Amount.least (min (n : Int) Amount.greatest) = 0 at hint
  unfold Amount.least Amount.greatest at hint
  omega

/-- What is no more before it is cut off is no more afterwards. -/
theorem Amount.Caps.le {a b : Amount} {m n : Int} (ha : a.Caps m) (hb : b.Caps n) (h : m ≤ n) :
    a ≤ b := by
  rw [Amount.le_iff, ha.toInt_eq, hb.toInt_eq]
  omega

namespace Size

/-! ### Integers -/

theorem bitLength_le_iff (n k : Nat) : bitLength n ≤ k ↔ n < 2 ^ k := by
  unfold bitLength
  by_cases hn : n = 0
  · rw [if_pos hn, hn]
    exact iff_of_true (Nat.zero_le k) (Nat.two_pow_pos k)
  · rw [if_neg hn]
    exact Nat.log2_lt hn

/-- The words of an integer's magnitude; one for zero. -/
def integerWords (n : Int) : Nat := max 1 ((bitLength n.natAbs + 63) / 64)

theorem integer_eq (n : Int) : integer n = Amount.clamp (integerWords n) := by
  unfold integer integerWords
  by_cases hn : n = 0
  · rw [if_pos hn, hn]
    rfl
  · have hpos : ¬ bitLength n.natAbs ≤ 0 := by
      rw [bitLength_le_iff]
      omega
    have hwords : max 1 ((bitLength n.natAbs + 63) / 64) = (bitLength n.natAbs + 64 - 1) / 64 := by
      omega
    rw [if_neg hn, hwords]
    rfl

theorem caps_integer (n : Int) : (integer n).Caps (integerWords n) := by
  rw [integer_eq]
  exact Amount.caps_clamp _

theorem integerWords_pos (n : Int) : 1 ≤ integerWords n := Nat.le_max_left _ _

theorem integerWords_le_iff (n : Int) {k : Nat} (hk : 1 ≤ k) :
    integerWords n ≤ k ↔ n.natAbs < 2 ^ (64 * k) := by
  rw [← bitLength_le_iff, integerWords]
  omega

theorem natAbs_lt_integerWords (n : Int) : n.natAbs < 2 ^ (64 * integerWords n) :=
  (integerWords_le_iff n (integerWords_pos n)).1 (Nat.le_refl _)

/-- A smaller magnitude takes no more words. -/
theorem integerWords_mono {m n : Int} (h : m.natAbs ≤ n.natAbs) :
    integerWords m ≤ integerWords n :=
  (integerWords_le_iff m (integerWords_pos n)).2 (Nat.lt_of_le_of_lt h (natAbs_lt_integerWords n))

/-- A magnitude that is no more than two others together takes one word more at most. -/
theorem integerWords_le_of_natAbs_le_add {m n r : Int} (h : r.natAbs ≤ m.natAbs + n.natAbs) :
    integerWords r ≤ 1 + max (integerWords m) (integerWords n) := by
  have hbound : ∀ i : Int, integerWords i ≤ max (integerWords m) (integerWords n) →
      i.natAbs < 2 ^ (64 * max (integerWords m) (integerWords n)) := fun i hi =>
    Nat.lt_of_lt_of_le (natAbs_lt_integerWords i)
      (Nat.pow_le_pow_right (by decide) (Nat.mul_le_mul_left 64 hi))
  have hm := hbound m (Nat.le_max_left _ _)
  have hn := hbound n (Nat.le_max_right _ _)
  have hcarry : 2 * 2 ^ (64 * max (integerWords m) (integerWords n)) ≤
      2 ^ (64 * (1 + max (integerWords m) (integerWords n))) := by
    rw [← Nat.pow_succ']
    exact Nat.pow_le_pow_right (by decide) (by omega)
  rw [integerWords_le_iff r (Nat.le_add_right 1 _)]
  omega

theorem integerWords_mul_le (m n : Int) :
    integerWords (m * n) ≤ integerWords m + integerWords n := by
  have hm := natAbs_lt_integerWords m
  have hn := natAbs_lt_integerWords n
  have hpos := integerWords_pos m
  rw [integerWords_le_iff _ (by omega), Int.natAbs_mul, Nat.mul_add, Nat.pow_add]
  exact Nat.mul_lt_mul'' hm hn

/-! ### Byte strings -/

/-- The words of so many bytes; one for none. -/
def byteWords (length : Nat) : Nat := max 1 ((length + 7) / 8)

theorem byteWords_pos (length : Nat) : 1 ≤ byteWords length := Nat.le_max_left _ _

theorem bytes_eq (b : Bytes) : bytes b = Amount.clamp (byteWords b.length) := by
  unfold bytes byteWords
  cases b with
  | nil => rfl
  | cons x b =>
    have hwords : max 1 (((x :: b).length + 7) / 8) = ((x :: b).length + 8 - 1) / 8 := by
      rw [List.length_cons]
      omega
    rw [hwords]
    rfl

theorem caps_bytes (b : Bytes) : (bytes b).Caps (byteWords b.length) := by
  rw [bytes_eq]
  exact Amount.caps_clamp _

/-- A word holds the number that eight bytes stand for. -/
theorem pow_le_pow_byteWords (length : Nat) : 256 ^ length ≤ 2 ^ (64 * byteWords length) := by
  have hbits : (256 : Nat) ^ length = 2 ^ (8 * length) := by rw [Nat.pow_mul]
  rw [hbits]
  refine Nat.pow_le_pow_right (by decide) ?_
  unfold byteWords
  omega

end Size

end PlutusCek
