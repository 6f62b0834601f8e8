import Mathlib.Data.Nat.Bitwise
import PlutusCek.Bits
import PlutusCek.Proofs.Digits

/-!
# Proofs.BitString — byte strings as strings of bits

Bit `j` of a byte string is bit `j` of the number that it stands for, most significant byte first
(`Bits.bit`).  Reading a bit gives this (`Bits.read?_eq`), a byte string is determined by its length
and its bits (`Bits.eq_of_bit`), and counting the set bits of the bytes counts these
(`Bits.count_eq`).
-/

namespace PlutusCek.Bits

variable {b : Bytes} {j : Nat}

/-- Bit `j`, counted from the lowest bit of the last byte; false where there is none. -/
def bit (b : Bytes) (j : Nat) : Bool := b.toNatBE.testBit j

theorem two_pow_width (b : Bytes) : 2 ^ width b = 256 ^ b.length := by
  rw [width, Nat.pow_mul]

theorem width_cons (x : UInt8) (b : Bytes) : width (x :: b) = width b + 8 := by
  rw [width, width, List.length_cons, Nat.mul_add]

theorem width_congr {a b : Bytes} (h : a.length = b.length) : width a = width b := by
  rw [width, width, h]

theorem bit_of_le (h : width b ≤ j) : bit b j = false := by
  have hlt : b.toNatBE < 2 ^ width b := by
    rw [two_pow_width]
    exact Bytes.toNatBE_lt b
  have hle : 2 ^ width b ≤ 2 ^ j := Nat.pow_le_pow_right (by decide) h
  exact Nat.testBit_lt_two_pow (Nat.lt_of_lt_of_le hlt hle)

/-- The bits of the first byte are the highest ones. -/
theorem bit_cons (x : UInt8) (b : Bytes) (j : Nat) :
    bit (x :: b) j = if j < width b then bit b j else x.toNat.testBit (j - width b) := by
  have hlt : b.toNatBE < 2 ^ width b := by
    rw [two_pow_width]
    exact Bytes.toNatBE_lt b
  rw [bit, Bytes.toNatBE_cons, ← two_pow_width]
  exact Nat.testBit_two_pow_mul_add x.toNat hlt j

theorem bit_digitsBE (k n j : Nat) :
    bit (Bytes.digitsBE k n) j = (decide (j < 8 * k) && n.testBit j) := by
  have hpow : (256 : Nat) ^ k = 2 ^ (8 * k) := by rw [Nat.pow_mul]
  rw [bit, Bytes.toNatBE_digitsBE_mod, hpow, Nat.testBit_mod_two_pow]

theorem bit_replicate_zero (k j : Nat) : bit (List.replicate k 0) j = false := by
  induction k with
  | zero => exact Nat.zero_testBit j
  | succ k ih =>
    rw [List.replicate_succ, bit_cons, ih]
    split
    · rfl
    · exact Nat.zero_testBit _

/-- A byte string is determined by its length and its bits. -/
theorem eq_of_bit {a b : Bytes} (hlength : a.length = b.length)
    (hbit : ∀ j, j < width b → bit a j = bit b j) : a = b := by
  have hnumber : a.toNatBE = b.toNatBE := by
    refine Nat.eq_of_testBit_eq fun j => ?_
    show bit a j = bit b j
    by_cases hj : j < width b
    · exact hbit j hj
    · have hle : width b ≤ j := Nat.not_lt.1 hj
      rw [bit_of_le hle, bit_of_le (width_congr hlength ▸ hle)]
  rw [← Bytes.digitsBE_toNatBE a, ← Bytes.digitsBE_toNatBE b, hlength, hnumber]

/-! ### Reading a bit -/

theorem toNat_mask (j : Int) : (mask j).toNat = 2 ^ (j.toNat % 8) := by
  have hall : ∀ i < 8, ((1 : UInt8) <<< UInt8.ofNat i).toNat = 2 ^ i := by decide
  exact hall (j.toNat % 8) (Nat.mod_lt _ (by decide))

theorem and_mask (x : UInt8) (j : Int) :
    (x &&& mask j != 0) = x.toNat.testBit (j.toNat % 8) := by
  have hand : (x &&& mask j).toNat = (x.toNat.testBit (j.toNat % 8)).toNat * 2 ^ (j.toNat % 8) := by
    rw [UInt8.toNat_and, toNat_mask, Nat.and_two_pow]
  cases hbit : x.toNat.testBit (j.toNat % 8) with
  | false =>
    rw [hbit, Bool.toNat_false, Nat.zero_mul] at hand
    have hzero : x &&& mask j = 0 := UInt8.toNat_inj.1 hand
    rw [hzero]
    rfl
  | true =>
    rw [hbit, Bool.toNat_true, Nat.one_mul] at hand
    refine bne_iff_ne.2 fun hzero => ?_
    rw [hzero] at hand
    exact absurd hand.symm (Nat.ne_of_gt (Nat.two_pow_pos _))

/-- The byte that holds a bit. -/
theorem testBit_getD (hj : j < width b) :
    (b.getD (b.length - 1 - j / 8) 0).toNat.testBit (j % 8) = bit b j := by
  induction b with
  | nil => exact absurd hj (Nat.not_lt_zero j)
  | cons x b ih =>
    rw [width_cons] at hj
    rw [bit_cons]
    by_cases hlow : j < width b
    · have hposition : (x :: b).length - 1 - j / 8 = b.length - 1 - j / 8 + 1 := by
        unfold width at hlow
        rw [List.length_cons]
        omega
      rw [hposition, List.getD_cons_succ, if_pos hlow, ih hlow]
    · have hposition : (x :: b).length - 1 - j / 8 = 0 := by
        unfold width at hlow
        rw [List.length_cons]
        omega
      have hoffset : j - width b = j % 8 := by
        unfold width at hlow hj ⊢
        omega
      rw [hposition, List.getD_cons_zero, if_neg hlow, hoffset]

/-- There is a byte for the bits from zero up to the width. -/
theorem bytePosition?_eq (b : Bytes) (j : Int) :
    bytePosition? b j =
      if 0 ≤ j ∧ j < width b then some (b.length - 1 - j.toNat / 8) else none := by
  cases j with
  | negSucc n => exact (if_neg fun h => by omega).symm
  | ofNat n =>
    show (do let last ← checkedSub b.length 1; checkedSub last (n / 8)) = _
    rw [Int.ofNat_eq_natCast, Int.toNat_natCast]
    unfold width checkedSub
    by_cases hpos : 1 ≤ b.length
    · rw [if_pos hpos]
      show (if n / 8 ≤ b.length - 1 then some (b.length - 1 - n / 8) else none) = _
      by_cases hlast : n / 8 ≤ b.length - 1
      · rw [if_pos hlast, if_pos (by omega)]
      · rw [if_neg hlast, if_neg (by omega)]
    · rw [if_neg hpos, if_neg (by omega)]
      rfl

/-- There are bits from zero up to the width. -/
theorem read?_eq (b : Bytes) (j : Int) :
    read? b j = if 0 ≤ j ∧ j < width b then some (bit b j.toNat) else none := by
  rw [read?, bytePosition?_eq]
  split
  · rename_i hj
    have hnat : j.toNat < width b := by omega
    rw [Option.map_some, and_mask, testBit_getD hnat]
  · rfl

/-! ### Counting bits -/

theorem count_cons (x : UInt8) (b : Bytes) : count (x :: b) = countByte x + count b := by
  have hstart : ∀ (n : Nat), b.foldl (fun n x => n + countByte x) n = n + count b := by
    intro n
    unfold count
    induction b generalizing n with
    | nil => rfl
    | cons y b ih =>
      rw [List.foldl_cons, List.foldl_cons, ih, ih (0 + countByte y), Nat.zero_add, Nat.add_assoc]
  unfold count
  rw [List.foldl_cons, hstart, Nat.zero_add]
  rfl

/-- The count of the bytes is the number of set bits. -/
theorem count_eq (b : Bytes) : count b = (List.range (width b)).countP (bit b) := by
  induction b with
  | nil => rfl
  | cons x b ih =>
    have hlow : (List.range (width b)).countP (bit (x :: b)) =
        (List.range (width b)).countP (bit b) := by
      refine List.countP_congr fun j hj => ?_
      rw [bit_cons, if_pos (List.mem_range.1 hj)]
    have hhigh : (List.range 8).countP (bit (x :: b) ∘ fun i => width b + i) = countByte x := by
      refine List.countP_congr fun i _ => ?_
      rw [Function.comp_apply, bit_cons, if_neg (by omega), Nat.add_sub_cancel_left]
    rw [count_cons, width_cons, List.range_add, List.countP_append, List.countP_map, hlow, hhigh,
      ih, Nat.add_comm]

end PlutusCek.Bits
