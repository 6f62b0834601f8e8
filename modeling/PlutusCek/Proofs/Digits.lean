import Mathlib.Algebra.Group.Nat.Defs
import PlutusCek.Bytes

/-!
# Proofs.Digits — byte strings as numbers and as pieces

The base-256 digits of a number read back as the number, in either byte order, as long as there are
enough of them, and a byte string is the digits of the number it stands for; the pieces a byte
string is cut into make it up again.
-/

namespace PlutusCek.Bytes

/-! ### Digits -/

theorem toNat_digit (n : Nat) : (UInt8.ofNat (n % 256)).toNat = n % 256 := by
  have hlt : n % 256 < 256 := Nat.mod_lt n (by decide)
  rw [UInt8.toNat_ofNat']
  exact Nat.mod_eq_of_lt hlt

theorem toNatLE_cons (x : UInt8) (b : Bytes) : toNatLE (x :: b) = x.toNat + 256 * toNatLE b := rfl

/-- The low digits of a number make up its remainder. -/
theorem toNatLE_digitsLE (k n : Nat) : toNatLE (digitsLE k n) = n % 256 ^ k := by
  induction k generalizing n with
  | zero =>
    rw [Nat.pow_zero, Nat.mod_one]
    rfl
  | succ k ih =>
    rw [digitsLE, toNatLE_cons, toNat_digit, ih, Nat.pow_succ', Nat.mod_mul]

theorem toNatBE_digitsBE_mod (k n : Nat) : toNatBE (digitsBE k n) = n % 256 ^ k := by
  rw [toNatBE_eq_toNatLE_reverse, digitsBE, List.reverse_reverse, toNatLE_digitsLE]

theorem toNatBE_digitsBE {k n : Nat} (h : n < 256 ^ k) : toNatBE (digitsBE k n) = n := by
  rw [toNatBE_digitsBE_mod]
  exact Nat.mod_eq_of_lt h

theorem toNatLE_append (a b : Bytes) :
    toNatLE (a ++ b) = toNatLE a + 256 ^ a.length * toNatLE b := by
  induction a with
  | nil =>
    show toNatLE b = 0 + 1 * toNatLE b
    omega
  | cons x a ih =>
    rw [List.cons_append, toNatLE_cons, toNatLE_cons, ih, List.length_cons, Nat.pow_succ',
      Nat.mul_add, Nat.mul_assoc, Nat.add_assoc]

/-- The first byte has the highest weight. -/
theorem toNatBE_cons (x : UInt8) (b : Bytes) :
    toNatBE (x :: b) = 256 ^ b.length * x.toNat + toNatBE b := by
  have hlast : toNatLE [x] = x.toNat := rfl
  rw [toNatBE_eq_toNatLE_reverse, toNatBE_eq_toNatLE_reverse, List.reverse_cons, toNatLE_append,
    List.length_reverse, hlast, Nat.add_comm]

theorem toNatLE_lt (b : Bytes) : toNatLE b < 256 ^ b.length := by
  induction b with
  | nil => exact Nat.one_pos
  | cons x b ih =>
    have hx := x.toNat_lt
    rw [toNatLE_cons, List.length_cons, Nat.pow_succ']
    omega

theorem toNatBE_lt (b : Bytes) : toNatBE b < 256 ^ b.length := by
  have h := toNatLE_lt b.reverse
  rwa [List.length_reverse, ← toNatBE_eq_toNatLE_reverse] at h

/-- As many digits as a byte string has bytes are its bytes. -/
theorem digitsLE_toNatLE (b : Bytes) : digitsLE b.length (toNatLE b) = b := by
  induction b with
  | nil => rfl
  | cons x b ih =>
    have hx := x.toNat_lt
    have hmod : (x.toNat + 256 * toNatLE b) % 256 = x.toNat := by omega
    have hdiv : (x.toNat + 256 * toNatLE b) / 256 = toNatLE b := by omega
    rw [List.length_cons, digitsLE, toNatLE_cons, hmod, hdiv, ih, UInt8.ofNat_toNat]

theorem digitsBE_toNatBE (b : Bytes) : digitsBE b.length (toNatBE b) = b := by
  have h := digitsLE_toNatLE b.reverse
  rw [List.length_reverse, ← toNatBE_eq_toNatLE_reverse] at h
  rw [digitsBE, h, List.reverse_reverse]

theorem eq_of_toNatLE {a b : Bytes} (hlength : a.length = b.length)
    (h : a.toNatLE = b.toNatLE) : a = b := by
  rw [← digitsLE_toNatLE a, ← digitsLE_toNatLE b, hlength, h]

theorem toNatLE_replicate_zero (k : Nat) : toNatLE (List.replicate k 0) = 0 := by
  induction k with
  | zero => rfl
  | succ k ih => rw [List.replicate_succ, toNatLE_cons, ih, UInt8.toNat_zero]

theorem toNatLE_append_zeros (b : Bytes) (k : Nat) :
    toNatLE (b ++ List.replicate k 0) = toNatLE b := by
  rw [toNatLE_append, toNatLE_replicate_zero, Nat.mul_zero, Nat.add_zero]

/-- More digits than a byte string has bytes are its bytes and zeros. -/
theorem digitsLE_of_length_le {b : Bytes} {k : Nat} (h : b.length ≤ k) :
    digitsLE k (toNatLE b) = b ++ List.replicate (k - b.length) 0 := by
  refine eq_of_toNatLE ?_ ?_
  · rw [length_digitsLE, List.length_append, List.length_replicate]
    omega
  · have hlt : toNatLE b < 256 ^ k :=
      Nat.lt_of_lt_of_le (toNatLE_lt b) (Nat.pow_le_pow_right (by decide) h)
    rw [toNatLE_digitsLE, toNatLE_append_zeros, Nat.mod_eq_of_lt hlt]

/-- Fewer digits are the lowest bytes. -/
theorem digitsLE_of_le_length {b : Bytes} {k : Nat} (h : k ≤ b.length) :
    digitsLE k (toNatLE b) = b.take k := by
  have hlength : (b.take k).length = k := List.length_take_of_le h
  have hsplit : toNatLE b = toNatLE (b.take k) + 256 ^ k * toNatLE (b.drop k) := by
    have happend := toNatLE_append (b.take k) (b.drop k)
    rwa [List.take_append_drop, hlength] at happend
  have hlt : toNatLE (b.take k) < 256 ^ k := by
    have hlt := toNatLE_lt (b.take k)
    rwa [hlength] at hlt
  refine eq_of_toNatLE ?_ ?_
  · rw [length_digitsLE, hlength]
  · rw [toNatLE_digitsLE, hsplit, Nat.add_mul_mod_self_left, Nat.mod_eq_of_lt hlt]

/-- All digits of a number make up the number. -/
theorem toNatLE_ofNatLE (n : Nat) : toNatLE (ofNatLE n) = n := by
  induction n using Nat.strongRecOn with
  | ind n ih =>
    rw [ofNatLE]
    by_cases hn : n = 0
    · rw [if_pos hn, hn]
      rfl
    · have hless : n / 256 < n := Nat.div_lt_self (Nat.pos_of_ne_zero hn) (by decide)
      rw [if_neg hn, toNatLE_cons, toNat_digit, ih _ hless]
      exact Nat.mod_add_div n 256

theorem toNatBE_ofNatBE (n : Nat) : toNatBE (ofNatBE n) = n := by
  rw [toNatBE_eq_toNatLE_reverse, ofNatBE, List.reverse_reverse, toNatLE_ofNatLE]

/-! ### Pieces -/

/-- The pieces of a byte string, put together, are the byte string. -/
theorem flatten_chunks {k : Nat} (hk : 0 < k) (b : Bytes) : (chunks k b).flatten = b := by
  fun_induction chunks k b with
  | case1 b h =>
    rcases h with rfl | rfl
    · rfl
    · exact absurd hk (Nat.lt_irrefl 0)
  | case2 b h ih => rw [List.flatten_cons, ih, List.take_append_drop]

theorem length_le_of_mem_chunks {k : Nat} {b c : Bytes} (h : c ∈ chunks k b) : c.length ≤ k := by
  fun_induction chunks k b with
  | case1 b _ => cases h
  | case2 b _ ih =>
    rcases List.mem_cons.1 h with rfl | h
    · exact List.length_take_le k b
    · exact ih h

end PlutusCek.Bytes
