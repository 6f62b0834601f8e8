import Mathlib.Data.Int.Cast.Lemmas
import Mathlib.Order.Bounds.Defs
import PlutusCek.Proofs.Answering
import PlutusCek.Proofs.Digits

/-!
# Proofs.Conversion — integers as byte strings and back

A number has at most `k` base-256 digits exactly if it is below `256 ^ k`
(`Bytes.length_ofNatLE_le_iff`), and zeros after the last digit change nothing.  So the conversion
of an integer to bytes, of a given width or of the least one, succeeds exactly if the integer fits,
and reading the bytes in the same order gives it back (`integer_bytes_inverse`).
-/

namespace PlutusCek

namespace Bytes

/-! ### How many digits there are -/

theorem length_ofNatLE_le_iff (n k : Nat) : (ofNatLE n).length ≤ k ↔ n < 256 ^ k := by
  induction k generalizing n with
  | zero =>
    rw [ofNatLE]
    by_cases hn : n = 0
    · simp [hn]
    · simp [hn]
  | succ k ih =>
    rw [ofNatLE]
    by_cases hn : n = 0
    · have hpos : 0 < 256 ^ (k + 1) := Nat.pow_pos (by decide)
      simp [hn, hpos]
    · have hstep : n / 256 < 256 ^ k ↔ n < 256 ^ (k + 1) := by
        rw [Nat.div_lt_iff_lt_mul (by decide), Nat.pow_succ]
      rw [if_neg hn, List.length_cons, Nat.add_le_add_iff_right, ih, hstep]

/-! ### Byte orders -/

/-- The bytes given in one of the orders, least significant first; and back. -/
def reorder (bigEndian : Bool) (b : Bytes) : Bytes :=
  if bigEndian then b.reverse else b

theorem length_reorder (bigEndian : Bool) (b : Bytes) :
    (reorder bigEndian b).length = b.length := by
  cases bigEndian with
  | true => exact List.length_reverse
  | false => rfl

theorem reorder_reorder (bigEndian : Bool) (b : Bytes) :
    reorder bigEndian (reorder bigEndian b) = b := by
  cases bigEndian with
  | true => exact List.reverse_reverse b
  | false => rfl

end Bytes

theorem integerOfBytes_eq (bigEndian : Bool) (b : Bytes) :
    integerOfBytes bigEndian b = (Bytes.reorder bigEndian b).toNatLE := by
  cases bigEndian with
  | true => exact congrArg Nat.cast (Bytes.toNatBE_eq_toNatLE_reverse b)
  | false => rfl

theorem eq_of_integerOfBytes {bigEndian : Bool} {a b : Bytes} (hlength : a.length = b.length)
    (h : integerOfBytes bigEndian a = integerOfBytes bigEndian b) : a = b := by
  rw [integerOfBytes_eq, integerOfBytes_eq] at h
  have hreordered : Bytes.reorder bigEndian a = Bytes.reorder bigEndian b := by
    refine Bytes.eq_of_toNatLE ?_ (Int.natCast_inj.1 h)
    rw [Bytes.length_reorder, Bytes.length_reorder, hlength]
  rw [← Bytes.reorder_reorder bigEndian a, hreordered, Bytes.reorder_reorder]

/-! ### Conversion to bytes -/

/-- The integer can be written in so many bytes, or in any number of them up to 8192 if the width is
zero. -/
def Fits (width n : Int) : Prop :=
  0 ≤ width ∧ width ≤ 8192 ∧ 0 ≤ n ∧ n < 256 ^ (if width = 0 then 8192 else width.toNat)

theorem lt_pow_iff {n : Int} (hn : 0 ≤ n) (k : Nat) :
    n < 256 ^ k ↔ (Bytes.ofNatLE n.toNat).length ≤ k := by
  obtain ⟨m, rfl⟩ := Int.eq_ofNat_of_zero_le hn
  rw [Bytes.length_ofNatLE_le_iff, Int.toNat_natCast]
  norm_cast

/-- An integer fits if none of the checks of the conversion fails. -/
theorem fits_iff (width n : Int) :
    Fits width n ↔ ¬ (width < 0 ∨ (maxConversionBytes : Int) < width) ∧ ¬ n < 0 ∧
      ¬ (if width.toNat = 0 then maxConversionBytes else width.toNat) <
        (Bytes.ofNatLE n.toNat).length := by
  have hmax : (maxConversionBytes : Int) = 8192 := rfl
  rw [Fits, hmax]
  constructor
  · rintro ⟨hlower, hupper, hn, hlt⟩
    have hzero : width = 0 ↔ width.toNat = 0 := by omega
    rw [lt_pow_iff hn] at hlt
    simp only [hzero] at hlt
    exact ⟨by omega, Int.not_lt.2 hn, Nat.not_lt.2 hlt⟩
  · rintro ⟨hwidth, hn, hlimit⟩
    have hzero : width = 0 ↔ width.toNat = 0 := by omega
    rw [lt_pow_iff (Int.not_lt.1 hn)]
    simp only [hzero]
    exact ⟨by omega, by omega, Int.not_lt.1 hn, Nat.not_lt.1 hlimit⟩

/-- The digits of an integer, made up to the width with zeros. -/
def padded (width n : Int) : Bytes :=
  Bytes.ofNatLE n.toNat ++ List.replicate (width.toNat - (Bytes.ofNatLE n.toNat).length) 0

theorem toNatLE_padded (width n : Int) : (padded width n).toNatLE = n.toNat := by
  rw [padded, Bytes.toNatLE_append_zeros, Bytes.toNatLE_ofNatLE]

theorem length_padded (width n : Int) :
    (padded width n).length = max width.toNat (Bytes.ofNatLE n.toNat).length := by
  rw [padded, List.length_append, List.length_replicate]
  omega

theorem bytesOfInteger_of_fits {width n : Int} (h : Fits width n) (bigEndian : Bool) :
    bytesOfInteger bigEndian width n = .ok (Bytes.reorder bigEndian (padded width n)) := by
  obtain ⟨hwidth, hn, hlimit⟩ := (fits_iff width n).1 h
  rw [bytesOfInteger, if_neg hwidth, if_neg hn, if_neg hlimit]
  rfl

theorem bytesOfInteger_of_not_fits {width n : Int} (h : ¬ Fits width n) (bigEndian : Bool) :
    ∃ why, bytesOfInteger bigEndian width n = .error why := by
  rw [bytesOfInteger]
  by_cases hwidth : width < 0 ∨ (maxConversionBytes : Int) < width
  · exact ⟨_, if_pos hwidth⟩
  by_cases hn : n < 0
  · exact ⟨_, (if_neg hwidth).trans (if_pos hn)⟩
  by_cases hlimit : (if width.toNat = 0 then maxConversionBytes else width.toNat) <
      (Bytes.ofNatLE n.toNat).length
  · exact ⟨_, (if_neg hwidth).trans ((if_neg hn).trans (if_pos hlimit))⟩
  · exact absurd ((fits_iff width n).2 ⟨hwidth, hn, hlimit⟩) h

/-! ### The builtins -/

/-- The builtin writes the integer as the bytes. -/
def Encodes (bigEndian : Bool) (width n : Int) (b : Bytes) : Prop :=
  Builtin.integerToByteString.Answers [.bool bigEndian, .integer width, .integer n] (.bytes b)

/-- The builtin reads the bytes as the integer. -/
def Decodes (bigEndian : Bool) (b : Bytes) (n : Int) : Prop :=
  Builtin.byteStringToInteger.Answers [.bool bigEndian, .bytes b] (.integer n)

theorem answers_bytesOfInteger (bigEndian : Bool) (width n : Int) (b : Bytes) :
    Encodes bigEndian width n b ↔ bytesOfInteger bigEndian width n = .ok b := by
  rw [Encodes, Builtin.answers_guarded fun _ => rfl]
  cases bytesOfInteger bigEndian width n with
  | error why => simp [Except.map]
  | ok b' => simp [Except.map]

theorem encodes_iff (bigEndian : Bool) (width n : Int) (b : Bytes) :
    Encodes bigEndian width n b ↔
      Fits width n ∧ Bytes.reorder bigEndian (padded width n) = b := by
  rw [answers_bytesOfInteger]
  by_cases h : Fits width n
  · simp [bytesOfInteger_of_fits h, h]
  · obtain ⟨why, hwhy⟩ := bytesOfInteger_of_not_fits h bigEndian
    simp [hwhy, h]

theorem refuses_of_not_fits {width n : Int} (h : ¬ Fits width n) (bigEndian : Bool) :
    ∃ why, Builtin.integerToByteString.Refuses
      [.bool bigEndian, .integer width, .integer n] why := by
  obtain ⟨why, hwhy⟩ := bytesOfInteger_of_not_fits h bigEndian
  refine ⟨why, (Builtin.refuses_guarded fun _ => rfl).2 ?_⟩
  simp only [hwhy, Except.map]

theorem decodes_integerOfBytes (bigEndian : Bool) (b : Bytes) :
    Decodes bigEndian b (integerOfBytes bigEndian b) :=
  fun _ => ⟨_, rfl, rfl⟩

theorem decodes_iff (bigEndian : Bool) (b : Bytes) (n : Int) :
    Decodes bigEndian b n ↔ integerOfBytes bigEndian b = n := by
  constructor
  · intro h
    exact Constant.integer.inj ((decodes_integerOfBytes bigEndian b).unique h)
  · rintro rfl
    exact decodes_integerOfBytes bigEndian b

section Encodes

variable {bigEndian : Bool} {width n : Int} {b : Bytes} (h : Encodes bigEndian width n b)
include h

theorem Encodes.decodes : Decodes bigEndian b n := by
  obtain ⟨hfits, rfl⟩ := (encodes_iff bigEndian width n b).1 h
  rw [decodes_iff, integerOfBytes_eq, Bytes.reorder_reorder, toNatLE_padded]
  exact Int.toNat_of_nonneg hfits.2.2.1

theorem Encodes.length_eq :
    b.length = max width.toNat (Bytes.ofNatLE n.toNat).length := by
  obtain ⟨-, rfl⟩ := (encodes_iff bigEndian width n b).1 h
  rw [Bytes.length_reorder, length_padded]

theorem Encodes.length_eq_width (hwidth : 0 < width) : (b.length : Int) = width := by
  obtain ⟨hfits, -⟩ := (encodes_iff bigEndian width n b).1 h
  obtain ⟨-, -, hn, hlt⟩ := hfits
  rw [if_neg (Int.ne_of_gt hwidth), lt_pow_iff hn] at hlt
  rw [h.length_eq]
  omega

theorem Encodes.isLeast_length (hwidth : width = 0) :
    IsLeast {k : Nat | n < 256 ^ k} b.length := by
  obtain ⟨hfits, -⟩ := (encodes_iff bigEndian width n b).1 h
  have hlength : b.length = (Bytes.ofNatLE n.toNat).length := by
    rw [h.length_eq, hwidth]
    omega
  have hset : ∀ k : Nat, n < 256 ^ k ↔ b.length ≤ k := by
    intro k
    rw [lt_pow_iff hfits.2.2.1, hlength]
  exact ⟨(hset _).2 (Nat.le_refl _), fun k hk => (hset k).1 hk⟩

end Encodes

/-- A byte string that is not too long is what its integer is written as in its own length. -/
theorem encodes_integerOfBytes (bigEndian : Bool) {b : Bytes} (h : b.length ≤ 8192) :
    Encodes bigEndian b.length (integerOfBytes bigEndian b) b := by
  have hnat : (integerOfBytes bigEndian b).toNat < 256 ^ b.length := by
    have hlt := Bytes.toNatLE_lt (Bytes.reorder bigEndian b)
    rw [Bytes.length_reorder] at hlt
    rwa [integerOfBytes_eq, Int.toNat_natCast]
  have hdigits := (Bytes.length_ofNatLE_le_iff _ _).2 hnat
  have hn : 0 ≤ integerOfBytes bigEndian b := by
    rw [integerOfBytes_eq]
    exact Int.natCast_nonneg _
  have hfits : Fits b.length (integerOfBytes bigEndian b) := by
    refine ⟨Int.natCast_nonneg _, by omega, hn, ?_⟩
    rw [lt_pow_iff hn]
    split
    · omega
    · exact hdigits
  have hencodes := (encodes_iff bigEndian _ _ _).2 ⟨hfits, rfl⟩
  have hlength : (Bytes.reorder bigEndian
      (padded b.length (integerOfBytes bigEndian b))).length = b.length := by
    rw [hencodes.length_eq]
    omega
  have hsame := eq_of_integerOfBytes hlength ((decodes_iff _ _ _).1 hencodes.decodes)
  rwa [hsame] at hencodes

/-- **Conversion between integers and bytes**, in either byte order.  Writing an integer in a given
width, or in as few bytes as possible if the width is zero, succeeds exactly if the width is in
range and the integer fits, and is refused otherwise.  The result has the width, or the least length
that the integer has, and reads as the integer.  Reading always gives one integer; writing it in the
length of the byte string gives the byte string back, if it is not longer than 8192; and reading
most significant byte first is reading the reversed byte string least significant byte first. -/
theorem integer_bytes_inverse (bigEndian : Bool) :
    (∀ width n, ((∃ b, Encodes bigEndian width n b) ↔ Fits width n) ∧
      (¬ Fits width n → ∃ why, Builtin.integerToByteString.Refuses
        [.bool bigEndian, .integer width, .integer n] why) ∧
      ∀ b, Encodes bigEndian width n b → (0 < width → (b.length : Int) = width) ∧
        (width = 0 → IsLeast {k : Nat | n < 256 ^ k} b.length) ∧ Decodes bigEndian b n) ∧
    (∀ b : Bytes, ∃! n, Decodes bigEndian b n) ∧
    (∀ (b : Bytes) (n : Int), b.length ≤ 8192 → Decodes bigEndian b n →
      Encodes bigEndian b.length n b) ∧
    ∀ (b : Bytes) (n : Int), Decodes true b n ↔ Decodes false b.reverse n := by
  refine ⟨fun width n => ⟨⟨?_, fun h => ?_⟩, fun h => refuses_of_not_fits h bigEndian,
    fun b h => ⟨h.length_eq_width, h.isLeast_length, h.decodes⟩⟩, fun b => ?_, ?_, fun b n => ?_⟩
  · rintro ⟨b, h⟩
    exact ((encodes_iff bigEndian width n b).1 h).1
  · exact ⟨_, (encodes_iff bigEndian width n _).2 ⟨h, rfl⟩⟩
  · refine ⟨_, decodes_integerOfBytes bigEndian b, fun n hn => ?_⟩
    exact ((decodes_iff bigEndian b n).1 hn).symm
  · intro b n hlength hdecodes
    rw [← (decodes_iff bigEndian b n).1 hdecodes]
    exact encodes_integerOfBytes bigEndian hlength
  · rw [decodes_iff, decodes_iff, integerOfBytes_eq, integerOfBytes_eq]
    rfl

/-- Three bytes for 258 have a zero in front; two suffice, and one does not. -/
theorem integer_bytes_inverse_padded :
    (Encodes true 3 258 [0x00, 0x01, 0x02] ∧ Decodes true [0x00, 0x01, 0x02] 258 ∧
      Encodes true ([0x00, 0x01, 0x02] : Bytes).length 258 [0x00, 0x01, 0x02]) ∧
    (Encodes true 0 258 [0x01, 0x02] ∧
      IsLeast {k : Nat | (258 : Int) < 256 ^ k} ([0x01, 0x02] : Bytes).length) ∧
    (¬ Fits 1 258 ∧ ∃ why, Builtin.integerToByteString.Refuses
      [.bool true, .integer 1, .integer 258] why) := by
  have hpadded : Encodes true 3 258 [0x00, 0x01, 0x02] :=
    (answers_bytesOfInteger _ _ _ _).2 (by decide +kernel)
  have hleast : Encodes true 0 258 [0x01, 0x02] :=
    (answers_bytesOfInteger _ _ _ _).2 (by decide +kernel)
  have hnot : ¬ Fits 1 258 := fun h => absurd h.2.2.2 (by decide)
  obtain ⟨hconversion, -, hback, -⟩ := integer_bytes_inverse true
  obtain ⟨-, -, hthree⟩ := hconversion 3 258
  obtain ⟨-, -, hzero⟩ := hconversion 0 258
  have hdecodes := (hthree _ hpadded).2.2
  exact ⟨⟨hpadded, hdecodes, hback _ _ (by decide) hdecodes⟩,
    ⟨hleast, (hzero _ hleast).2.1 rfl⟩, ⟨hnot, (hconversion 1 258).2.1 hnot⟩⟩

end PlutusCek
