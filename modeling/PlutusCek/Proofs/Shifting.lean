import PlutusCek.Proofs.Answering
import PlutusCek.Proofs.BitString

/-!
# Proofs.Shifting — shifts and rotations move bits

A shift by `k` takes bit `j` from bit `j - k`, where there is one, and a rotation from bit `j - k`
modulo the width (`Bits.bit_shift`, `Bits.bit_rotate`).  So rotations add up, those by multiples of
the width change nothing, and all of them keep the number of set bits.
-/

namespace PlutusCek.Bits

variable {b : Bytes} {k : Int} {j : Nat}

/-! ### Numbers written in a fixed width -/

/-- Padding with zeros or cutting leaves the low digits. -/
theorem toFixedBE_eq (n k : Nat) : toFixedBE n k = Bytes.digitsBE k n := by
  -- the digits, lowest first, stand for the number, also where it is zero
  obtain ⟨d, hd, hn⟩ :
      ∃ d : Bytes, (if n = 0 then [0] else Bytes.ofNatBE n) = d.reverse ∧ d.toNatLE = n := by
    by_cases hzero : n = 0
    · exact ⟨[0], if_pos hzero, hzero.symm⟩
    · exact ⟨Bytes.ofNatLE n, if_neg hzero, Bytes.toNatLE_ofNatLE n⟩
  rw [toFixedBE, hd, ← hn, Bytes.digitsBE, List.length_reverse, checkedSub]
  by_cases hle : d.length ≤ k
  · rw [if_pos hle, Bytes.digitsLE_of_length_le hle, List.reverse_append, List.reverse_replicate]
  · rw [if_neg hle, Bytes.digitsLE_of_le_length (Nat.le_of_not_le hle), List.reverse_take]

theorem digitsBE_and_allSet (b : Bytes) (n : Nat) :
    Bytes.digitsBE b.length (n &&& allSet b) = Bytes.digitsBE b.length n := by
  refine eq_of_bit ?_ fun j hj => ?_
  · rw [Bytes.length_digitsBE, Bytes.length_digitsBE]
  · have hbit : j < width b := by rwa [width, Bytes.length_digitsBE] at hj
    rw [bit_digitsBE, bit_digitsBE, Nat.testBit_and, allSet, Nat.one_shiftLeft,
      Nat.testBit_two_pow_sub_one, decide_eq_true hbit, Bool.and_true]

/-! ### Shifts -/

/-- What is moved beyond the first byte is cut off. -/
theorem shift_eq (b : Bytes) (k : Int) :
    shift b k = if width b ≤ k.natAbs then List.replicate b.length 0
      else if k < 0 then Bytes.digitsBE b.length (b.toNatBE >>> k.natAbs)
      else Bytes.digitsBE b.length (b.toNatBE <<< k.natAbs) := by
  rw [shift, toFixedBE_eq]
  by_cases hdown : k < 0
  · rw [if_pos hdown, if_pos hdown]
  · rw [if_neg hdown, if_neg hdown, digitsBE_and_allSet]

theorem length_shift (b : Bytes) (k : Int) : (shift b k).length = b.length := by
  rw [shift_eq]
  split
  · exact List.length_replicate
  · split
    · exact Bytes.length_digitsBE _ _
    · exact Bytes.length_digitsBE _ _

/-- A shift takes each bit from the one `k` places below. -/
theorem bit_shift (b : Bytes) (k : Int) (hj : j < width b) :
    bit (shift b k) j =
      if 0 ≤ (j : Int) - k ∧ (j : Int) - k < width b then bit b ((j : Int) - k).toNat
      else false := by
  have hwidth : j < 8 * b.length := hj
  rw [shift_eq]
  by_cases hfar : width b ≤ k.natAbs
  · have hnone : ¬ (0 ≤ (j : Int) - k ∧ (j : Int) - k < width b) := by omega
    rw [if_pos hfar, if_neg hnone, bit_replicate_zero]
  rw [if_neg hfar]
  by_cases hdown : k < 0
  · -- downwards: the bit comes from above, or from beyond the first byte
    have hsource : ((j : Int) - k).toNat = k.natAbs + j := by omega
    rw [if_pos hdown, bit_digitsBE, decide_eq_true hwidth, Bool.true_and, Nat.testBit_shiftRight,
      hsource]
    show bit b (k.natAbs + j) = _
    split
    · rfl
    · exact bit_of_le (by omega)
  · rw [if_neg hdown, bit_digitsBE, decide_eq_true hwidth, Bool.true_and, Nat.testBit_shiftLeft]
    by_cases hfrom : k.natAbs ≤ j
    · have hsome : 0 ≤ (j : Int) - k ∧ (j : Int) - k < width b := by omega
      have hsource : ((j : Int) - k).toNat = j - k.natAbs := by omega
      rw [if_pos hsome, hsource, decide_eq_true hfrom, Bool.true_and]
      rfl
    · have hnone : ¬ (0 ≤ (j : Int) - k ∧ (j : Int) - k < width b) := by omega
      rw [if_neg hnone, decide_eq_false hfrom, Bool.false_and]

/-! ### Rotations -/

/-- By how many places the bits move up. -/
def turn (b : Bytes) (k : Int) : Nat := (k % (width b : Int)).toNat

theorem turn_lt (hpos : 0 < width b) : turn b k < width b := by
  have hlt := Int.emod_lt_of_pos k (Int.natCast_pos.2 hpos)
  unfold turn
  omega

theorem rotate_eq (b : Bytes) (k : Int) :
    rotate b k = if turn b k = 0 then b
      else Bytes.digitsBE b.length
        ((b.toNatBE <<< turn b k) ||| (b.toNatBE >>> (width b - turn b k))) := by
  cases b with
  | nil =>
    split
    · rfl
    · rfl
  | cons x b =>
    have hwidth : width (x :: b) ≠ 0 := by
      rw [width_cons]
      exact Nat.succ_ne_zero _
    rw [rotate, if_neg hwidth]
    dsimp only
    rw [toFixedBE_eq, digitsBE_and_allSet]
    rfl

theorem length_rotate (b : Bytes) (k : Int) : (rotate b k).length = b.length := by
  rw [rotate_eq]
  split
  · rfl
  · exact Bytes.length_digitsBE _ _

/-- Where a rotation takes a bit from: below, or around the end. -/
theorem sub_emod_width (hj : j < width b) (k : Int) :
    (((j : Int) - k) % (width b : Int)).toNat =
      if turn b k ≤ j then j - turn b k else j + width b - turn b k := by
  have hpos : 0 < width b := by omega
  have hlt := turn_lt (k := k) hpos
  have hturn : k % (width b : Int) = turn b k := by
    have hnonneg := Int.emod_nonneg k (Int.natCast_ne_zero.2 (Nat.ne_of_gt hpos))
    unfold turn
    omega
  rw [← Int.sub_emod_emod, hturn]
  by_cases hbelow : turn b k ≤ j
  · have hmod : ((j : Int) - turn b k) % (width b : Int) = (j : Int) - turn b k :=
      Int.emod_eq_of_lt (by omega) (by omega)
    rw [if_pos hbelow, hmod]
    omega
  · have hmod : ((j : Int) - turn b k) % (width b : Int) = (j : Int) - turn b k + width b := by
      rw [← Int.add_emod_right]
      exact Int.emod_eq_of_lt (by omega) (by omega)
    rw [if_neg hbelow, hmod]
    omega

/-- A rotation takes each bit from the one `k` places below, around the ends. -/
theorem bit_rotate (b : Bytes) (k : Int) (hj : j < width b) :
    bit (rotate b k) j = bit b (((j : Int) - k) % (width b : Int)).toNat := by
  have hwidth : j < 8 * b.length := hj
  rw [sub_emod_width hj, rotate_eq]
  by_cases hzero : turn b k = 0
  · rw [if_pos hzero, hzero, if_pos (Nat.zero_le j), Nat.sub_zero]
  have hlt := turn_lt (k := k) (Nat.lt_of_le_of_lt (Nat.zero_le j) hj)
  rw [if_neg hzero, bit_digitsBE, decide_eq_true hwidth, Bool.true_and, Nat.testBit_or,
    Nat.testBit_shiftLeft, Nat.testBit_shiftRight]
  show (decide (turn b k ≤ j) && bit b (j - turn b k) || bit b (width b - turn b k + j)) = _
  by_cases hbelow : turn b k ≤ j
  · -- the part that was moved down lies beyond the first byte
    have hnone : bit b (width b - turn b k + j) = false := bit_of_le (by omega)
    rw [if_pos hbelow, decide_eq_true hbelow, Bool.true_and, hnone, Bool.or_false]
  · have hsource : width b - turn b k + j = j + width b - turn b k := by omega
    rw [if_neg hbelow, decide_eq_false hbelow, Bool.false_and, Bool.false_or, hsource]

theorem width_rotate (b : Bytes) (k : Int) : width (rotate b k) = width b :=
  width_congr (length_rotate b k)

theorem rotate_rotate (b : Bytes) (k m : Int) : rotate (rotate b k) m = rotate b (k + m) := by
  have hlength : (rotate (rotate b k) m).length = (rotate b (k + m)).length := by
    rw [length_rotate, length_rotate, length_rotate]
  refine eq_of_bit hlength fun j hj => ?_
  rw [width_rotate] at hj
  have hpos : (0 : Int) < width b := by omega
  have hnonneg := Int.emod_nonneg ((j : Int) - m) (Int.ne_of_gt hpos)
  have hlt := Int.emod_lt_of_pos ((j : Int) - m) hpos
  have hsource : (((j : Int) - m) % (width b : Int)).toNat < width b := by omega
  calc bit (rotate (rotate b k) m) j
      = bit (rotate b k) (((j : Int) - m) % (width b : Int)).toNat := by
        rw [bit_rotate _ _ (by rwa [width_rotate]), width_rotate]
    _ = bit b ((((j : Int) - m) % (width b : Int) - k) % (width b : Int)).toNat := by
        rw [bit_rotate b k hsource, Int.toNat_of_nonneg hnonneg]
    _ = bit b (((j : Int) - (k + m)) % (width b : Int)).toNat := by
        rw [Int.emod_sub_emod, Int.sub_sub, Int.add_comm m k]
    _ = bit (rotate b (k + m)) j := (bit_rotate b (k + m) hj).symm

theorem rotate_width_mul (b : Bytes) (i : Int) : rotate b (width b * i) = b := by
  have hturn : turn b (width b * i) = 0 := by
    rw [turn, Int.mul_emod_right]
    rfl
  rw [rotate_eq, if_pos hturn]

/-- The bits that move up and those that go around the end are all of the bits. -/
theorem count_rotate (b : Bytes) (k : Int) : count (rotate b k) = count b := by
  by_cases hpos : 0 < width b
  · have hlt := turn_lt (k := k) hpos
    have hhigh : (List.range (width b - turn b k)).countP
        (bit (rotate b k) ∘ fun i => turn b k + i) =
          (List.range (width b - turn b k)).countP (bit b) := by
      refine List.countP_congr fun i hi => ?_
      have hi' := List.mem_range.1 hi
      rw [Function.comp_apply, bit_rotate b k (by omega), sub_emod_width (by omega),
        if_pos (Nat.le_add_right _ _), Nat.add_sub_cancel_left]
    have hlow : (List.range (turn b k)).countP (bit (rotate b k)) =
        (List.range (turn b k)).countP (bit b ∘ fun i => width b - turn b k + i) := by
      refine List.countP_congr fun i hi => ?_
      have hi' := List.mem_range.1 hi
      have hsource : i + width b - turn b k = width b - turn b k + i := by omega
      rw [Function.comp_apply, bit_rotate b k (by omega), sub_emod_width (by omega),
        if_neg (Nat.not_le.2 hi'), hsource]
    have hsplit : turn b k + (width b - turn b k) = width b := by omega
    have hsplit' : width b - turn b k + turn b k = width b := by omega
    calc count (rotate b k)
        = (List.range (turn b k + (width b - turn b k))).countP (bit (rotate b k)) := by
          rw [count_eq, width_rotate, hsplit]
      _ = (List.range (turn b k)).countP (bit b ∘ fun i => width b - turn b k + i) +
            (List.range (width b - turn b k)).countP (bit b) := by
          rw [List.range_add, List.countP_append, List.countP_map, hlow, hhigh]
      _ = (List.range (width b - turn b k + turn b k)).countP (bit b) := by
          rw [List.range_add, List.countP_append, List.countP_map, Nat.add_comm]
      _ = count b := by rw [hsplit', count_eq]
  · have hwidth : width b = 0 := by omega
    rw [count_eq, count_eq, width_rotate, hwidth]
    rfl

/-! ### The builtins -/

theorem answers_shift (b : Bytes) (k : Int) :
    Builtin.shiftByteString.Answers [.bytes b, .integer k] (.bytes (shift b k)) :=
  fun _ => ⟨_, rfl, rfl⟩

theorem answers_rotate (b : Bytes) (k : Int) :
    Builtin.rotateByteString.Answers [.bytes b, .integer k] (.bytes (rotate b k)) :=
  fun _ => ⟨_, rfl, rfl⟩

theorem answers_count (b : Bytes) : Builtin.countSetBits.Answers [.bytes b] (.integer (count b)) :=
  fun _ => ⟨_, rfl, rfl⟩

/-- The builtin reads bit `j` as `v`. -/
def Reads (b : Bytes) (j : Int) (v : Bool) : Prop :=
  Builtin.readBit.Answers [.bytes b, .integer j] (.bool v)

theorem reads_iff (b : Bytes) (j : Int) (v : Bool) : Reads b j v ↔ read? b j = some v := by
  rw [Reads, Builtin.answers_guarded fun _ => rfl]
  cases read? b j with
  | none => simp
  | some bit => simp

theorem reads_of_lt {j : Int} (hlower : 0 ≤ j) (hupper : j < width b) :
    Reads b j (bit b j.toNat) := by
  rw [reads_iff, read?_eq, if_pos ⟨hlower, hupper⟩]

/-- **Shifts and rotations move bits**, as the builtin that reads bits numbers them, by any amount
of either sign.  Both keep the length.  Bit `j` after a shift by `k` is bit `j - k` if there is one
and zero otherwise; after a rotation it is bit `j - k` modulo the number of bits.  So rotating twice
is rotating by the sum, rotating by a multiple of the number of bits changes nothing, and rotating
keeps the number of set bits. -/
theorem shift_rotate_bits (b : Bytes) (k : Int) :
    (Builtin.shiftByteString.Answers [.bytes b, .integer k] (.bytes (shift b k)) ∧
      Builtin.rotateByteString.Answers [.bytes b, .integer k] (.bytes (rotate b k)) ∧
      Builtin.countSetBits.Answers [.bytes b] (.integer (count b))) ∧
    (shift b k).length = b.length ∧ (rotate b k).length = b.length ∧
    (∀ j : Int, 0 ≤ j → j < 8 * b.length →
      (0 ≤ j - k ∧ j - k < 8 * b.length → ∃ v, Reads (shift b k) j v ∧ Reads b (j - k) v) ∧
      (¬ (0 ≤ j - k ∧ j - k < 8 * b.length) → Reads (shift b k) j false) ∧
      ∃ v, Reads (rotate b k) j v ∧ Reads b ((j - k) % (8 * b.length)) v) ∧
    (∀ m, rotate (rotate b k) m = rotate b (k + m)) ∧
    (∀ i, rotate b (8 * b.length * i) = b) ∧
    count (rotate b k) = count b := by
  have hbits : (8 * b.length : Int) = width b := by
    rw [width]
    rfl
  refine ⟨⟨answers_shift b k, answers_rotate b k, answers_count b⟩, length_shift b k,
    length_rotate b k, ?_, rotate_rotate b k, ?_, count_rotate b k⟩
  · rw [hbits]
    intro j hlower hupper
    have hj : j.toNat < width b := by omega
    have hcast : (j.toNat : Int) = j := Int.toNat_of_nonneg hlower
    have hshift : Reads (shift b k) j (bit (shift b k) j.toNat) :=
      reads_of_lt hlower (by rwa [width_congr (length_shift b k)])
    have hrotate : Reads (rotate b k) j (bit (rotate b k) j.toNat) :=
      reads_of_lt hlower (by rwa [width_rotate])
    rw [bit_shift b k hj, hcast] at hshift
    rw [bit_rotate b k hj, hcast] at hrotate
    have hpos : (0 : Int) < width b := by omega
    refine ⟨fun hsource => ?_, fun hnone => ?_, _, hrotate, ?_⟩
    · rw [if_pos hsource] at hshift
      exact ⟨_, hshift, reads_of_lt hsource.1 hsource.2⟩
    · rwa [if_neg hnone] at hshift
    · exact reads_of_lt (Int.emod_nonneg _ (Int.ne_of_gt hpos)) (Int.emod_lt_of_pos _ hpos)
  · rw [hbits]
    exact rotate_width_mul b

/-- The lowest bit moved to the top, by a rotation down over more than the width. -/
theorem shift_rotate_bits_around :
    ((0 : Int) ≤ 15 ∧ (15 : Int) < 8 * ([0x00, 0x01] : Bytes).length) ∧
      (∃ v, Reads (rotate [0x00, 0x01] (-17)) 15 v ∧ Reads [0x00, 0x01] 0 v) ∧
      Reads (shift [0x00, 0x01] (-17)) 15 false := by
  obtain ⟨-, -, -, hbits, -⟩ := shift_rotate_bits [0x00, 0x01] (-17)
  obtain ⟨-, hshift, hrotate⟩ := hbits 15 (by decide) (by decide)
  exact ⟨by decide, hrotate, hshift (by decide)⟩

end PlutusCek.Bits
