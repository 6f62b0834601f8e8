import Mathlib.Data.Finset.Card
import Mathlib.Order.Bounds.Defs
import PlutusCek.Proofs.Shifting

/-!
# Proofs.BitAccess — reading, writing and scanning bits

Writing a list of bits succeeds exactly if there are such bits, and then it changes these and no
others (`Bits.writes_iff_bit`).  The lowest set bit is found from the last byte on
(`Bits.firstFrom_reverse`).  So all builtins that read, write, count or find bits number them in the
same way (`Bits.bits_agree`).
-/

namespace PlutusCek.Bits

variable {b w : Bytes} {j : Int} {v : Bool} {indices : List Int}

/-- There is a bit `j`. -/
def HasBit (b : Bytes) (j : Int) : Prop := 0 ≤ j ∧ j < 8 * b.length

theorem hasBit_iff (b : Bytes) (j : Int) : HasBit b j ↔ 0 ≤ j ∧ j < width b := by
  unfold HasBit width
  omega

theorem hasBit_natCast {i : Nat} (hi : i < width b) : HasBit b i := by
  rw [hasBit_iff]
  omega

theorem hasBit_congr (h : w.length = b.length) : HasBit w j ↔ HasBit b j := by
  rw [HasBit, HasBit, h]

/-! ### Reading -/

theorem reads_iff_bit (b : Bytes) (j : Int) (v : Bool) :
    Reads b j v ↔ HasBit b j ∧ bit b j.toNat = v := by
  rw [reads_iff, read?_eq, hasBit_iff]
  by_cases hj : 0 ≤ j ∧ j < width b
  · simp [hj]
  · simp [hj]

theorem exists_reads_iff (b : Bytes) (j : Int) : (∃ v, Reads b j v) ↔ HasBit b j := by
  constructor
  · rintro ⟨v, h⟩
    exact ((reads_iff_bit b j v).1 h).1
  · intro h
    exact ⟨_, (reads_iff_bit b j _).2 ⟨h, rfl⟩⟩

theorem refuses_read (h : ¬ HasBit b j) :
    Builtin.readBit.Refuses [.bytes b, .integer j] (.bitIndexOutOfRange j) := by
  have hread : read? b j = none := by
    rw [read?_eq, if_neg (mt (hasBit_iff b j).2 h)]
  rw [Builtin.refuses_guarded fun _ => rfl]
  simp only [hread]

/-- A byte string is determined by its length and what is read from it. -/
theorem eq_of_reads {a : Bytes} (hlength : a.length = b.length)
    (h : ∀ j v, Reads a j v ↔ Reads b j v) : a = b := by
  refine eq_of_bit hlength fun i hi => ?_
  have hread : Reads b i (bit b i) := (reads_iff_bit b i _).2 ⟨hasBit_natCast hi, rfl⟩
  exact ((reads_iff_bit a i _).1 ((h i _).2 hread)).2

/-! ### Writing -/

theorem testBit_not (x : UInt8) {i : Nat} (hi : i < 8) :
    (~~~x).toNat.testBit i = !x.toNat.testBit i := by
  show (~~~x).toBitVec.getLsbD i = !x.toBitVec.getLsbD i
  rw [UInt8.toBitVec_not, BitVec.getLsbD_not, decide_eq_true hi, Bool.true_and]

/-- Writing a bit of a byte. -/
theorem testBit_masked (x : UInt8) (j : Int) (v : Bool) {i : Nat} (hi : i < 8) :
    (if v then x ||| mask j else x &&& ~~~mask j).toNat.testBit i =
      if i = j.toNat % 8 then v else x.toNat.testBit i := by
  have hmask : (mask j).toNat.testBit i = decide (j.toNat % 8 = i) := by
    rw [toNat_mask, Nat.testBit_two_pow]
  cases v with
  | true =>
    rw [if_pos rfl, UInt8.toNat_or, Nat.testBit_or, hmask]
    by_cases hbit : i = j.toNat % 8
    · simp [hbit]
    · simp [hbit, Ne.symm hbit]
  | false =>
    rw [if_neg Bool.false_ne_true, UInt8.toNat_and, Nat.testBit_and, testBit_not _ hi, hmask]
    by_cases hbit : i = j.toNat % 8
    · simp [hbit]
    · simp [hbit, Ne.symm hbit]

theorem write?_of_not_hasBit (h : ¬ HasBit b j) (v : Bool) : write? b j v = none := by
  rw [write?, bytePosition?_eq, if_neg (mt (hasBit_iff b j).2 h)]
  rfl

/-- Writing a bit changes this bit only. -/
theorem write?_of_hasBit (h : HasBit b j) (v : Bool) :
    ∃ w, write? b j v = some w ∧ w.length = b.length ∧
      ∀ i, i < width b → bit w i = if (i : Int) = j then v else bit b i := by
  have hj := (hasBit_iff b j).1 h
  refine ⟨_, by rw [write?, bytePosition?_eq, if_pos hj, Option.map_some], List.length_modify _ _ _,
    fun i hi => ?_⟩
  have hposition : b.length - 1 - i / 8 < b.length := by
    unfold width at hi
    omega
  rw [← testBit_getD (by rwa [width_congr (List.length_modify _ _ _)]), ← testBit_getD hi,
    List.length_modify, List.getD_eq_getElem?_getD, List.getD_eq_getElem?_getD,
    List.getElem?_modify, List.getElem?_eq_getElem hposition]
  by_cases hbyte : b.length - 1 - j.toNat / 8 = b.length - 1 - i / 8
  · have hsame : (i : Int) = j ↔ i % 8 = j.toNat % 8 := by
      unfold width at hi hj
      omega
    simp only [Option.map_eq_map, Option.map_some, Option.getD_some, if_pos hbyte]
    rw [testBit_masked _ j v (Nat.mod_lt i (by decide))]
    simp only [hsame]
  · have hother : ¬ (i : Int) = j := by
      rintro rfl
      exact hbyte (by rw [Int.toNat_natCast])
    simp only [Option.map_eq_map, Option.map_some, Option.getD_some, if_neg hbyte, if_neg hother]

variable (fn : Builtin)

/-- Writing listed bits changes these only. -/
theorem writeAll_of_hasBit (h : ∀ j ∈ indices, HasBit b j) (v : Bool) :
    ∃ w, Call.writeAll fn v b (indices.map .integer) = .ok w ∧ w.length = b.length ∧
      ∀ i, i < width b → bit w i = if (i : Int) ∈ indices then v else bit b i := by
  induction indices generalizing b with
  | nil => exact ⟨b, rfl, rfl, fun i _ => (if_neg List.not_mem_nil).symm⟩
  | cons j indices ih =>
    obtain ⟨hj, hrest⟩ := List.forall_mem_cons.1 h
    obtain ⟨b', hwrite, hlength, hbit⟩ := write?_of_hasBit hj v
    obtain ⟨w, hall, hlength', hbit'⟩ := ih fun k hk => (hasBit_congr hlength).2 (hrest k hk)
    refine ⟨w, ?_, hlength'.trans hlength, fun i hi => ?_⟩
    · rw [List.map_cons, Call.writeAll, hwrite]
      exact hall
    · rw [hbit' i (by rwa [width_congr hlength]), hbit i hi]
      by_cases hhead : (i : Int) = j
      · simp [hhead]
      · simp [hhead]

/-- The first index without a bit stops the writing. -/
theorem writeAll_of_not_hasBit (h : ∃ j ∈ indices, ¬ HasBit b j) (v : Bool) :
    ∃ j ∈ indices, ¬ HasBit b j ∧ Call.writeAll fn v b (indices.map .integer) =
      .error (.refused fn (.bitIndexOutOfRange j)) := by
  induction indices generalizing b with
  | nil =>
    obtain ⟨j, hj, -⟩ := h
    cases hj
  | cons k indices ih =>
    by_cases hk : HasBit b k
    · obtain ⟨b', hwrite, hlength, -⟩ := write?_of_hasBit hk v
      have hrest : ∃ j ∈ indices, ¬ HasBit b' j := by
        obtain ⟨j, hj, hbad⟩ := h
        rcases List.mem_cons.1 hj with rfl | hj
        · exact absurd hk hbad
        · exact ⟨j, hj, mt (hasBit_congr hlength).1 hbad⟩
      obtain ⟨j, hj, hbad, herror⟩ := ih hrest
      refine ⟨j, List.mem_cons_of_mem k hj, mt (hasBit_congr hlength).2 hbad, ?_⟩
      rw [List.map_cons, Call.writeAll, hwrite]
      exact herror
    · refine ⟨k, List.mem_cons_self, hk, ?_⟩
      rw [List.map_cons, Call.writeAll, write?_of_not_hasBit hk]

/-- The operands of writing `v` to the listed bits. -/
def writeOperands (b : Bytes) (indices : List Int) (v : Bool) : List Constant :=
  [.bytes b, .list .integer (indices.map .integer), .bool v]

/-- The builtin writes `v` to the listed bits and gives `w`. -/
def Writes (b : Bytes) (indices : List Int) (v : Bool) (w : Bytes) : Prop :=
  Builtin.writeBits.Answers (writeOperands b indices v) (.bytes w)

theorem writes_iff (b : Bytes) (indices : List Int) (v : Bool) (w : Bytes) :
    Writes b indices v w ↔
      Call.writeAll .writeBits v b (indices.map .integer) = .ok w := by
  rw [Writes, writeOperands, Builtin.answers_checked fun _ => rfl]
  cases Call.writeAll .writeBits v b (indices.map .integer) with
  | error f => simp [Except.map]
  | ok w' => simp [Except.map]

/-- What is written is determined by the bits. -/
theorem writes_iff_bit (b : Bytes) (indices : List Int) (v : Bool) (w : Bytes) :
    Writes b indices v w ↔ (∀ j ∈ indices, HasBit b j) ∧ w.length = b.length ∧
      ∀ i, i < width b → bit w i = if (i : Int) ∈ indices then v else bit b i := by
  rw [writes_iff]
  constructor
  · intro hwrites
    have hall : ∀ j ∈ indices, HasBit b j := by
      by_contra hbad
      push Not at hbad
      obtain ⟨j, -, -, herror⟩ := writeAll_of_not_hasBit .writeBits hbad v
      rw [herror] at hwrites
      cases hwrites
    obtain ⟨w', hwrites', hlength, hbit⟩ := writeAll_of_hasBit .writeBits hall v
    rw [hwrites'] at hwrites
    cases hwrites
    exact ⟨hall, hlength, hbit⟩
  · rintro ⟨hall, hlength, hbit⟩
    obtain ⟨w', hwrites, hlength', hbit'⟩ := writeAll_of_hasBit .writeBits hall v
    have heq : w' = w := by
      refine eq_of_bit (hlength'.trans hlength.symm) fun i hi => ?_
      rw [width_congr hlength] at hi
      rw [hbit' i hi, hbit i hi]
    rw [hwrites, heq]

theorem exists_writes_iff (b : Bytes) (indices : List Int) (v : Bool) :
    (∃ w, Writes b indices v w) ↔ ∀ j ∈ indices, HasBit b j := by
  constructor
  · rintro ⟨w, h⟩
    exact ((writes_iff_bit b indices v w).1 h).1
  · intro h
    obtain ⟨w, hwrites, -⟩ := writeAll_of_hasBit .writeBits h v
    exact ⟨w, (writes_iff b indices v w).2 hwrites⟩

theorem refuses_write (h : ∃ j ∈ indices, ¬ HasBit b j) (v : Bool) :
    ∃ j ∈ indices, ¬ HasBit b j ∧
      Builtin.writeBits.Refuses (writeOperands b indices v) (.bitIndexOutOfRange j) := by
  obtain ⟨j, hj, hbad, herror⟩ := writeAll_of_not_hasBit .writeBits h v
  refine ⟨j, hj, hbad, ?_⟩
  rw [writeOperands, Builtin.refuses_checked fun _ => rfl]
  simp only [herror, Except.map]

namespace Writes

variable (h : Writes b indices v w)
include h

theorem length_eq : w.length = b.length := ((writes_iff_bit b indices v w).1 h).2.1

theorem bit_eq (hj : HasBit b j) :
    bit w j.toNat = if j ∈ indices then v else bit b j.toNat := by
  obtain ⟨hlower, hupper⟩ := (hasBit_iff b j).1 hj
  have hbit := ((writes_iff_bit b indices v w).1 h).2.2 j.toNat (by omega)
  rwa [Int.toNat_of_nonneg hlower] at hbit

theorem reads_of_mem (hj : j ∈ indices) : Reads w j v := by
  have hrange := ((writes_iff_bit b indices v w).1 h).1 j hj
  rw [reads_iff_bit, h.bit_eq hrange, if_pos hj]
  exact ⟨(hasBit_congr h.length_eq).2 hrange, rfl⟩

theorem reads_of_not_mem (hj : j ∉ indices) (u : Bool) : Reads w j u ↔ Reads b j u := by
  rw [reads_iff_bit, reads_iff_bit, hasBit_congr h.length_eq]
  refine and_congr_right fun hrange => ?_
  rw [h.bit_eq hrange, if_neg hj]

/-- Writing the same bits again changes nothing. -/
theorem again : Writes w indices v w := by
  obtain ⟨hall, hlength, hbit⟩ := (writes_iff_bit b indices v w).1 h
  refine (writes_iff_bit w indices v w).2
    ⟨fun j hj => (hasBit_congr hlength).2 (hall j hj), rfl, fun i hi => ?_⟩
  rw [width_congr hlength] at hi
  rw [hbit i hi]
  split
  · rfl
  · rfl

/-- Order and repetition of the indices do not matter. -/
theorem of_same_indices {others : List Int} (hset : ∀ j, j ∈ others ↔ j ∈ indices) :
    Writes b others v w := by
  rw [writes_iff_bit] at h ⊢
  simp only [hset]
  exact h

end Writes

/-! ### Counting and finding -/

/-- The set bits are finitely many, and their number is the count. -/
theorem exists_card_eq_count (b : Bytes) :
    ∃ set : Finset Int, (∀ j, j ∈ set ↔ Reads b j true) ∧ set.card = count b := by
  have hnodup : (((List.range (width b)).filter (bit b)).map fun i : Nat => (i : Int)).Nodup :=
    (List.nodup_range.filter _).map fun _ _ h => Int.natCast_inj.1 h
  refine ⟨_, fun j => ?_, (List.toFinset_card_of_nodup hnodup).trans ?_⟩
  · rw [reads_iff_bit, hasBit_iff, List.mem_toFinset, List.mem_map]
    constructor
    · rintro ⟨i, hi, rfl⟩
      obtain ⟨hlt, hbit⟩ := List.mem_filter.1 hi
      have hwidth := List.mem_range.1 hlt
      exact ⟨by omega, hbit⟩
    · rintro ⟨hj, hbit⟩
      refine ⟨j.toNat, List.mem_filter.2 ⟨List.mem_range.2 (by omega), hbit⟩, ?_⟩
      exact Int.toNat_of_nonneg hj.1
  · rw [List.length_map, count_eq, List.countP_eq_length_filter]

/-- The bits of the last byte are the lowest ones. -/
theorem bit_concat (b : Bytes) (x : UInt8) (i : Nat) :
    bit (b ++ [x]) i = if i < 8 then x.toNat.testBit i else bit b (i - 8) := by
  have hnumber : (b ++ [x]).toNatBE = 2 ^ 8 * b.toNatBE + x.toNat := by
    unfold Bytes.toNatBE
    rw [List.foldl_append, List.foldl_cons, List.foldl_nil]
    omega
  rw [bit, hnumber]
  exact Nat.testBit_two_pow_mul_add _ x.toNat_lt i

theorem firstOfByte?_eq_some {x : UInt8} {i : Nat} (h : firstOfByte? x = some i) :
    i < 8 ∧ x.toNat.testBit i = true ∧ ∀ k < i, x.toNat.testBit k = false := by
  obtain ⟨hbit, hi, hbelow⟩ := List.find?_range_eq_some.1 h
  refine ⟨List.mem_range.1 hi, hbit, fun k hk => ?_⟩
  simpa using hbelow k hk

theorem firstOfByte?_eq_none {x : UInt8} (h : firstOfByte? x = none) :
    ∀ k < 8, x.toNat.testBit k = false := by
  intro k hk
  simpa using List.find?_range_eq_none.1 h k hk

/-- Going back from the last byte, the first set bit that is met is the lowest one. -/
theorem firstFrom_reverse (n : Nat) (b : Bytes) :
    (firstFrom n b.reverse = -1 ∧ ∀ i, bit b i = false) ∨
      ∃ i : Nat, firstFrom n b.reverse = n + i ∧ bit b i = true ∧ ∀ k < i, bit b k = false := by
  induction b using List.reverseRecOn generalizing n with
  | nil => exact .inl ⟨rfl, fun i => Nat.zero_testBit i⟩
  | append_singleton b x ih =>
    rw [List.reverse_append, List.reverse_singleton, List.singleton_append, firstFrom]
    cases hbyte : firstOfByte? x with
    | some i =>
      obtain ⟨hlt, hbit, hbelow⟩ := firstOfByte?_eq_some hbyte
      refine .inr ⟨i, by push_cast; rfl, ?_, fun k hk => ?_⟩
      · rw [bit_concat, if_pos hlt, hbit]
      · rw [bit_concat, if_pos (by omega), hbelow k hk]
    | none =>
      -- the last byte is zero, so all set bits are eight places up
      have hlow := firstOfByte?_eq_none hbyte
      rcases ih (n + 8) with ⟨hnone, hzero⟩ | ⟨i, hfirst, hbit, hbelow⟩
      · refine .inl ⟨hnone, fun i => ?_⟩
        rw [bit_concat]
        split
        · rename_i hi
          exact hlow i hi
        · exact hzero _
      · refine .inr ⟨i + 8, ?_, ?_, fun k hk => ?_⟩
        · show firstFrom (n + 8) b.reverse = _
          rw [hfirst]
          push_cast
          omega
        · rw [bit_concat, if_neg (by omega), Nat.add_sub_cancel, hbit]
        · rw [bit_concat]
          split
          · rename_i hk8
            exact hlow k hk8
          · exact hbelow _ (by omega)

theorem first_cases (b : Bytes) :
    (first b = -1 ∧ ∀ j, ¬ Reads b j true) ∨ IsLeast {j | Reads b j true} (first b) := by
  rcases firstFrom_reverse 0 b with ⟨hnone, hzero⟩ | ⟨i, hfirst, hbit, hbelow⟩
  · refine .inl ⟨hnone, fun j hj => ?_⟩
    have hset := ((reads_iff_bit b j true).1 hj).2
    rw [hzero] at hset
    cases hset
  · have heq : first b = i := by
      rw [first, hfirst]
      omega
    have hi : i < width b := by
      by_contra hge
      rw [bit_of_le (Nat.not_lt.1 hge)] at hbit
      cases hbit
    rw [heq]
    refine .inr ⟨(reads_iff_bit b i true).2 ⟨hasBit_natCast hi, hbit⟩, fun j hj => ?_⟩
    obtain ⟨hrange, hset⟩ := (reads_iff_bit b j true).1 hj
    by_contra hless
    have hj' := (hasBit_iff b j).1 hrange
    rw [hbelow j.toNat (by omega)] at hset
    cases hset

theorem first_eq_neg_one_iff (b : Bytes) : first b = -1 ↔ ∀ j, ¬ Reads b j true := by
  rcases first_cases b with ⟨hnone, hzero⟩ | hleast
  · exact ⟨fun _ => hzero, fun _ => hnone⟩
  · have hlower := ((reads_iff_bit b _ true).1 hleast.1).1.1
    exact ⟨fun hnone => by omega, fun hzero => absurd hleast.1 (hzero _)⟩

/-- **Reads, writes and scans number the bits alike.**  Reading bit `j` succeeds exactly if there is
such a bit, and is refused otherwise.  Writing `v` to a list of bits, in any order and with
repetitions, succeeds exactly if there are all of these bits, and is refused for one that is missing
otherwise.  The result has the same length, reads as `v` at the listed bits and as before elsewhere;
it depends on the set of the bits only, and writing it again changes nothing.  The count is the
number of bits that read as true, the first set bit is the least of these, or -1 exactly if there is
none, and the length and what is read determine the byte string. -/
theorem bits_agree (b : Bytes) :
    (∀ j, ((∃ v, Reads b j v) ↔ HasBit b j) ∧ (¬ HasBit b j →
      Builtin.readBit.Refuses [.bytes b, .integer j] (.bitIndexOutOfRange j))) ∧
    (∀ indices v, ((∃ w, Writes b indices v w) ↔ ∀ j ∈ indices, HasBit b j) ∧
      ((∃ j ∈ indices, ¬ HasBit b j) → ∃ j ∈ indices, ¬ HasBit b j ∧
        Builtin.writeBits.Refuses (writeOperands b indices v) (.bitIndexOutOfRange j)) ∧
      ∀ w, Writes b indices v w → w.length = b.length ∧ (∀ j ∈ indices, Reads w j v) ∧
        (∀ j, j ∉ indices → ∀ u, Reads w j u ↔ Reads b j u) ∧ Writes w indices v w ∧
        ∀ others, (∀ j, j ∈ others ↔ j ∈ indices) → Writes b others v w) ∧
    (∃ set : Finset Int, (∀ j, j ∈ set ↔ Reads b j true) ∧
      Builtin.countSetBits.Answers [.bytes b] (.integer set.card)) ∧
    (∃ j, Builtin.findFirstSetBit.Answers [.bytes b] (.integer j) ∧
      (j = -1 ↔ ∀ i, ¬ Reads b i true) ∧ (j ≠ -1 → IsLeast {i | Reads b i true} j)) ∧
    ∀ a : Bytes, a.length = b.length → (∀ j v, Reads a j v ↔ Reads b j v) → a = b := by
  refine ⟨fun j => ⟨exists_reads_iff b j, refuses_read⟩,
    fun indices v => ⟨exists_writes_iff b indices v, fun h => refuses_write h v, fun w h => ?_⟩,
    ?_, ?_, fun a hlength h => eq_of_reads hlength h⟩
  · exact ⟨h.length_eq, fun j hj => h.reads_of_mem hj, fun j hj => h.reads_of_not_mem hj, h.again,
      fun others hset => h.of_same_indices hset⟩
  · obtain ⟨set, hset, hcard⟩ := exists_card_eq_count b
    refine ⟨set, hset, ?_⟩
    rw [hcard]
    exact answers_count b
  · refine ⟨first b, fun _ => ⟨_, rfl, rfl⟩, first_eq_neg_one_iff b, fun hsome => ?_⟩
    rcases first_cases b with ⟨hnone, -⟩ | hleast
    · exact absurd hnone hsome
    · exact hleast

/-- The top bit of the last byte and the lowest of the byte before are written in one go; there is
no bit after the top one of the first byte. -/
theorem bits_agree_boundary :
    (Writes [0x00, 0x01] [8, 7, 8] true [0x01, 0x81] ∧ Reads [0x01, 0x81] 8 true ∧
      (Reads [0x01, 0x81] 0 true ↔ Reads [0x00, 0x01] 0 true) ∧
      Writes [0x00, 0x01] [7, 8] true [0x01, 0x81]) ∧
    (¬ HasBit [0x00, 0x01] 16 ∧
      Builtin.readBit.Refuses [.bytes [0x00, 0x01], .integer 16] (.bitIndexOutOfRange 16)) ∧
    ∃ j ∈ [(15 : Int), 16], ¬ HasBit [0x00, 0x01] j ∧ Builtin.writeBits.Refuses
      (writeOperands [0x00, 0x01] [15, 16] true) (.bitIndexOutOfRange j) := by
  have hwrites : Writes [0x00, 0x01] [8, 7, 8] true [0x01, 0x81] := (writes_iff _ _ _ _).2 rfl
  have hbeyond : ¬ HasBit [0x00, 0x01] 16 := fun h => absurd h.2 (by decide)
  have hsame : ∀ j : Int, j ∈ [(7 : Int), 8] ↔ j ∈ [(8 : Int), 7, 8] := by
    intro j
    simp only [List.mem_cons, List.not_mem_nil, or_false]
    omega
  obtain ⟨hread, hwrite, -⟩ := bits_agree [0x00, 0x01]
  obtain ⟨-, -, hresult⟩ := hwrite [8, 7, 8] true
  obtain ⟨-, hlisted, helse, -, hset⟩ := hresult _ hwrites
  exact ⟨⟨hwrites, hlisted 8 (by decide), helse 0 (by decide) true, hset [7, 8] hsame⟩,
    ⟨hbeyond, (hread 16).2 hbeyond⟩, (hwrite [15, 16] true).2.1 ⟨16, by decide, hbeyond⟩⟩

end PlutusCek.Bits
