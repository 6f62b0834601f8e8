import Mathlib.Data.Option.NAry
import PlutusCek.Proofs.Answering

/-!
# Proofs.Bytewise — byte strings combined byte by byte

The byte at a position of a combination depends on the bytes of the two operands at that position
only (`Bits.getElem?_logical`).  So the laws of an operation on bytes hold for byte strings of any
lengths, whether the longer one is kept or cut (`Bits.logical_laws`).
-/

namespace PlutusCek.Bits

variable (op : UInt8 → UInt8 → UInt8) (pad : Bool) (a b c : Bytes)

/-! ### One position -/

/-- The byte that two operands give at a position, where either may have ended. -/
def combine : Option UInt8 → Option UInt8 → Option UInt8 :=
  if pad then Option.merge op else Option.map₂ op

theorem length_overwrite (out new : Bytes) : (overwrite out new).length = out.length := by
  fun_induction overwrite out new with
  | case1 _ out x new ih => rw [List.length_cons, ih, List.length_cons]
  | case2 => rfl

theorem getElem?_overwrite {out new : Bytes} (h : new.length ≤ out.length) (i : Nat) :
    (overwrite out new)[i]? = new[i]?.or out[i]? := by
  fun_induction overwrite out new generalizing i with
  | case1 _ out x new ih =>
    cases i with
    | zero => rfl
    | succ i => exact ih (Nat.le_of_succ_le_succ h) i
  | case2 out new hnot =>
    cases new with
    | nil => rfl
    | cons x new =>
      cases out with
      | nil => exact absurd h (Nat.not_succ_le_zero _)
      | cons y out => exact (hnot y out x new rfl rfl).elim

/-- The shorter operand is combined with the start of the longer one. -/
theorem getElem?_overwrite_zipWith {short long : Bytes} (h : short.length ≤ long.length) (i : Nat) :
    (overwrite (if pad then long else short) (List.zipWith op short long))[i]? =
      combine op pad short[i]? long[i]? := by
  have hlength : (List.zipWith op short long).length ≤ (if pad then long else short).length := by
    rw [List.length_zipWith]
    cases pad with
    | true => exact Nat.min_le_right _ _
    | false => exact Nat.min_le_left _ _
  rw [getElem?_overwrite hlength, List.getElem?_zipWith]
  cases hshort : short[i]? with
  | none =>
    cases pad with
    | true =>
      show long[i]? = Option.merge op none long[i]?
      rw [Option.merge_none_left]
    | false => exact hshort
  | some x =>
    obtain ⟨hi, -⟩ := List.getElem?_eq_some_iff.1 hshort
    rw [List.getElem?_eq_getElem (Nat.lt_of_lt_of_le hi h)]
    cases pad with
    | true => rfl
    | false => rfl

theorem combine_comm [Std.Commutative op] (x y : Option UInt8) :
    combine op pad x y = combine op pad y x := by
  cases pad with
  | true => exact (Option.commutative_merge op).comm x y
  | false => exact Option.map₂_comm Std.Commutative.comm

/-- Which of the operands is the shorter one does not matter, for an operation that commutes. -/
theorem getElem?_logical [Std.Commutative op] (i : Nat) :
    (logical op pad a b)[i]? = combine op pad a[i]? b[i]? := by
  unfold logical
  by_cases hle : a.length ≤ b.length
  · rw [if_pos hle]
    exact getElem?_overwrite_zipWith op pad hle i
  · rw [if_neg hle, combine_comm]
    exact getElem?_overwrite_zipWith op pad (Nat.le_of_not_le hle) i

theorem length_logical :
    (logical op pad a b).length =
      if pad then max a.length b.length else min a.length b.length := by
  unfold logical
  by_cases hle : a.length ≤ b.length
  · rw [if_pos hle, length_overwrite, Nat.max_eq_right hle, Nat.min_eq_left hle]
    split <;> rfl
  · have hge := Nat.le_of_not_le hle
    rw [if_neg hle, length_overwrite, Nat.max_eq_left hge, Nat.min_eq_right hge]
    split <;> rfl

variable {op pad a b c}

section Commutative

variable [Std.Commutative op]

/-- Where both operands have a byte, these are combined. -/
theorem getElem?_logical_of_some {i : Nat} {x y : UInt8} (hx : a[i]? = some x)
    (hy : b[i]? = some y) : (logical op pad a b)[i]? = some (op x y) := by
  rw [getElem?_logical, hx, hy]
  cases pad with
  | true => rfl
  | false => rfl

/-- Where one operand has ended, the byte is that of the longer one. -/
theorem getElem?_logical_of_le {i : Nat} (hi : min a.length b.length ≤ i)
    (hlt : i < (logical op pad a b).length) :
    (logical op pad a b)[i]? = (if a.length ≤ b.length then b else a)[i]? := by
  rw [length_logical] at hlt
  cases pad with
  | false =>
    rw [if_neg Bool.false_ne_true] at hlt
    exact absurd hlt (Nat.not_lt.2 hi)
  | true =>
    rw [getElem?_logical]
    split
    · have ha : a[i]? = none := List.getElem?_eq_none (by omega)
      rw [ha]
      cases b[i]? <;> rfl
    · have hb : b[i]? = none := List.getElem?_eq_none (by omega)
      rw [hb]
      cases a[i]? <;> rfl

end Commutative

/-! ### Laws at one position -/

variable {x y z : Option UInt8}

theorem combine_assoc [Std.Associative op] :
    combine op pad (combine op pad x y) z = combine op pad x (combine op pad y z) := by
  cases pad with
  | true => exact (Option.associative_merge op).assoc x y z
  | false => exact Option.map₂_assoc Std.Associative.assoc

theorem combine_self [Std.IdempotentOp op] : combine op pad x x = x := by
  cases pad with
  | true => exact (Option.idempotentOp_merge op).idempotent x
  | false =>
    cases x with
    | none => rfl
    | some x => exact congrArg some (Std.IdempotentOp.idempotent x)

/-- A byte that only one operand has is changed as well. -/
theorem map_combine {op' : UInt8 → UInt8 → UInt8} {f : UInt8 → UInt8}
    (h : ∀ x y, f (op x y) = op' (f x) (f y)) :
    (combine op pad x y).map f = combine op' pad (x.map f) (y.map f) := by
  cases pad with
  | true =>
    cases x <;> cases y <;> simp [combine, h]
  | false => exact Option.map_map₂_distrib h

/-! ### Laws of byte strings -/

theorem logical_comm [Std.Commutative op] : logical op pad a b = logical op pad b a := by
  refine List.ext_getElem? fun i => ?_
  rw [getElem?_logical, getElem?_logical, combine_comm]

theorem logical_assoc [Std.Commutative op] [Std.Associative op] :
    logical op pad (logical op pad a b) c = logical op pad a (logical op pad b c) := by
  refine List.ext_getElem? fun i => ?_
  rw [getElem?_logical, getElem?_logical, getElem?_logical, getElem?_logical, combine_assoc]

theorem logical_self [Std.Commutative op] [Std.IdempotentOp op] : logical op pad a a = a := by
  refine List.ext_getElem? fun i => ?_
  rw [getElem?_logical, combine_self]

theorem complement_logical [Std.Commutative op] {op' : UInt8 → UInt8 → UInt8}
    [Std.Commutative op'] (h : ∀ x y, ~~~(op x y) = op' (~~~x) (~~~y)) :
    complement (logical op pad a b) = logical op' pad (complement a) (complement b) := by
  refine List.ext_getElem? fun i => ?_
  rw [getElem?_logical, complement, complement, complement, List.getElem?_map, List.getElem?_map,
    List.getElem?_map, getElem?_logical, map_combine h]

theorem not_and_byte (x y : UInt8) : ~~~(x &&& y) = ~~~x ||| ~~~y :=
  UInt8.toBitVec_inj.1 BitVec.not_and

theorem not_or_byte (x y : UInt8) : ~~~(x ||| y) = ~~~x &&& ~~~y :=
  UInt8.toBitVec_inj.1 BitVec.not_or

/-! ### The builtins -/

/-- The builtins that combine byte strings, and what they do to two bytes. -/
inductive Combines : Builtin → (UInt8 → UInt8 → UInt8) → Prop where
  | and : Combines .andByteString (· &&& ·)
  | or : Combines .orByteString (· ||| ·)
  | xor : Combines .xorByteString (· ^^^ ·)

namespace Combines

variable {fn : Builtin} (h : Combines fn op)
include h

theorem answers (pad : Bool) (a b : Bytes) :
    fn.Answers [.bool pad, .bytes a, .bytes b] (.bytes (logical op pad a b)) := by
  cases h with
  | and => exact fun _ => ⟨_, rfl, rfl⟩
  | or => exact fun _ => ⟨_, rfl, rfl⟩
  | xor => exact fun _ => ⟨_, rfl, rfl⟩

theorem commutative : Std.Commutative op := by
  cases h with
  | and | or | xor => infer_instance

theorem associative : Std.Associative op := by
  cases h with
  | and | or | xor => infer_instance

end Combines

/-- **The algebra of byte strings.**  Each of the three combinations has the length of the longer
operand if it pads and of the shorter one otherwise; its bytes are those of the operands combined as
far as both go, and those of the longer one from there.  It is commutative and associative, whatever
the lengths are, `and` and `or` are idempotent, and the complement of the one is the other of the
complements. -/
theorem logical_laws (pad : Bool) (a b c : Bytes) :
    (∀ fn op, Combines fn op →
      fn.Answers [.bool pad, .bytes a, .bytes b] (.bytes (logical op pad a b)) ∧
      (logical op pad a b).length =
        (if pad then max a.length b.length else min a.length b.length) ∧
      (∀ (i : Nat) (x y : UInt8), a[i]? = some x → b[i]? = some y →
        (logical op pad a b)[i]? = some (op x y)) ∧
      (∀ i : Nat, min a.length b.length ≤ i → i < (logical op pad a b).length →
        (logical op pad a b)[i]? = (if a.length ≤ b.length then b else a)[i]?) ∧
      logical op pad a b = logical op pad b a ∧
      logical op pad (logical op pad a b) c = logical op pad a (logical op pad b c)) ∧
    logical (· &&& ·) pad a a = a ∧ logical (· ||| ·) pad a a = a ∧
    Builtin.complementByteString.Answers [.bytes a] (.bytes (complement a)) ∧
    complement (logical (· &&& ·) pad a b) =
      logical (· ||| ·) pad (complement a) (complement b) ∧
    complement (logical (· ||| ·) pad a b) =
      logical (· &&& ·) pad (complement a) (complement b) := by
  refine ⟨fun fn op h => ?_, logical_self, logical_self, fun _ => ⟨_, rfl, rfl⟩,
    complement_logical not_and_byte, complement_logical not_or_byte⟩
  have hcomm := h.commutative
  have hassoc := h.associative
  exact ⟨h.answers pad a b, length_logical op pad a b,
    fun i x y hx hy => getElem?_logical_of_some hx hy,
    fun i hi hlt => getElem?_logical_of_le hi hlt, logical_comm, logical_assoc⟩

/-- Three lengths, padded: the second operand is the longest. -/
theorem logical_laws_ragged :
    Combines .xorByteString (· ^^^ ·) ∧
    (Builtin.xorByteString.Answers [.bool true, .bytes [0xf0], .bytes [0x0f, 0x01, 0x80]]
      (.bytes [0xff, 0x01, 0x80])) ∧
    (logical (· ^^^ ·) true [0xf0] [0x0f, 0x01, 0x80])[0]? = some (0xf0 ^^^ 0x0f) ∧
    (logical (· ^^^ ·) true [0xf0] [0x0f, 0x01, 0x80])[2]? = some 0x80 ∧
    logical (· ^^^ ·) true (logical (· ^^^ ·) true [0xf0] [0x0f, 0x01, 0x80]) [0x11, 0x22] =
      logical (· ^^^ ·) true [0xf0] (logical (· ^^^ ·) true [0x0f, 0x01, 0x80] [0x11, 0x22]) := by
  obtain ⟨hcombines, -⟩ := logical_laws true [0xf0] [0x0f, 0x01, 0x80] [0x11, 0x22]
  obtain ⟨hanswers, -, hboth, hrest, -, hassoc⟩ := hcombines _ _ .xor
  exact ⟨.xor, hanswers, hboth 0 0xf0 0x0f rfl rfl, hrest 2 (by decide) (by decide), hassoc⟩

end PlutusCek.Bits
