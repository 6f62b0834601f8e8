/-!
# Bytes — byte strings

A byte string is a list of bytes.  It is ordered lexicographically, read as a number in either
byte order, and cut into chunks.
-/

namespace PlutusCek

/-- A byte string. -/
abbrev Bytes := List UInt8

namespace Bytes

/-- Lexicographic comparison; a proper initial part comes first. -/
def compare : Bytes → Bytes → Ordering
  | [], [] => .eq
  | [], _ :: _ => .lt
  | _ :: _, [] => .gt
  | a :: as, b :: bs =>
    if a.toNat < b.toNat then .lt else if b.toNat < a.toNat then .gt else compare as bs

/-- Strictly before in lexicographic order. -/
def lt (a b : Bytes) : Bool :=
  (compare a b).isLT

/-- Before or equal in lexicographic order. -/
def le (a b : Bytes) : Bool :=
  (compare a b).isLE

/-- The number whose base-256 digits are the bytes, most significant first. -/
def toNatBE (b : Bytes) : Nat :=
  b.foldl (fun n x => n * 256 + x.toNat) 0

/-- The number whose base-256 digits are the bytes, least significant first. -/
def toNatLE (b : Bytes) : Nat :=
  b.foldr (fun x n => x.toNat + 256 * n) 0

/-- The base-256 digits of a number, least significant first; none for zero. -/
def ofNatLE (n : Nat) : Bytes :=
  if n = 0 then [] else UInt8.ofNat (n % 256) :: ofNatLE (n / 256)
termination_by n
decreasing_by omega

/-- The base-256 digits of a number, most significant first; none for zero. -/
def ofNatBE (n : Nat) : Bytes :=
  (ofNatLE n).reverse

/-- The `k` low base-256 digits of a number, least significant first. -/
def digitsLE : Nat → Nat → Bytes
  | 0, _ => []
  | k + 1, n => UInt8.ofNat (n % 256) :: digitsLE k (n / 256)

/-- The `k` low base-256 digits of a number, most significant first. -/
def digitsBE (k n : Nat) : Bytes :=
  (digitsLE k n).reverse

/-- Consecutive pieces of `k` bytes; the last one may be shorter. -/
def chunks (k : Nat) (b : Bytes) : List Bytes :=
  if _h : b = [] ∨ k = 0 then [] else b.take k :: chunks k (b.drop k)
termination_by b.length
decreasing_by
  have : 0 < b.length := List.length_pos_iff.2 fun hb => _h (Or.inl hb)
  simp only [List.length_drop]; omega

@[simp] theorem length_digitsLE (k n : Nat) : (digitsLE k n).length = k := by
  induction k generalizing n with
  | zero => rfl
  | succ k ih => simp [digitsLE, ih]

@[simp] theorem length_digitsBE (k n : Nat) : (digitsBE k n).length = k := by
  simp [digitsBE]

/-- Reading backwards swaps the byte orders. -/
theorem toNatBE_eq_toNatLE_reverse (b : Bytes) : toNatBE b = toNatLE b.reverse := by
  simp only [toNatBE, toNatLE, List.foldr_reverse]
  congr 1
  funext n x
  omega

end Bytes

end PlutusCek
