import PlutusCek.Term

/-!
# Version — versions of the core language

A version is written as three numbers between dots.
-/

namespace PlutusCek

/-- A version of the core language. -/
structure Version where
  major : UInt32
  minor : UInt32
  patch : UInt32
deriving DecidableEq

namespace Version

/-- The first version with constructors and case analysis. -/
def sums : Version := ⟨1, 1, 0⟩

/-- Comparison by major, minor and patch number. -/
def compare (a b : Version) : Ordering :=
  (Ord.compare a.major.toNat b.major.toNat).then
    ((Ord.compare a.minor.toNat b.minor.toNat).then (Ord.compare a.patch.toNat b.patch.toNat))

/-- Constructors and case analysis are allowed. -/
def supportsSums (v : Version) : Bool :=
  (sums.compare v).isLE

/-- A version in writing. -/
def render (v : Version) : String :=
  s!"{v.major.toNat}.{v.minor.toNat}.{v.patch.toNat}"

/-! ### Reading -/

/-- The characters with the Unicode property `White_Space`. -/
def isBlank (c : Char) : Bool :=
  let n := c.toNat
  (9 ≤ n && n ≤ 13) || n == 0x20 || n == 0x85 || n == 0xa0 || n == 0x1680 ||
    (0x2000 ≤ n && n ≤ 0x200a) || n == 0x2028 || n == 0x2029 || n == 0x202f || n == 0x205f ||
    n == 0x3000

/-- The text without blanks at either end. -/
def trim (cs : List Char) : List Char :=
  ((cs.dropWhile isBlank).reverse.dropWhile isBlank).reverse

/-- The number written by decimal digits. -/
def digits? (cs : List Char) : Option Nat :=
  if cs.isEmpty || !cs.all Char.isDigit then none
  else some (cs.foldl (fun n c => 10 * n + (c.toNat - '0'.toNat)) 0)

/-- A 32-bit number: decimal digits, perhaps after a plus sign. -/
def number? (cs : List Char) : Option UInt32 :=
  let body := match cs with
    | '+' :: rest => rest
    | _ => cs
  (digits? body).bind fun n => if n < 4294967296 then some (UInt32.ofNat n) else none

/-- The text before and after the first dot. -/
def splitDot? (cs : List Char) : Option (List Char × List Char) :=
  match cs.dropWhile (· != '.') with
  | _ :: rest => some (cs.takeWhile (· != '.'), rest)
  | [] => none

/-- The complaint about a text that is not a version. -/
def invalid : String := "invalid version string"

/-- Reads three numbers between dots. -/
def parse? (s : String) : Option Version := do
  let (a, rest) ← splitDot? (trim s.toList)
  let (b, c) ← splitDot? rest
  return ⟨← number? a, ← number? b, ← number? c⟩

end Version

/-- A program: a term in a version of the language. -/
structure Program where
  version : Version
  term : Term

end PlutusCek
