import PlutusCek.Bytes

/-!
# Bits — byte strings as strings of bits

Bit 0 is the lowest bit of the last byte; bit `j` lies `j / 8` bytes before it.
-/

namespace PlutusCek.Bits

/-- Number of bits. -/
def width (b : Bytes) : Nat := 8 * b.length

/-- The first bytes replaced, as far as there are new ones. -/
def overwrite : Bytes → Bytes → Bytes
  | _ :: out, x :: new => x :: overwrite out new
  | out, _ => out

/-- Combines two byte strings from their starts, the shorter one first.  The result is written over
the longer one with `pad` and over the shorter one without it. -/
def logical (op : UInt8 → UInt8 → UInt8) (pad : Bool) (x y : Bytes) : Bytes :=
  let (short, long) := if x.length ≤ y.length then (x, y) else (y, x)
  overwrite (if pad then long else short) (List.zipWith op short long)

/-- Every bit flipped. -/
def complement (b : Bytes) : Bytes :=
  b.map fun x => ~~~x

/-- The difference of two numbers, if it is not negative. -/
def checkedSub (m n : Nat) : Option Nat :=
  if n ≤ m then some (m - n) else none

/-- The position of the byte that holds bit `j`, counted from the front. -/
def bytePosition? (b : Bytes) (j : Int) : Option Nat := do
  let index ← j.toNat?
  let last ← checkedSub b.length 1
  checkedSub last (index / 8)

/-- The mask of bit `j` in its byte. -/
def mask (j : Int) : UInt8 :=
  1 <<< UInt8.ofNat (j.toNat % 8)

/-- Bit `j`, if there is one. -/
def read? (b : Bytes) (j : Int) : Option Bool :=
  (bytePosition? b j).map fun i => b.getD i 0 &&& mask j != 0

/-- The byte string with bit `j` set to `v`, if there is such a bit. -/
def write? (b : Bytes) (j : Int) (v : Bool) : Option Bytes :=
  (bytePosition? b j).map fun i =>
    b.modify i fun x => if v then x ||| mask j else x &&& ~~~mask j

/-- The digits of a number, most significant first, with zeros in front or cut to `k` bytes.  The
number zero has one digit. -/
def toFixedBE (n k : Nat) : Bytes :=
  let digits := if n = 0 then [0] else Bytes.ofNatBE n
  match checkedSub k digits.length with
  | some missing => List.replicate missing 0 ++ digits
  | none => digits.drop (digits.length - k)

/-- The number with as many bits set as the byte string has. -/
def allSet (b : Bytes) : Nat := (1 <<< width b) - 1

/-- Bits moved up by `k`, or down if `k` is negative; the places left are zero. -/
def shift (b : Bytes) (k : Int) : Bytes :=
  if width b ≤ k.natAbs then List.replicate b.length 0
  else
    let n := b.toNatBE
    let shifted := if k < 0 then n >>> k.natAbs else (n <<< k.natAbs) &&& allSet b
    toFixedBE shifted b.length

/-- Bits moved up by `k` around the ends. -/
def rotate (b : Bytes) (k : Int) : Bytes :=
  if width b = 0 then []
  else
    let amount := (k % (width b : Int)).toNat
    if amount = 0 then b
    else
      let n := b.toNatBE
      toFixedBE (((n <<< amount) ||| (n >>> (width b - amount))) &&& allSet b) b.length

/-- Number of set bits of a byte. -/
def countByte (x : UInt8) : Nat :=
  (List.range 8).countP fun i => x.toNat.testBit i

/-- Number of set bits. -/
def count (b : Bytes) : Nat :=
  b.foldl (fun n x => n + countByte x) 0

/-- The lowest set bit of a byte. -/
def firstOfByte? (x : UInt8) : Option Nat :=
  (List.range 8).find? fun i => x.toNat.testBit i

/-- The lowest set bit of a byte string whose last byte comes first; its first bit is bit `j`. -/
def firstFrom (j : Nat) : Bytes → Int
  | [] => -1
  | x :: rest =>
    match firstOfByte? x with
    | some i => (j + i : Nat)
    | none => firstFrom (j + 8) rest

/-- The lowest set bit, or -1 if there is none. -/
def first (b : Bytes) : Int :=
  firstFrom 0 b.reverse

end PlutusCek.Bits
