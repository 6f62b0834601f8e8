import PlutusCek.Bytes

/-!
# Ripemd160 — the hash function RIPEMD-160

Two lines of eighty steps run side by side on each block and are added up at its end.
-/

namespace PlutusCek.Crypto.Ripemd160

/-- The five chaining words. -/
structure Words where
  a : UInt32
  b : UInt32
  c : UInt32
  d : UInt32
  e : UInt32

/-- Message word read by each step of the left line. -/
def leftWords : List Nat :=
  [0, 1, 2, 3, 4, 5, 6, 7, 8, 9, 10, 11, 12, 13, 14, 15,
   7, 4, 13, 1, 10, 6, 15, 3, 12, 0, 9, 5, 2, 14, 11, 8,
   3, 10, 14, 4, 9, 15, 8, 1, 2, 7, 0, 6, 13, 11, 5, 12,
   1, 9, 11, 10, 0, 8, 12, 4, 13, 3, 7, 15, 14, 5, 6, 2,
   4, 0, 5, 9, 7, 12, 2, 10, 14, 1, 3, 8, 11, 6, 15, 13]

/-- Message word read by each step of the right line. -/
def rightWords : List Nat :=
  [5, 14, 7, 0, 9, 2, 11, 4, 13, 6, 15, 8, 1, 10, 3, 12,
   6, 11, 3, 7, 0, 13, 5, 10, 14, 15, 8, 12, 4, 9, 1, 2,
   15, 5, 1, 3, 7, 14, 6, 9, 11, 8, 12, 2, 10, 0, 4, 13,
   8, 6, 4, 1, 3, 11, 15, 0, 5, 12, 2, 13, 9, 7, 10, 14,
   12, 15, 10, 4, 1, 5, 8, 7, 6, 2, 13, 14, 0, 3, 9, 11]

/-- Rotation of each step of the left line. -/
def leftShifts : List UInt32 :=
  [11, 14, 15, 12, 5, 8, 7, 9, 11, 13, 14, 15, 6, 7, 9, 8,
   7, 6, 8, 13, 11, 9, 7, 15, 7, 12, 15, 9, 11, 7, 13, 12,
   11, 13, 6, 7, 14, 9, 13, 15, 14, 8, 13, 6, 5, 12, 7, 5,
   11, 12, 14, 15, 14, 15, 9, 8, 9, 14, 5, 6, 8, 6, 5, 12,
   9, 15, 5, 11, 6, 8, 13, 12, 5, 12, 13, 14, 11, 8, 5, 6]

/-- Rotation of each step of the right line. -/
def rightShifts : List UInt32 :=
  [8, 9, 9, 11, 13, 15, 15, 5, 7, 7, 8, 11, 14, 14, 12, 6,
   9, 13, 15, 7, 12, 8, 9, 11, 7, 7, 12, 7, 6, 15, 13, 11,
   9, 7, 15, 11, 8, 6, 6, 14, 12, 13, 5, 14, 13, 13, 7, 5,
   15, 5, 8, 11, 14, 14, 6, 14, 6, 9, 12, 9, 12, 5, 15, 8,
   8, 5, 12, 9, 12, 5, 14, 6, 8, 13, 6, 5, 15, 13, 11, 11]

/-- Rotates a word left by `n` with `0 < n < 32`. -/
def rotate (x n : UInt32) : UInt32 := (x <<< n) ||| (x >>> (32 - n))

/-- The Boolean function of each group of sixteen steps. -/
def select (group : Nat) (x y z : UInt32) : UInt32 :=
  match group with
  | 0 => x ^^^ y ^^^ z
  | 1 => (x &&& y) ||| (~~~x &&& z)
  | 2 => (x ||| ~~~y) ^^^ z
  | 3 => (x &&& z) ||| (y &&& ~~~z)
  | _ => x ^^^ (y ||| ~~~z)

/-- The constant of each group in the left line. -/
def leftConstant : Nat → UInt32
  | 0 => 0x00000000
  | 1 => 0x5a827999
  | 2 => 0x6ed9eba1
  | 3 => 0x8f1bbcdc
  | _ => 0xa953fd4e

/-- The constant of each group in the right line. -/
def rightConstant : Nat → UInt32
  | 0 => 0x50a28be6
  | 1 => 0x5c4dd124
  | 2 => 0x6d703ef3
  | 3 => 0x7a6d76e9
  | _ => 0x00000000

/-- One step: Boolean group `f`, addend `k + m`, rotation `s`. -/
def step (w : Words) (f : Nat) (k m s : UInt32) : Words :=
  let t := rotate (w.a + select f w.b w.c w.d + m + k) s + w.e
  ⟨w.e, t, w.b, rotate w.c 10, w.d⟩

/-- A whole line; `group` and `constant` depend on the entrys group of sixteen. -/
def line (group : Nat → Nat) (constant : Nat → UInt32) (words : List Nat) (shifts : List UInt32)
    (m : Array UInt32) (w : Words) : Words :=
  ((words.zip shifts).zipIdx).foldl
    (fun w entry =>
      let g := entry.2 / 16
      step w (group g) (constant g) (m.getD entry.1.1 0) entry.1.2)
    w

/-- Absorbs one block. -/
def absorb (w : Words) (block : Bytes) : Words :=
  let m := ((block.chunks 4).map fun b => UInt32.ofNat b.toNatLE).toArray
  let l := line id leftConstant leftWords leftShifts m w
  let r := line (4 - ·) rightConstant rightWords rightShifts m w
  ⟨w.b + l.c + r.d, w.c + l.d + r.e, w.d + l.e + r.a, w.e + l.a + r.b, w.a + l.b + r.c⟩

/-- The message followed by a one bit, zeros and its length in bits, in blocks of 64 bytes. -/
def pad (message : Bytes) : Bytes :=
  message ++ 0x80 :: List.replicate ((64 - (message.length + 9) % 64) % 64) 0 ++
    Bytes.digitsLE 8 (8 * message.length)

/-- The digest of a message. -/
def digest (message : Bytes) : Bytes :=
  let s := ((pad message).chunks 64).foldl absorb
    ⟨0x67452301, 0xefcdab89, 0x98badcfe, 0x10325476, 0xc3d2e1f0⟩
  [s.a, s.b, s.c, s.d, s.e].flatMap fun w => Bytes.digitsLE 4 w.toNat

end Ripemd160

/-- The RIPEMD-160 digest of a message. -/
def ripemd160 (message : Bytes) : Bytes := Ripemd160.digest message

end PlutusCek.Crypto
