import PlutusCek.Bytes

/-!
# Keccak — the hash functions SHA3-256 and Keccak-256

The sponge over the permutation of 25 lanes of 64 bits.  Lane `(x, y)` stands at `x + 5 * y`.
The two hash functions differ in the byte that starts the padding.
-/

namespace PlutusCek.Crypto.Keccak

/-- The 25 lanes. -/
abbrev Lanes := Vector UInt64 25

/-- The constant added in each round. -/
def roundConstants : List UInt64 :=
  [0x0000000000000001, 0x0000000000008082, 0x800000000000808a, 0x8000000080008000,
   0x000000000000808b, 0x0000000080000001, 0x8000000080008081, 0x8000000000008009,
   0x000000000000008a, 0x0000000000000088, 0x0000000080008009, 0x000000008000000a,
   0x000000008000808b, 0x800000000000008b, 0x8000000000008089, 0x8000000000008003,
   0x8000000000008002, 0x8000000000000080, 0x000000000000800a, 0x800000008000000a,
   0x8000000080008081, 0x8000000000008080, 0x0000000080000001, 0x8000000080008008]

/-- The left rotation of each lane. -/
def rotations : Lanes :=
  #v[0, 1, 62, 28, 27, 36, 44, 6, 55, 20, 3, 10, 43,
     25, 39, 41, 45, 15, 21, 8, 18, 2, 61, 56, 14]

/-- Rotates a lane left. -/
def rotate (x n : UInt64) : UInt64 :=
  if n = 0 then x else (x <<< n) ||| (x >>> (64 - n))

/-- The lane at `(x, y)`, coordinates modulo five. -/
def lane (s : Lanes) (x y : Nat) : UInt64 :=
  s.toArray.getD (x % 5 + 5 * (y % 5)) 0

/-- Parity of the columns added to their neighbours. -/
def theta (s : Lanes) : Lanes :=
  let c : Vector UInt64 5 := Vector.ofFn fun x =>
    lane s x 0 ^^^ lane s x 1 ^^^ lane s x 2 ^^^ lane s x 3 ^^^ lane s x 4
  let d : Vector UInt64 5 := Vector.ofFn fun x =>
    c.toArray.getD ((x.val + 4) % 5) 0 ^^^ rotate (c.toArray.getD ((x.val + 1) % 5) 0) 1
  Vector.ofFn fun i => s.get i ^^^ d.toArray.getD (i.val % 5) 0

/-- Lanes rotated and moved: the lane at `(x, y)` comes from `(x + 3 y, x)`. -/
def rhoPi (s : Lanes) : Lanes :=
  Vector.ofFn fun i =>
    let x := i.val % 5
    let y := i.val / 5
    rotate (lane s (x + 3 * y) x) (lane rotations (x + 3 * y) x)

/-- The nonlinear step along rows, with the round constant. -/
def chiIota (s : Lanes) (k : UInt64) : Lanes :=
  Vector.ofFn fun i =>
    let x := i.val % 5
    let y := i.val / 5
    let a := s.get i ^^^ (~~~(lane s (x + 1) y) &&& lane s (x + 2) y)
    if i.val = 0 then a ^^^ k else a

/-- The permutation: 24 rounds. -/
def permute (s : Lanes) : Lanes :=
  roundConstants.foldl (fun s k => chiIota (rhoPi (theta s)) k) s

/-- Bytes absorbed per permutation, for a digest of 32 bytes. -/
def rate : Nat := 136

/-- Adds one block of `rate` bytes and permutes. -/
def absorb (s : Lanes) (block : Bytes) : Lanes :=
  let words := ((block.chunks 8).map fun w => UInt64.ofNat w.toNatLE).toArray
  permute (Vector.ofFn fun i => s.get i ^^^ words.getD i.val 0)

/-- The message in whole blocks: the byte `first`, zeros, and the top bit of the last byte. -/
def pad (first : UInt8) (message : Bytes) : Bytes :=
  match rate - message.length % rate with
  | 1 => message ++ [first ||| 0x80]
  | k => message ++ first :: List.replicate (k - 2) 0 ++ [0x80]

/-- The first 32 bytes of the sponge's output. -/
def digest (first : UInt8) (message : Bytes) : Bytes :=
  let s := ((pad first message).chunks rate).foldl absorb (Vector.replicate 25 0)
  (s.toList.take 4).flatMap fun w => Bytes.digitsLE 8 w.toNat

end Keccak

/-- The SHA3-256 digest of a message. -/
def sha3 (message : Bytes) : Bytes := Keccak.digest 0x06 message

/-- The Keccak-256 digest of a message. -/
def keccak (message : Bytes) : Bytes := Keccak.digest 0x01 message

end PlutusCek.Crypto
