import PlutusCek.Bytes

/-!
# Blake2b — the unkeyed hash function BLAKE2b at a chosen digest length
-/

namespace PlutusCek.Crypto.Blake2b

/-- The initial words: fractional parts of the square roots of the first primes. -/
def start : Vector UInt64 8 :=
  #v[0x6a09e667f3bcc908, 0xbb67ae8584caa73b,
     0x3c6ef372fe94f82b, 0xa54ff53a5f1d36f1,
     0x510e527fade682d1, 0x9b05688c2b3e6c1f,
     0x1f83d9abfb41bd6b, 0x5be0cd19137e2179]

/-- The order in which each round reads the message words. -/
def schedule : List (List Nat) :=
  [[0, 1, 2, 3, 4, 5, 6, 7, 8, 9, 10, 11, 12, 13, 14, 15],
   [14, 10, 4, 8, 9, 15, 13, 6, 1, 12, 0, 2, 11, 7, 5, 3],
   [11, 8, 12, 0, 5, 2, 15, 13, 10, 14, 3, 6, 7, 1, 9, 4],
   [7, 9, 3, 1, 13, 12, 11, 14, 2, 6, 5, 10, 4, 0, 15, 8],
   [9, 0, 5, 7, 2, 4, 10, 15, 14, 1, 11, 12, 6, 8, 3, 13],
   [2, 12, 6, 10, 0, 11, 8, 3, 4, 13, 7, 5, 15, 14, 1, 9],
   [12, 5, 1, 15, 14, 13, 4, 10, 0, 7, 6, 3, 9, 2, 8, 11],
   [13, 11, 7, 14, 12, 1, 3, 9, 5, 0, 15, 4, 8, 6, 2, 10],
   [6, 15, 14, 9, 11, 3, 0, 8, 12, 2, 13, 7, 1, 4, 10, 5],
   [10, 2, 8, 4, 7, 6, 1, 5, 15, 11, 9, 14, 3, 12, 13, 0],
   [0, 1, 2, 3, 4, 5, 6, 7, 8, 9, 10, 11, 12, 13, 14, 15],
   [14, 10, 4, 8, 9, 15, 13, 6, 1, 12, 0, 2, 11, 7, 5, 3]]

/-- The sixteen working words. -/
abbrev Work := Vector UInt64 16

/-- Rotates a word right by `n` with `0 < n < 64`. -/
def rotate (x n : UInt64) : UInt64 := (x >>> n) ||| (x <<< (64 - n))

/-- Mixes the message words `x` and `y` into four working words. -/
def mix (v : Work) (a b c d : Fin 16) (x y : UInt64) : Work :=
  let va := v.get a + v.get b + x
  let vd := rotate (v.get d ^^^ va) 32
  let vc := v.get c + vd
  let vb := rotate (v.get b ^^^ vc) 24
  let va := va + vb + y
  let vd := rotate (vd ^^^ va) 16
  let vc := vc + vd
  let vb := rotate (vb ^^^ vc) 63
  (((v.set a.val va a.isLt).set b.val vb b.isLt).set c.val vc c.isLt).set d.val vd d.isLt

/-- One round: the columns, then the diagonals. -/
def round (v : Work) (m : List UInt64) : Work :=
  match m with
  | [m0, m1, m2, m3, m4, m5, m6, m7, m8, m9, m10, m11, m12, m13, m14, m15] =>
    let v := mix v 0 4 8 12 m0 m1
    let v := mix v 1 5 9 13 m2 m3
    let v := mix v 2 6 10 14 m4 m5
    let v := mix v 3 7 11 15 m6 m7
    let v := mix v 0 5 10 15 m8 m9
    let v := mix v 1 6 11 12 m10 m11
    let v := mix v 2 7 8 13 m12 m13
    mix v 3 4 9 14 m14 m15
  | _ => v

/-- Absorbs one block after which `count` bytes have been read. -/
def absorb (h : Vector UInt64 8) (block : Bytes) (count : Nat) (final : Bool) : Vector UInt64 8 :=
  let padded := block ++ List.replicate (128 - block.length) 0
  let m := ((padded.chunks 8).map fun w => UInt64.ofNat w.toNatLE).toArray
  let v : Work := h ++ start
  let v := v.set 12 (v.get 12 ^^^ UInt64.ofNat count)
  let v := v.set 13 (v.get 13 ^^^ UInt64.ofNat (count >>> 64))
  let v := if final then v.set 14 (~~~v.get 14) else v
  let w := schedule.foldl (fun v order => round v (order.map fun i => m.getD i 0)) v
  Vector.ofFn fun i : Fin 8 =>
    h.get i ^^^ w.get ⟨i.val, by omega⟩ ^^^ w.get ⟨i.val + 8, by omega⟩

/-- Absorbs all blocks; the last one is marked. -/
def absorbAll (h : Vector UInt64 8) (count : Nat) : List Bytes → Vector UInt64 8
  | [] => absorb h [] count true
  | [block] => absorb h block (count + block.length) true
  | block :: rest =>
    let count := count + block.length
    absorbAll (absorb h block count false) count rest

/-- The digest of `size` bytes. -/
def digest (size : Nat) (message : Bytes) : Bytes :=
  let h := start.set 0 (start.get 0 ^^^ (0x01010000 ^^^ UInt64.ofNat size))
  let out := absorbAll h 0 (message.chunks 128)
  (out.toList.flatMap fun w => Bytes.digitsLE 8 w.toNat).take size

end Blake2b

/-- The BLAKE2b digest of `size` bytes. -/
def blake2b (size : Nat) (message : Bytes) : Bytes := Blake2b.digest size message

end PlutusCek.Crypto
