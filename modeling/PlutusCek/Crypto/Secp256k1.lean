import PlutusCek.Crypto.Sha2
import PlutusCek.Crypto.Weierstrass

/-!
# Secp256k1 — ECDSA and Schnorr verification on `y² = x³ + 7`

Keys and signatures that are not well formed are told apart from signatures that do not verify:
the readers return `none` for the first, the checks `false` for the second.
-/

namespace PlutusCek.Crypto.Secp256k1

/-- The prime of the coordinate field. -/
def prime : Nat :=
  0xfffffffffffffffffffffffffffffffffffffffffffffffffffffffefffffc2f

/-- The order of the group. -/
def order : Nat := 0xfffffffffffffffffffffffffffffffebaaedce6af48a03bbfd25e8cd0364141

/-- A coordinate. -/
abbrev Coord := Residue prime

/-- The generator. -/
def generator : Point Coord :=
  .affine ⟨0x79be667ef9dcbbac55a06295ce870b07029bfcdb2dce28d959f2815b16f81798⟩
    ⟨0x483ada7726a3c4655da4fbfc0e1108a8fd17b448a68554199c47d08ffb10d4b8⟩

/-- The point with coordinate `x` below the prime and a `y` of the given parity. -/
def lift? (x : Nat) (odd : Bool) : Option (Point Coord) :=
  if prime ≤ x then none
  else
    let x : Coord := ⟨x⟩
    match (Point.cubic ⟨7⟩ x).sqrt? with
    | none => none
    | some y => some (.affine x (if y.isOdd == odd then y else -y))

/-- A scalar in `[1, order)`. -/
def nonzeroScalar? (b : Bytes) : Option Nat :=
  let n := b.toNatBE
  if n = 0 ∨ order ≤ n then none else some n

/-- The combination `m • generator + n • p`. -/
def combine (m n : Nat) (p : Point Coord) : Point Coord :=
  (((Jacobian.ofPoint generator).scale m).add ((Jacobian.ofPoint p).scale n)).toPoint

/-! ### ECDSA -/

/-- Reads a 33-byte key: a tag byte, then the coordinate `x`.  Tags 2 and 3 give the parity of
`y`; tag 5 stands for an even `y`. -/
def ecdsaKey? : Bytes → Option (Point Coord)
  | tag :: x =>
    if tag = 2 ∨ tag = 5 then lift? (Bytes.toNatBE x) false
    else if tag = 3 then lift? (Bytes.toNatBE x) true
    else none
  | [] => none

/-- Reads a 64-byte signature: two scalars. -/
def ecdsaSignature? (b : Bytes) : Option (Nat × Nat) :=
  match nonzeroScalar? (b.take 32), nonzeroScalar? (b.drop 32) with
  | some r, some s => some (r, s)
  | _, _ => none

/-- Checks a signature of a message hash.  A signature with `s` in the upper half is refused. -/
def ecdsaVerify (key : Point Coord) (hash : Bytes) (signature : Nat × Nat) : Bool :=
  let (r, s) := signature
  if order / 2 < s then false
  else
    let w := powMod order s (order - 2)
    let z := hash.toNatBE % order
    match combine (z * w % order) (r * w % order) key with
    | .infinity => false
    | .affine x _ => x.val % order == r

/-! ### Schnorr -/

/-- Reads a 32-byte key: the coordinate `x` of a point with even `y`. -/
def schnorrKey? (b : Bytes) : Option (Point Coord) :=
  lift? b.toNatBE false

/-- Reads a 64-byte signature: a nonzero coordinate and a nonzero scalar. -/
def schnorrSignature? (b : Bytes) : Option (Nat × Nat) :=
  let r := Bytes.toNatBE (b.take 32)
  if r = 0 ∨ prime ≤ r then none else (nonzeroScalar? (b.drop 32)).map fun s => (r, s)

/-- The digest tagged for signature challenges. -/
def challenge (b : Bytes) : Nat :=
  let tag := sha256 "BIP0340/challenge".toUTF8.toList
  (sha256 (tag ++ tag ++ b)).toNatBE % order

/-- Checks a signature of a message of any length. -/
def schnorrVerify (key : Point Coord) (message : Bytes) (signature : Nat × Nat) : Bool :=
  let (r, s) := signature
  match key with
  | .infinity => false
  | .affine px _ =>
    let e := challenge (Bytes.digitsBE 32 r ++ Bytes.digitsBE 32 px.val ++ message)
    match combine s ((order - e) % order) key with
    | .infinity => false
    | .affine x y => !y.isOdd && x.val == r

end PlutusCek.Crypto.Secp256k1
