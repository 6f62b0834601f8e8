import PlutusCek.Crypto.Residue
import PlutusCek.Crypto.Sha2

/-!
# Ed25519 — signature verification on the twisted Edwards curve `-x² + y² = 1 + d x² y²`

Verification is cofactorless: the point computed from the signature is encoded again and compared
with the encoding the signature carries.
-/

namespace PlutusCek.Crypto.Ed25519

/-- The prime of the coordinate field. -/
def prime : Nat :=
  0x7fffffffffffffffffffffffffffffffffffffffffffffffffffffffffffffed

/-- The order of the base point. -/
def order : Nat :=
  0x1000000000000000000000000000000014def9dea2f79cd65812631a5cf5d3ed

/-- A coordinate. -/
abbrev Coord := Residue prime

/-- The curve constant `d`. -/
def d : Coord :=
  ⟨37095705934669439343138083508754565189542113879843219016388785533085940283555⟩

/-- A square root of `-1`. -/
def rootMinusOne : Coord :=
  ⟨19681161376707505956807079304988542015446066515923890162744021073123829784752⟩

/-- A point `(x / z, y / z)` with `t = x y / z`. -/
structure Extended where
  x : Coord
  y : Coord
  z : Coord
  t : Coord

/-- The neutral point. -/
def Extended.neutral : Extended := ⟨0, 1, 1, 0⟩

/-- The base point. -/
def Extended.base : Extended :=
  let x : Coord := ⟨15112221349535400772501151409588531511454012693041857206046113283949847762202⟩
  let y : Coord := ⟨46316835694926478169428394003475163141307993866256225615783033603165251855960⟩
  ⟨x, y, 1, x * y⟩

/-- The sum of two points; the formula has no exceptions. -/
def Extended.add (p q : Extended) : Extended :=
  let a := (p.y - p.x) * (q.y - q.x)
  let b := (p.y + p.x) * (q.y + q.x)
  let c := p.t * (d + d) * q.t
  let e := p.z * (q.z + q.z)
  let f := b - a
  let g := e - c
  let h := e + c
  let i := b + a
  ⟨f * g, h * i, g * h, f * i⟩

/-- The inverse of a point. -/
def Extended.neg (p : Extended) : Extended := ⟨-p.x, p.y, p.z, -p.t⟩

/-- The multiple `n • p`, by doubling. -/
def Extended.scale (n : Nat) (p : Extended) : Extended :=
  if n = 0 then neutral
  else
    let rest := scale (n / 2) (p.add p)
    if n % 2 = 1 then p.add rest else rest
termination_by n
decreasing_by omega

/-- The weight of the top bit of an encoding. -/
def signBit : Nat :=
  0x8000000000000000000000000000000000000000000000000000000000000000

/-- The 32-byte encoding: `y`, with the parity of `x` in the top bit. -/
def Extended.encode (p : Extended) : Bytes :=
  let i := p.z⁻¹
  let x := p.x * i
  let y := p.y * i
  Bytes.digitsLE 32 (y.val + x.val % 2 * signBit)

/-- A root of `u / v`, if it is a square. -/
def sqrtRatio? (u v : Coord) : Option Coord :=
  let w := u * v⁻¹
  let r := w.pow ((prime + 3) / 8)
  if r * r = w then some r
  else
    let r := r * rootMinusOne
    if r * r = w then some r else none

/-- The point with a given encoding.  The coordinate `y` is taken modulo the prime, and either
sign is accepted when `x` is zero. -/
def decode? (key : Bytes) : Option Extended :=
  let n := key.toNatLE
  let y : Coord := Residue.ofNat (n % signBit)
  let yy := y * y
  match sqrtRatio? (yy - 1) (d * yy + 1) with
  | none => none
  | some r =>
    let x := if r.isOdd == decide (n / signBit % 2 = 1) then r else -r
    some ⟨x, y, 1, x * y⟩

/-- Checks a 64-byte signature under the key `key`, which encodes the point `a`. -/
def verify (key : Bytes) (a : Extended) (message signature : Bytes) : Bool :=
  let r := signature.take 32
  let s := Bytes.toNatLE (signature.drop 32)
  if order ≤ s then false
  else
    let k := (sha512 (r ++ key ++ message)).toNatLE % order
    ((Extended.base.scale s).add (a.neg.scale k)).encode == r

end PlutusCek.Crypto.Ed25519
