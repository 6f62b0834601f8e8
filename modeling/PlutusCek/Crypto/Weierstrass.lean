import PlutusCek.Crypto.Residue

/-!
# Weierstrass — the group law of curves `y² = x³ + b`

Points are affine or at infinity.  Sums and multiples are computed in Jacobian coordinates, where
`(x, y, z)` stands for `(x / z², y / z³)` and `z = 0` for the point at infinity.
-/

namespace PlutusCek.Crypto

/-- A point of a curve. -/
inductive Point (F : Type) where
  | infinity
  | affine (x y : F)
deriving DecidableEq

/-- A point in Jacobian coordinates. -/
structure Jacobian (F : Type) where
  x : F
  y : F
  z : F

namespace Jacobian

variable {F : Type} [CoordinateField F] [DecidableEq F]

/-- The point at infinity. -/
def infinity : Jacobian F := ⟨1, 1, 0⟩

/-- The Jacobian form of a point. -/
def ofPoint : Point F → Jacobian F
  | .infinity => infinity
  | .affine x y => ⟨x, y, 1⟩

/-- The affine form, by one inversion. -/
def toPoint (a : Jacobian F) : Point F :=
  if a.z = 0 then .infinity
  else
    let i := a.z⁻¹
    let i2 := i * i
    .affine (a.x * i2) (a.y * (i2 * i))

/-- Twice a point. -/
@[specialize] def double (a : Jacobian F) : Jacobian F :=
  let xx := a.x * a.x
  let yy := a.y * a.y
  let yyyy := yy * yy
  let s := (a.x + yy) * (a.x + yy) - xx - yyyy
  let d := s + s
  let e := xx + xx + xx
  let x := e * e - (d + d)
  let y4 := yyyy + yyyy + yyyy + yyyy
  let yz := a.y * a.z
  ⟨x, e * (d - x) - (y4 + y4), yz + yz⟩

/-- The sum of two points. -/
@[specialize] def add (a b : Jacobian F) : Jacobian F :=
  if a.z = 0 then b
  else if b.z = 0 then a
  else
    let za := a.z * a.z
    let zb := b.z * b.z
    let u := a.x * zb
    let v := b.x * za
    let s := a.y * (b.z * zb)
    let t := b.y * (a.z * za)
    if u = v then
      if s = t then double a else infinity
    else
      let h := v - u
      let r := t - s
      let hh := h * h
      let hhh := h * hh
      let w := u * hh
      let x := r * r - hhh - (w + w)
      ⟨x, r * (w - x) - s * hhh, h * (a.z * b.z)⟩

/-- The multiple `n • a`, by doubling. -/
@[specialize] def scale (n : Nat) (a : Jacobian F) : Jacobian F :=
  if n = 0 then infinity
  else
    let rest := scale (n / 2) (double a)
    if n % 2 = 1 then add a rest else rest
termination_by n
decreasing_by omega

end Jacobian

namespace Point

variable {F : Type} [CoordinateField F] [DecidableEq F]

/-- The inverse of a point. -/
def neg : Point F → Point F
  | .infinity => .infinity
  | .affine x y => .affine x (-y)

/-- The sum of two points. -/
def add (a b : Point F) : Point F :=
  ((Jacobian.ofPoint a).add (Jacobian.ofPoint b)).toPoint

/-- The multiple `n • a`. -/
def scale (n : Nat) (a : Point F) : Point F :=
  ((Jacobian.ofPoint a).scale n).toPoint

/-- The right-hand side `x³ + b` of the curve equation. -/
def cubic (b x : F) : F :=
  x * x * x + b

end Point

end PlutusCek.Crypto
