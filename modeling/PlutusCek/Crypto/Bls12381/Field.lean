import PlutusCek.Crypto.Residue

/-!
# Field — the tower of fields under the pairing

`Fp` is the prime field, `Fp2 = Fp[u] / (u² + 1)`, `Fp6 = Fp2[v] / (v³ - (1 + u))` and
`Fp12 = Fp6[w] / (w² - v)`.
-/

namespace PlutusCek.Crypto.Bls12381

/-- The prime of the base field. -/
def prime : Nat :=
  0x1a0111ea397fe69a4b1ba7b6434bacd764774b84f38512bf6730d2a0f6b0f6241eabfffeb153ffffb9feffffffffaaab

/-- The order of the groups. -/
def order : Nat := 0x73eda753299d7d483339d80809a1d80553bda402fffe5bfeffffffff00000001

/-- The prime field. -/
abbrev Fp := Residue prime

/-! ### The quadratic extension -/

/-- The element `c0 + c1 u`. -/
structure Fp2 where
  c0 : Fp
  c1 : Fp
deriving DecidableEq

namespace Fp2

/-- The product, by three products of coordinates. -/
def mul (a b : Fp2) : Fp2 :=
  let l := a.c0 * b.c0
  let h := a.c1 * b.c1
  ⟨l - h, (a.c0 + a.c1) * (b.c0 + b.c1) - l - h⟩

/-- The conjugate over the norm. -/
def inv (a : Fp2) : Fp2 :=
  let n := (a.c0 * a.c0 + a.c1 * a.c1)⁻¹
  ⟨a.c0 * n, -(a.c1 * n)⟩

instance : CoordinateField Fp2 where
  add a b := ⟨a.c0 + b.c0, a.c1 + b.c1⟩
  sub a b := ⟨a.c0 - b.c0, a.c1 - b.c1⟩
  mul := mul
  neg a := ⟨-a.c0, -a.c1⟩
  zero := ⟨0, 0⟩
  one := ⟨1, 0⟩
  inv := inv

/-- The product with `1 + u`. -/
def mulXi (a : Fp2) : Fp2 := ⟨a.c0 - a.c1, a.c0 + a.c1⟩

/-- A power. -/
def pow (a : Fp2) (e : Nat) : Fp2 :=
  if e = 0 then 1
  else
    let s := pow (a * a) (e / 2)
    if e % 2 = 1 then a * s else s
termination_by e
decreasing_by omega

/-- A square root, if there is one. -/
def sqrt? (a : Fp2) : Option Fp2 :=
  let t := a.pow ((prime - 3) / 4)
  let alpha := t * t * a
  let x := t * a
  let root : Fp2 :=
    if alpha = -1 then ⟨-x.c1, x.c0⟩ else (alpha + 1).pow ((prime - 1) / 2) * x
  if root * root = a then some root else none

/-- The lexicographic sign: the upper coordinate decides unless it is zero. -/
def isLarge (a : Fp2) : Bool :=
  a.c1.isLarge || (a.c1 == 0 && a.c0.isLarge)

/-- The parity sign: the lower coordinate decides unless it is zero. -/
def isOdd (a : Fp2) : Bool :=
  a.c0.isOdd || (a.c0 == 0 && a.c1.isOdd)

end Fp2

/-! ### The sextic extension -/

/-- The element `c0 + c1 v + c2 v²`. -/
structure Fp6 where
  c0 : Fp2
  c1 : Fp2
  c2 : Fp2
deriving DecidableEq

namespace Fp6

instance : Add Fp6 := ⟨fun a b => ⟨a.c0 + b.c0, a.c1 + b.c1, a.c2 + b.c2⟩⟩

instance : Sub Fp6 := ⟨fun a b => ⟨a.c0 - b.c0, a.c1 - b.c1, a.c2 - b.c2⟩⟩

instance : Neg Fp6 := ⟨fun a => ⟨-a.c0, -a.c1, -a.c2⟩⟩

/-- The product, by six products of coordinates. -/
def mul (a b : Fp6) : Fp6 :=
  let t0 := a.c0 * b.c0
  let t1 := a.c1 * b.c1
  let t2 := a.c2 * b.c2
  ⟨t0 + ((a.c1 + a.c2) * (b.c1 + b.c2) - t1 - t2).mulXi,
    (a.c0 + a.c1) * (b.c0 + b.c1) - t0 - t1 + t2.mulXi,
    (a.c0 + a.c2) * (b.c0 + b.c2) - t0 - t2 + t1⟩

instance : Mul Fp6 := ⟨mul⟩

/-- The product with `v`. -/
def mulV (a : Fp6) : Fp6 := ⟨a.c2.mulXi, a.c0, a.c1⟩

/-- The inverse, through the norm to `Fp2`. -/
def inv (a : Fp6) : Fp6 :=
  let t0 := a.c0 * a.c0 - (a.c1 * a.c2).mulXi
  let t1 := (a.c2 * a.c2).mulXi - a.c0 * a.c1
  let t2 := a.c1 * a.c1 - a.c0 * a.c2
  let n := (a.c0 * t0 + (a.c2 * t1 + a.c1 * t2).mulXi)⁻¹
  ⟨t0 * n, t1 * n, t2 * n⟩

end Fp6

/-! ### The target field -/

/-- The element `c0 + c1 w`. -/
structure Fp12 where
  c0 : Fp6
  c1 : Fp6
deriving DecidableEq

namespace Fp12

/-- One. -/
def one : Fp12 := ⟨⟨1, 0, 0⟩, ⟨0, 0, 0⟩⟩

/-- The product, by three products of coordinates. -/
def mul (a b : Fp12) : Fp12 :=
  let l := a.c0 * b.c0
  let h := a.c1 * b.c1
  ⟨l + h.mulV, (a.c0 + a.c1) * (b.c0 + b.c1) - l - h⟩

instance : Mul Fp12 := ⟨mul⟩

/-- The conjugate over `Fp6`, which is the power `prime ^ 6`. -/
def conj (a : Fp12) : Fp12 := ⟨a.c0, -a.c1⟩

/-- The inverse, through the norm to `Fp6`. -/
def inv (a : Fp12) : Fp12 :=
  let n := (a.c0 * a.c0 - (a.c1 * a.c1).mulV).inv
  ⟨a.c0 * n, -(a.c1 * n)⟩

/-- A power. -/
def pow (a : Fp12) (e : Nat) : Fp12 :=
  if e = 0 then one
  else
    let s := pow (a * a) (e / 2)
    if e % 2 = 1 then a * s else s
termination_by e
decreasing_by omega

end Fp12

end PlutusCek.Crypto.Bls12381
