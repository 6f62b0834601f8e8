import PlutusCek.Modular

/-!
# Residue — arithmetic modulo a prime

`Residue p` holds a representative below `p`.  `CoordinateField` collects what the curve formulas
ask of the field their coordinates come from.
-/

namespace PlutusCek.Crypto

/-- A residue class modulo `p`, given by its representative below `p`. -/
structure Residue (p : Nat) where
  val : Nat
deriving DecidableEq

/-- The operations of a coordinate field. -/
class CoordinateField (F : Type) extends Add F, Sub F, Mul F, Neg F, Zero F, One F, Inv F

namespace Residue

variable {p : Nat}

/-- The class of a number. -/
def ofNat (n : Nat) : Residue p := ⟨n % p⟩

/-- A power in the field. -/
def pow (a : Residue p) (e : Nat) : Residue p := ⟨powMod p a.val e⟩

instance : CoordinateField (Residue p) where
  add a b := ⟨(a.val + b.val) % p⟩
  sub a b := ⟨(a.val + (p - b.val)) % p⟩
  mul a b := ⟨(a.val * b.val) % p⟩
  neg a := ⟨(p - a.val) % p⟩
  zero := ⟨0⟩
  one := ⟨1 % p⟩
  inv a := a.pow (p - 2)

/-- A square root for a prime `p ≡ 3 (mod 4)`, if there is one. -/
def sqrt? (a : Residue p) : Option (Residue p) :=
  let s := a.pow ((p + 1) / 4)
  if s * s = a then some s else none

/-- The representative is odd. -/
def isOdd (a : Residue p) : Bool := a.val % 2 == 1

/-- The representative is in the upper half. -/
def isLarge (a : Residue p) : Bool := decide (p / 2 < a.val)

end Residue

end PlutusCek.Crypto
