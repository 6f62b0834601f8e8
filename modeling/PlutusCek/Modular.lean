/-!
# Modular — powers and inverses modulo a number

These stand for the modular power and the modular inverse of a library of big integers, as far as
their documentation says what they give.  The power is the remainder of `b ^ e` on division by a
positive `m`, rounded like a floor division: it lies in `[0, m)` whatever the sign of `b`, so a
negative base comes to its remainder `b % m`, which is not negative either.  The inverse is the
number in `[0, m)` whose product with the base leaves the remainder 1, and there is none exactly if
the base and `m` have a common divisor.  How the library computes them is not documented; here it is
repeated squaring and the extended algorithm of Euclid.
-/

namespace PlutusCek

/-- `b ^ e` modulo `m`, for a base that has been reduced, by repeated squaring. -/
def powMod (m b e : Nat) : Nat :=
  if e = 0 then 1 % m
  else
    let s := powMod m (b * b % m) (e / 2)
    if e % 2 = 1 then b * s % m else s
termination_by e
decreasing_by omega

/-- Extended Euclid.  Keeps `r` and `r'` as the multiples `t` and `t'` of the first argument
modulo the second, and returns the greatest common divisor with its multiplier. -/
def bezout (r r' : Nat) (t t' : Int) : Nat × Int :=
  if r' = 0 then (r, t) else bezout r' (r % r') t' (t - (r / r' : Nat) * t')
termination_by r'
decreasing_by exact Nat.mod_lt _ (by omega)

/-- The inverse of `a` modulo `m`, if the two are coprime. -/
def invMod? (a m : Nat) : Option Nat :=
  match bezout (a % m) m 1 0 with
  | (g, t) => if g = 1 then some (t % m).toNat else none

/-- Why a modular power is undefined. -/
inductive PowerFault where
  | modulusNotPositive
  | notInvertible
deriving DecidableEq

/-- The wording of a fault. -/
def PowerFault.message : PowerFault → String
  | .modulusNotPositive => "modulus must be positive"
  | .notInvertible => "base is not invertible"

/-- The power `b ^ e` modulo `m`, in `[0, m)`; a negative exponent raises the inverse of `b`.  The
base is reduced by the floor remainder first, whatever its sign. -/
def modularPower (b e m : Int) : Except PowerFault Int :=
  if m ≤ 0 then .error .modulusNotPositive
  else if m = 1 then .ok 0
  else
    let base := (b % m).toNat
    let modulus := m.toNat
    match e with
    | .ofNat k => .ok (powMod modulus base k)
    | .negSucc k =>
      match invMod? base modulus with
      | some i => .ok (powMod modulus i (k + 1))
      | none => .error .notInvertible

end PlutusCek
