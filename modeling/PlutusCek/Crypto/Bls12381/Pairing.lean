import PlutusCek.Crypto.Bls12381.Group

/-!
# Pairing — the Miller loop and the final exponentiation

The pairing is the ate pairing with loop parameter `-0xd201000000010000`.  Lines through points of
the twist are scaled by `w³`, a factor of a proper subfield, which the final exponentiation removes.
-/

namespace PlutusCek.Crypto.Bls12381

/-- The output of a Miller loop, before the final exponentiation. -/
structure MillerResult where
  raw : Fp12

/-- The bits of the loop parameter's magnitude below the top one, from the top. -/
def loopBits : List Bool :=
  ((List.range 63).map fun i => Nat.testBit 0xd201000000010000 i).reverse

/-- The line of slope `slope` through the twist point `(x, y)`, evaluated at `(px, py)`. -/
def line (slope x y : Fp2) (px py : Fp) : Fp12 :=
  ⟨⟨slope * x - y, -⟨slope.c0 * px, slope.c1 * px⟩, 0⟩, ⟨0, ⟨py, 0⟩, 0⟩⟩

/-- A point of the twist together with the accumulated value. -/
structure MillerState where
  x : Fp2
  y : Fp2
  f : Fp12

/-- Moves along the line of slope `slope` through the current point to its third intersection
with the curve, negated; `x'` is the coordinate of the other point on the line. -/
def MillerState.advance (s : MillerState) (slope x' : Fp2) (px py : Fp) : MillerState :=
  let x := slope * slope - s.x - x'
  ⟨x, slope * (s.x - x) - s.y, s.f * line slope s.x s.y px py⟩

/-- Doubles the point and squares the value. -/
def MillerState.double (s : MillerState) (px py : Fp) : MillerState :=
  let xx := s.x * s.x
  let slope := (xx + xx + xx) * (s.y + s.y)⁻¹
  MillerState.advance ⟨s.x, s.y, s.f * s.f⟩ slope s.x px py

/-- Adds the point `(qx, qy)`. -/
def MillerState.add (s : MillerState) (qx qy : Fp2) (px py : Fp) : MillerState :=
  s.advance ((qy - s.y) * (qx - s.x)⁻¹) qx px py

/-- The Miller loop; one if either point is at infinity. -/
def millerLoop (p : G1) (q : G2) : MillerResult :=
  match p, q with
  | .affine px py, .affine qx qy =>
    let s := loopBits.foldl
      (fun (s : MillerState) bit =>
        let t := s.double px py
        if bit then t.add qx qy px py else t)
      ⟨qx, qy, Fp12.one⟩
    ⟨s.f.conj⟩
  | _, _ => ⟨Fp12.one⟩

/-- The power `(prime ^ 12 - 1) / order`, which maps into the target group. -/
def finalExponentiation (a : Fp12) : Fp12 :=
  (a.conj * a.inv).pow ((Nat.pow prime 6 + 1) / order)

namespace MillerResult

/-- The product of two results. -/
def mul (a b : MillerResult) : MillerResult := ⟨a.raw * b.raw⟩

/-- Two results agree when they give the same element of the target group. -/
def agrees (a b : MillerResult) : Bool :=
  decide (finalExponentiation a.raw = finalExponentiation b.raw)

end MillerResult

end PlutusCek.Crypto.Bls12381
