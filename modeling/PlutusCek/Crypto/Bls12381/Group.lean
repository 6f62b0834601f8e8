import PlutusCek.Bytes
import PlutusCek.Crypto.Bls12381.Field
import PlutusCek.Crypto.Weierstrass

/-!
# Group — the two groups of the pairing and their compressed encodings

`G1` lies on `y² = x³ + 4` over `Fp`, `G2` on `y² = x³ + 4 (1 + u)` over `Fp2`.  A compressed point
is the big-endian coordinate `x` with three flags in its top bits: compressed, infinity, and `y` in
the upper half.
-/

namespace PlutusCek.Crypto.Bls12381

/-- Points of the first group. -/
abbrev G1 := Point Fp

/-- Points of the second group. -/
abbrev G2 := Point Fp2

/-- The constant of the first curve. -/
def g1B : Fp := ⟨4⟩

/-- The constant of the second curve. -/
def g2B : Fp2 := ⟨⟨4⟩, ⟨4⟩⟩

/-- The multiple of a point by an integer, taken modulo the group order. -/
def scaleInt {F : Type} [CoordinateField F] [DecidableEq F] (n : Int) (p : Point F) : Point F :=
  p.scale (n % (order : Int)).toNat

/-- The point has the order of the group. -/
def inSubgroup {F : Type} [CoordinateField F] [DecidableEq F] (p : Point F) : Bool :=
  match p.scale order with
  | .infinity => true
  | .affine _ _ => false

/-! ### Encoding -/

/-- Sets the flags in the first byte. -/
def withFlags (flags : UInt8) : Bytes → Bytes
  | [] => []
  | b :: bs => (b ||| flags) :: bs

/-- The flags of a finite point. -/
def finiteFlags (large : Bool) : UInt8 :=
  if large then 0xa0 else 0x80

/-- The 48-byte encoding. -/
def compressG1 : G1 → Bytes
  | .infinity => withFlags 0xc0 (List.replicate 48 0)
  | .affine x y => withFlags (finiteFlags y.isLarge) (Bytes.digitsBE 48 x.val)

/-- The 96-byte encoding; the coordinate of `u` comes first. -/
def compressG2 : G2 → Bytes
  | .infinity => withFlags 0xc0 (List.replicate 96 0)
  | .affine x y =>
    withFlags (finiteFlags y.isLarge) (Bytes.digitsBE 48 x.c1.val ++ Bytes.digitsBE 48 x.c0.val)

/-! ### Decoding -/

/-- The flags of an encoding, and the encoding without them. -/
structure Flagged where
  compressed : Bool
  infinity : Bool
  large : Bool
  rest : Bytes

/-- Takes the flags off the first byte. -/
def Flagged.ofBytes : Bytes → Flagged
  | [] => ⟨false, false, false, []⟩
  | b :: bs => ⟨b &&& 0x80 != 0, b &&& 0x40 != 0, b &&& 0x20 != 0, (b &&& 0x1f) :: bs⟩

/-- A field element below the prime. -/
def canonical? (b : Bytes) : Option Fp :=
  let n := Bytes.toNatBE b
  if n < prime then some ⟨n⟩ else none

/-- The point of the curve with coordinate `x`, selected by the flags. -/
def recover? {F : Type} [CoordinateField F] [DecidableEq F] (sqrt? : F → Option F)
    (isLarge : F → Bool) (b : F) (flags : Flagged) (x : F) : Option (Point F) :=
  if flags.infinity && flags.compressed && !flags.large && decide (x = 0) then some .infinity
  else if flags.infinity || !flags.compressed then none
  else
    match sqrt? (Point.cubic b x) with
    | none => none
    | some y =>
      let point := .affine x (if isLarge y == flags.large then y else -y)
      if inSubgroup point then some point else none

/-- The point with a given 48-byte encoding. -/
def uncompressG1? (b : Bytes) : Option G1 :=
  let flags := Flagged.ofBytes b
  (canonical? flags.rest).bind (recover? Residue.sqrt? Residue.isLarge g1B flags)

/-- The point with a given 96-byte encoding. -/
def uncompressG2? (b : Bytes) : Option G2 :=
  let flags := Flagged.ofBytes b
  match canonical? (flags.rest.take 48), canonical? (flags.rest.drop 48) with
  | some c1, some c0 => recover? Fp2.sqrt? Fp2.isLarge g2B flags ⟨c0, c1⟩
  | _, _ => none

end PlutusCek.Crypto.Bls12381
