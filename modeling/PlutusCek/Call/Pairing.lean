import PlutusCek.Call
import PlutusCek.Crypto.Bls12381.HashToGroup

/-!
# Call.Pairing — the two curve groups and the pairing

Both groups have the same operations; `Group` holds what differs.
-/

namespace PlutusCek.Call

open Crypto Crypto.Bls12381

/-- A curve group as a type of constants. -/
structure Group (F : Type) where
  name : String
  type : ConstType
  read : Value → Except Failure (Point F)
  point? : Constant → Option (Point F)
  wrap : Point F → Constant
  length : Nat
  compress : Point F → Bytes
  uncompress? : Bytes → Option (Point F)
  hash : Bytes → Bytes → Point F

/-- The first group. -/
def Group.first : Group Fp where
  name := "G1"
  type := .g1
  read := Value.asG1
  point?
    | .g1 p => some p
    | _ => none
  wrap := .g1
  length := 48
  compress := compressG1
  uncompress? := uncompressG1?
  hash := hashToG1

/-- The second group. -/
def Group.second : Group Fp2 where
  name := "G2"
  type := .g2
  read := Value.asG2
  point?
    | .g2 p => some p
    | _ => none
  wrap := .g2
  length := 96
  compress := compressG2
  uncompress? := uncompressG2?
  hash := hashToG2

section Generic

variable {F : Type} [CoordinateField F] [DecidableEq F]

/-- The sum of two points. -/
def addPoints (g : Group F) : List Value → Except Failure Call
  | [a, b] => do
    let p ← g.read a
    let q ← g.read b
    return total (sizes [a.size, b.size]) fun _ => g.wrap (p.add q)
  | _ => .error .malformedCall

/-- The inverse of a point. -/
def negPoint (g : Group F) : List Value → Except Failure Call
  | [a] => do
    let p ← g.read a
    return total (sizes [a.size]) fun _ => g.wrap p.neg
  | _ => .error .malformedCall

/-- A multiple of a point. -/
def scalePoint (g : Group F) : List Value → Except Failure Call
  | [i, a] => do
    let n ← i.asInteger
    let p ← g.read a
    return total (sizes [Size.integer n, a.size]) fun _ => g.wrap (scaleInt n p)
  | _ => .error .malformedCall

/-- Equality of points. -/
def equalPoints (g : Group F) : List Value → Except Failure Call
  | [a, b] => do
    let p ← g.read a
    let q ← g.read b
    return total (sizes [a.size, b.size]) fun _ => .bool (decide (p = q))
  | _ => .error .malformedCall

/-- The encoding of a point. -/
def compressPoint (g : Group F) : List Value → Except Failure Call
  | [a] => do
    let p ← g.read a
    return total (sizes [a.size]) fun _ => .bytes (g.compress p)
  | _ => .error .malformedCall

/-- The point with an encoding. -/
def uncompressPoint (fn : Builtin) (g : Group F) : List Value → Except Failure Call
  | [a] => do
    let b ← a.asBytes
    return guarded fn (sizes [Size.bytes b]) fun _ =>
      if b.length ≠ g.length then
        .error (.invalidLength ("compressed " ++ g.name ++ " point") g.length b.length)
      else
        match g.uncompress? b with
        | some p => .ok (g.wrap p)
        | none => .error (.uncompress g.name)
  | _ => .error .malformedCall

/-- A message to a point, under a domain separation tag. -/
def hashToPoint (fn : Builtin) (g : Group F) : List Value → Except Failure Call
  | [m, d] => do
    let message ← m.asBytes
    let tag ← d.asBytes
    return guarded fn (sizes [Size.bytes message, Size.bytes tag]) fun _ =>
      if 255 < tag.length then .error (.tagTooLong tag.length)
      else .ok (g.wrap (g.hash message tag))
  | _ => .error .malformedCall

/-- Adds multiples of points to a point, until either list ends. -/
def addMultiples (g : Group F) (acc : Point F) :
    List Constant → List Constant → Except Failure (Point F)
  | s :: ss, p :: ps =>
    match s with
    | .integer n =>
      match g.point? p with
      | some q => addMultiples g (acc.add (scaleInt n q)) ss ps
      | none => .error (Value.mismatch g.type.render p)
    | c => .error (Value.mismatch "integer" c)
  | _, _ => .ok acc

/-- A sum of multiples of points. -/
def multiScale (g : Group F) : List Value → Except Failure Call
  | [s, p] => do
    let scalars ← s.asListOf .integer
    let points ← p.asListOf g.type
    return checked (sizes [Size.count scalars.length, Size.count points.length]) fun _ =>
      (addMultiples g .infinity scalars points).map g.wrap
  | _ => .error .malformedCall

end Generic

/-- The Miller loop of two points. -/
def miller : List Value → Except Failure Call
  | [a, b] => do
    let p ← a.asG1
    let q ← b.asG2
    return total (sizes [a.size, b.size]) fun _ => .miller (millerLoop p q)
  | _ => .error .malformedCall

/-- The product of two pairing results. -/
def mulMiller : List Value → Except Failure Call
  | [a, b] => do
    let x ← a.asMiller
    let y ← b.asMiller
    return total (sizes [a.size, b.size]) fun _ => .miller (x.mul y)
  | _ => .error .malformedCall

/-- Whether two pairing results agree. -/
def finalVerify : List Value → Except Failure Call
  | [a, b] => do
    let x ← a.asMiller
    let y ← b.asMiller
    return total (sizes [a.size, b.size]) fun _ => .bool (x.agrees y)
  | _ => .error .malformedCall

end PlutusCek.Call
