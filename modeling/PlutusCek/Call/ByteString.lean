import PlutusCek.Bits
import PlutusCek.Call

/-!
# Call.ByteString — byte strings: parts, comparison, conversion, bits
-/

namespace PlutusCek

/-- The longest byte string that a conversion or repetition makes. -/
def maxConversionBytes : Nat := 8192

/-- A number as a byte if it is one; under wrapping semantics it is reduced first. -/
def byteOf? (semantics : Semantics) (n : Int) : Option UInt8 :=
  match semantics with
  | .wrapping => some (UInt8.ofNat (n % 256).toNat)
  | .checked => if 0 ≤ n ∧ n < 256 then some (UInt8.ofNat n.toNat) else none

/-- The bytes of a number in either order: exactly `width` of them, or as few as possible if the
width is zero. -/
def bytesOfInteger (bigEndian : Bool) (width n : Int) : Except Refusal Bytes :=
  if width < 0 ∨ (maxConversionBytes : Int) < width then .error (.invalidSize width)
  else if n < 0 then .error (.negativeInteger n)
  else
    let w := width.toNat
    let digits := Bytes.ofNatLE n.toNat
    let limit := if w = 0 then maxConversionBytes else w
    if limit < digits.length then .error (.integerTooWide n)
    else
      let padded := digits ++ List.replicate (w - digits.length) 0
      .ok (if bigEndian then padded.reverse else padded)

/-- The number a byte string stands for in either order. -/
def integerOfBytes (bigEndian : Bool) (b : Bytes) : Int :=
  if bigEndian then b.toNatBE else b.toNatLE

/-- A byte repeated. -/
def replicateByte (count byte : Int) : Except Refusal Bytes :=
  if count < 0 ∨ (maxConversionBytes : Int) < count then .error (.invalidSize count)
  else
    match byteOf? .checked byte with
    | some x => .ok (List.replicate count.toNat x)
    | none => .error (.byteOutOfRange byte)

namespace Call

/-- Concatenation. -/
def appendBytes : List Value → Except Failure Call
  | [a, b] => do
    let x ← a.asBytes
    let y ← b.asBytes
    return total (sizes [Size.bytes x, Size.bytes y]) fun _ => .bytes (x ++ y)
  | _ => .error .malformedCall

/-- A byte in front. -/
def consByte (fn : Builtin) (semantics : Semantics) : List Value → Except Failure Call
  | [a, b] => do
    let n ← a.asInteger
    let x ← b.asBytes
    return guarded fn (sizes [Size.integer n, Size.bytes x]) fun _ =>
      match byteOf? semantics n with
      | some byte => .ok (.bytes (byte :: x))
      | none => .error (.byteOutOfRange n)
  | _ => .error .malformedCall

/-- The part from a start, of a length; both are cut to what there is. -/
def sliceBytes : List Value → Except Failure Call
  | [s, n, b] => do
    let start ← s.asInteger
    let length ← n.asInteger
    let x ← b.asBytes
    return total (sizes [Size.integer start, Size.integer length, Size.bytes x]) fun _ =>
      .bytes ((x.drop start.toNat).take length.toNat)
  | _ => .error .malformedCall

/-- The length. -/
def lengthBytes : List Value → Except Failure Call
  | [b] => do
    let x ← b.asBytes
    return total (sizes [Size.bytes x]) fun _ => .integer x.length
  | _ => .error .malformedCall

/-- The byte at a position. -/
def indexBytes (fn : Builtin) : List Value → Except Failure Call
  | [b, i] => do
    let x ← b.asBytes
    let index ← i.asInteger
    return guarded fn (sizes [Size.bytes x, Size.integer index]) fun _ =>
      if index < 0 then .error (.indexOutOfBounds index x.length)
      else
        match x[index.toNat]? with
        | some byte => .ok (.integer byte.toNat)
        | none => .error (.indexOutOfBounds index x.length)
  | _ => .error .malformedCall

/-- A comparison. -/
def compareBytes (op : Bytes → Bytes → Bool) : List Value → Except Failure Call
  | [a, b] => do
    let x ← a.asBytes
    let y ← b.asBytes
    return total (sizes [Size.bytes x, Size.bytes y]) fun _ => .bool (op x y)
  | _ => .error .malformedCall

/-- An integer to bytes, given byte order and width. -/
def integerToBytes (fn : Builtin) : List Value → Except Failure Call
  | [e, w, i] => do
    let bigEndian ← e.asBool
    let width ← w.asInteger
    let n ← i.asInteger
    return guarded fn (sizes [1, Size.bytesAsWords width, Size.integer n]) fun _ =>
      (bytesOfInteger bigEndian width n).map .bytes
  | _ => .error .malformedCall

/-- Bytes to an integer, given byte order. -/
def bytesToInteger : List Value → Except Failure Call
  | [e, b] => do
    let bigEndian ← e.asBool
    let x ← b.asBytes
    return total (sizes [1, Size.bytes x]) fun _ => .integer (integerOfBytes bigEndian x)
  | _ => .error .malformedCall

/-! ### Bits -/

/-- A logical operation, given whether to pad. -/
def logicalBytes (op : UInt8 → UInt8 → UInt8) : List Value → Except Failure Call
  | [p, a, b] => do
    let pad ← p.asBool
    let x ← a.asBytes
    let y ← b.asBytes
    return total (sizes [1, Size.bytes x, Size.bytes y]) fun _ => .bytes (Bits.logical op pad x y)
  | _ => .error .malformedCall

/-- The complement. -/
def complementBytes : List Value → Except Failure Call
  | [b] => do
    let x ← b.asBytes
    return total (sizes [Size.bytes x]) fun _ => .bytes (Bits.complement x)
  | _ => .error .malformedCall

/-- The bit at an index. -/
def readBit (fn : Builtin) : List Value → Except Failure Call
  | [b, i] => do
    let x ← b.asBytes
    let index ← i.asInteger
    return guarded fn (sizes [Size.bytes x, Size.integer index]) fun _ =>
      match Bits.read? x index with
      | some bit => .ok (.bool bit)
      | none => .error (.bitIndexOutOfRange index)
  | _ => .error .malformedCall

/-- Sets the bits at the indices of a list, one after the other. -/
def writeAll (fn : Builtin) (v : Bool) (b : Bytes) : List Constant → Except Failure Bytes
  | [] => .ok b
  | .integer index :: rest =>
    match Bits.write? b index v with
    | some b' => writeAll fn v b' rest
    | none => .error (.refused fn (.bitIndexOutOfRange index))
  | c :: _ => .error (Value.mismatch "integer" c)

/-- Sets all listed bits. -/
def writeBits (fn : Builtin) : List Value → Except Failure Call
  | [b, l, v] => do
    let x ← b.asBytes
    let indices ← l.asListOf .integer
    let value ← v.asBool
    return checked (sizes [Size.bytes x, Size.count indices.length, 1]) fun _ =>
      (writeAll fn value x indices).map .bytes
  | _ => .error .malformedCall

/-- A byte repeated. -/
def replicateBytes (fn : Builtin) : List Value → Except Failure Call
  | [n, b] => do
    let count ← n.asInteger
    let byte ← b.asInteger
    return guarded fn (sizes [Size.bytesAsWords count, Size.integer byte]) fun _ =>
      (replicateByte count byte).map .bytes
  | _ => .error .malformedCall

/-- A shift or rotation by an integer. -/
def moveBits (op : Bytes → Int → Bytes) : List Value → Except Failure Call
  | [b, i] => do
    let x ← b.asBytes
    let k ← i.asInteger
    return total (sizes [Size.bytes x, Size.magnitude k]) fun _ => .bytes (op x k)
  | _ => .error .malformedCall

/-- A number computed from the bits. -/
def measureBits (op : Bytes → Int) : List Value → Except Failure Call
  | [b] => do
    let x ← b.asBytes
    return total (sizes [Size.bytes x]) fun _ => .integer (op x)
  | _ => .error .malformedCall

end Call

end PlutusCek
