import PlutusCek.Call

/-!
# Call.Text — strings and their encoding
-/

namespace PlutusCek

/-- The UTF-8 encoding of a string. -/
def encodeUtf8 (s : String) : Bytes :=
  s.toUTF8.toList

/-- The string with a given UTF-8 encoding. -/
def decodeUtf8? (b : Bytes) : Option String :=
  String.fromUTF8? b.toByteArray

namespace Call

/-- Concatenation. -/
def appendString : List Value → Except Failure Call
  | [a, b] => do
    let x ← a.asString
    let y ← b.asString
    return total (sizes [Size.string x, Size.string y]) fun _ => .string (x ++ y)
  | _ => .error .malformedCall

/-- Equality. -/
def equalsString : List Value → Except Failure Call
  | [a, b] => do
    let x ← a.asString
    let y ← b.asString
    return total (sizes [Size.string x, Size.string y]) fun _ => .bool (x == y)
  | _ => .error .malformedCall

/-- A string to bytes. -/
def encodeString : List Value → Except Failure Call
  | [a] => do
    let s ← a.asString
    return total (sizes [Size.string s]) fun _ => .bytes (encodeUtf8 s)
  | _ => .error .malformedCall

/-- Bytes to a string. -/
def decodeString (fn : Builtin) : List Value → Except Failure Call
  | [a] => do
    let b ← a.asBytes
    return guarded fn (sizes [Size.bytes b]) fun _ =>
      match decodeUtf8? b with
      | some s => .ok (.string s)
      | none => .error .invalidUtf8
  | _ => .error .malformedCall

end Call

end PlutusCek
