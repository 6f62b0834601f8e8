import PlutusCek.Call

/-!
# Call.Integer — arithmetic on integers
-/

namespace PlutusCek.Call

/-- The sizes of two integers. -/
def integerSizes (x y : Int) : Nat → Amount :=
  sizes [Size.integer x, Size.integer y]

/-- A binary operation. -/
def arithmetic (op : Int → Int → Int) : List Value → Except Failure Call
  | [a, b] => do
    let x ← a.asInteger
    let y ← b.asInteger
    return total (integerSizes x y) fun _ => .integer (op x y)
  | _ => .error .malformedCall

/-- A division; a zero divisor is refused before any charge. -/
def division (fn : Builtin) (op : Int → Int → Int) : List Value → Except Failure Call
  | [a, b] => do
    let x ← a.asInteger
    let y ← b.asInteger
    if y = 0 then throw (.refused fn .divisionByZero)
    return total (integerSizes x y) fun _ => .integer (op x y)
  | _ => .error .malformedCall

/-- A comparison. -/
def compareIntegers (op : Int → Int → Bool) : List Value → Except Failure Call
  | [a, b] => do
    let x ← a.asInteger
    let y ← b.asInteger
    return total (integerSizes x y) fun _ => .bool (op x y)
  | _ => .error .malformedCall

/-- Modular exponentiation of base, exponent and modulus. -/
def expMod (fn : Builtin) : List Value → Except Failure Call
  | [b, e, m] => do
    let base ← b.asInteger
    let exponent ← e.asInteger
    let modulus ← m.asInteger
    let size := sizes [Size.integer base, Size.integer exponent, Size.integer modulus]
    return guarded fn size fun _ =>
      match modularPower base exponent modulus with
      | .ok r => .ok (.integer r)
      | .error fault => .error (.powerUndefined fault)
  | _ => .error .malformedCall

end PlutusCek.Call
