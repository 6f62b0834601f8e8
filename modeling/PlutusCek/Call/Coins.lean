import PlutusCek.Call

/-!
# Call.Coins — bundles of assets
-/

namespace PlutusCek.Call

/-- A bundle, or the refusal of its error. -/
def bundle : Except AssetError Assets → Except Refusal Constant
  | .ok a => .ok (.assets a)
  | .error e => .error (.assets e)

/-- Sets the quantity of a token. -/
def insertCoin (fn : Builtin) : List Value → Except Failure Call
  | [c, t, q, v] => do
    let currency ← c.asBytes
    let token ← t.asBytes
    let quantity ← q.asInteger
    let a ← v.asAssets
    let size := sizes [Size.bytes currency, Size.bytes token, Size.integer quantity, v.size]
    return guarded fn size fun _ => bundle (a.inserted currency token quantity)
  | _ => .error .malformedCall

/-- The quantity of a token. -/
def lookupCoin : List Value → Except Failure Call
  | [c, t, v] => do
    let currency ← c.asBytes
    let token ← t.asBytes
    let a ← v.asAssets
    return total (sizes [Size.bytes currency, Size.bytes token, v.size]) fun _ =>
      .integer (a.lookup currency token)
  | _ => .error .malformedCall

/-- The sum of two bundles. -/
def unionValue (fn : Builtin) : List Value → Except Failure Call
  | [v, w] => do
    let a ← v.asAssets
    let b ← w.asAssets
    return guarded fn (sizes [v.size, w.size]) fun _ => bundle (a.union b)
  | _ => .error .malformedCall

/-- Whether the first bundle covers the second. -/
def valueContains : List Value → Except Failure Call
  | [v, w] => do
    let a ← v.asAssets
    let b ← w.asAssets
    return total (sizes [v.size, w.size]) fun _ => .bool (a.contains b)
  | _ => .error .malformedCall

/-- A bundle as data. -/
def valueData : List Value → Except Failure Call
  | [v] => do
    let a ← v.asAssets
    return total (sizes [v.size]) fun _ => .data a.toData
  | _ => .error .malformedCall

/-- A bundle from data. -/
def unValueData (fn : Builtin) : List Value → Except Failure Call
  | [x] => do
    let d ← x.asData
    return guarded fn (sizes [x.size]) fun _ => bundle (Assets.ofData d)
  | _ => .error .malformedCall

/-- A multiple of a bundle. -/
def scaleValue (fn : Builtin) : List Value → Except Failure Call
  | [i, v] => do
    let n ← i.asInteger
    let a ← v.asAssets
    return guarded fn (sizes [Size.integer n, v.size]) fun _ => bundle (a.scale n)
  | _ => .error .malformedCall

end PlutusCek.Call
