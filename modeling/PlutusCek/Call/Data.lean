import PlutusCek.Call
import PlutusCek.Data.Cbor

/-!
# Call.Data — building, taking apart, comparing and encoding data
-/

namespace PlutusCek.Call

/-- The data of a constant. -/
def dataOf : Constant → Except Failure Data
  | .data d => .ok d
  | c => .error (Value.mismatch "data" c)

/-- The data of the items of a list. -/
def dataItems : List Constant → Except Failure (List Data)
  | [] => .ok []
  | c :: cs => do
    let d ← dataOf c
    let ds ← dataItems cs
    return d :: ds

/-- The type of pairs of data. -/
def dataPairType : ConstType := .pair .data .data

/-- The keys and values of the pairs of a list. -/
def dataEntries : List Constant → Except Failure (List (Data × Data))
  | [] => .ok []
  | .pair _ _ a b :: cs => do
    let k ← dataOf a
    let v ← dataOf b
    let es ← dataEntries cs
    return (k, v) :: es
  | c :: _ => .error (Value.mismatch dataPairType.render c)

/-- One of five operands by the form of data. -/
def chooseData : List Value → Except Failure Call
  | [x, onConstr, onMap, onList, onInteger, onBytes] => do
    let d ← x.asData
    let size := sizesOfArgs [x, onConstr, onMap, onList, onInteger, onBytes]
    return select size
      (match d with
        | .constr _ _ => onConstr
        | .map _ => onMap
        | .list _ => onList
        | .integer _ => onInteger
        | .bytes _ => onBytes)
  | _ => .error .malformedCall

/-- A constructor from a tag and a list of fields. -/
def constrData : List Value → Except Failure Call
  | [t, f] => do
    let tag ← t.asInteger
    let fields ← f.asListOf .data
    return checked (sizesOfArgs [t, f]) fun _ =>
      (dataItems fields).map fun ds => .data (.constr tag ds)
  | _ => .error .malformedCall

/-- A map from a list of pairs. -/
def mapData : List Value → Except Failure Call
  | [m] => do
    let entries ← m.asListOf dataPairType
    return checked (sizesOfArgs [m]) fun _ => (dataEntries entries).map fun es => .data (.map es)
  | _ => .error .malformedCall

/-- A list of data as data. -/
def listData : List Value → Except Failure Call
  | [l] => do
    let items ← l.asListOf .data
    return checked (sizesOfArgs [l]) fun _ => (dataItems items).map fun ds => .data (.list ds)
  | _ => .error .malformedCall

/-- An integer as data. -/
def integerData : List Value → Except Failure Call
  | [i] => do
    let n ← i.asInteger
    return total (sizesOfArgs [i]) fun _ => .data (.integer n)
  | _ => .error .malformedCall

/-- A byte string as data. -/
def bytesData : List Value → Except Failure Call
  | [b] => do
    let x ← b.asBytes
    return total (sizesOfArgs [b]) fun _ => .data (.bytes x)
  | _ => .error .malformedCall

/-- Takes data of one form apart. -/
def takeData (fn : Builtin) (wanted : String) (part : Data → Option Constant) :
    List Value → Except Failure Call
  | [x] => do
    let d ← x.asData
    return guarded fn (sizesOfArgs [x]) fun _ =>
      match part d with
      | some c => .ok c
      | none => .error (.unexpectedData wanted)
  | _ => .error .malformedCall

/-- The tag and fields of a constructor. -/
def constrParts : Data → Option Constant
  | .constr tag fields => some (.pairOf (.integer tag) (.dataList fields))
  | _ => none

/-- The entries of a map. -/
def mapParts : Data → Option Constant
  | .map entries => some (.dataPairs entries)
  | _ => none

/-- The items of a list. -/
def listParts : Data → Option Constant
  | .list items => some (.dataList items)
  | _ => none

/-- An integer. -/
def integerPart : Data → Option Constant
  | .integer n => some (.integer n)
  | _ => none

/-- A byte string. -/
def bytesPart : Data → Option Constant
  | .bytes b => some (.bytes b)
  | _ => none

/-- Equality, sized by the comparison. -/
def equalsData : List Value → Except Failure Call
  | [a, b] => do
    let x ← a.asData
    let y ← b.asData
    let size := Size.comparison x y
    return total (sizes [size, size]) fun _ => .bool (x == y)
  | _ => .error .malformedCall

/-- A pair of data. -/
def mkPairData : List Value → Except Failure Call
  | [a, b] => do
    let x ← a.asData
    let y ← b.asData
    return total (sizesOfArgs [a, b]) fun _ => .pairOf (.data x) (.data y)
  | _ => .error .malformedCall

/-- An empty list declared with an item type. -/
def mkNil (t : ConstType) : List Value → Except Failure Call
  | [u] => do
    u.asUnit
    return total (sizesOfArgs [u]) fun _ => .list t []
  | _ => .error .malformedCall

/-- The binary encoding. -/
def serialiseData : List Value → Except Failure Call
  | [x] => do
    let d ← x.asData
    return total (sizesOfArgs [x]) fun _ => .bytes (Cbor.encode d)
  | _ => .error .malformedCall

end PlutusCek.Call
