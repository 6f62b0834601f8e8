import PlutusCek.Call

/-!
# Call.Structure — choices, traces, pairs, lists and arrays
-/

namespace PlutusCek.Call

/-- One of two operands by a truth value. -/
def ifThenElse : List Value → Except Failure Call
  | [c, a, b] => do
    let cond ← c.asBool
    return select (sizesOfArgs [c, a, b]) (if cond then a else b)
  | _ => .error .malformedCall

/-- The operand after the unit. -/
def chooseUnit : List Value → Except Failure Call
  | [u, a] => do
    u.asUnit
    return select (sizesOfArgs [u, a]) a
  | _ => .error .malformedCall

/-- Logs a message and gives the other operand. -/
def trace : List Value → Except Failure Call
  | [s, a] => do
    let message ← s.asString
    return ⟨sizesOfArgs [s, a], fun _ => .ok ⟨a, some message⟩⟩
  | _ => .error .malformedCall

/-! ### Pairs -/

/-- The first component. -/
def fstPair : List Value → Except Failure Call
  | [p] => do
    let (a, _) ← p.asPair
    return total (sizesOfArgs [p]) fun _ => a
  | _ => .error .malformedCall

/-- The second component. -/
def sndPair : List Value → Except Failure Call
  | [p] => do
    let (_, b) ← p.asPair
    return total (sizesOfArgs [p]) fun _ => b
  | _ => .error .malformedCall

/-! ### Lists -/

/-- One of two operands by whether a list is empty. -/
def chooseList : List Value → Except Failure Call
  | [l, a, b] => do
    let (_, items) ← l.asList
    return select (sizesOfArgs [l, a, b]) (if items.isEmpty then a else b)
  | _ => .error .malformedCall

/-- An item in front of a list that is declared with its type. -/
def mkCons : List Value → Except Failure Call
  | [h, l] => do
    let (t, items) ← l.asList
    let c ← h.asConstant t.render
    if c.type ≠ t then throw (Value.mismatch t.render c)
    return total (sizesOfArgs [h, l]) fun _ => .list t (c :: items)
  | _ => .error .malformedCall

/-- The first item. -/
def headList (fn : Builtin) : List Value → Except Failure Call
  | [l] => do
    let (_, items) ← l.asList
    return guarded fn (sizesOfArgs [l]) fun _ =>
      match items with
      | c :: _ => .ok c
      | [] => .error .emptyList
  | _ => .error .malformedCall

/-- All items but the first. -/
def tailList (fn : Builtin) : List Value → Except Failure Call
  | [l] => do
    let (t, items) ← l.asList
    return guarded fn (sizesOfArgs [l]) fun _ =>
      match items with
      | _ :: rest => .ok (.list t rest)
      | [] => .error .emptyList
  | _ => .error .malformedCall

/-- Whether a list is empty. -/
def nullList : List Value → Except Failure Call
  | [l] => do
    let (_, items) ← l.asList
    return total (sizesOfArgs [l]) fun _ => .bool items.isEmpty
  | _ => .error .malformedCall

/-- The sizes of a number of items to drop and of a list. -/
def dropSizes (n : Int) (l : Value) : Nat → Amount
  | 0 => Size.magnitude n
  | 1 => l.size
  | _ => 0

/-- A list without its first items; a negative number drops none. -/
def dropList : List Value → Except Failure Call
  | [n, l] => do
    let count ← n.asInteger
    let (t, items) ← l.asList
    return total (dropSizes count l) fun _ => .list t (items.drop count.toNat)
  | _ => .error .malformedCall

/-! ### Arrays -/

/-- The length of an array. -/
def lengthOfArray : List Value → Except Failure Call
  | [a] => do
    let (_, items) ← a.asArray
    return total (sizes [a.size]) fun _ => .integer items.length
  | _ => .error .malformedCall

/-- A list as an array. -/
def listToArray : List Value → Except Failure Call
  | [l] => do
    let (t, items) ← l.asList
    return total (sizes [Size.count items.length]) fun _ => .array t items
  | _ => .error .malformedCall

/-- The item at a position. -/
def indexArray (fn : Builtin) : List Value → Except Failure Call
  | [a, i] => do
    let (_, items) ← a.asArray
    let index ← i.asInteger
    return guarded fn (sizes [a.size, Size.integer index]) fun _ =>
      if index < 0 then .error (.indexOutOfBounds index items.length)
      else
        match items[index.toNat]? with
        | some c => .ok c
        | none => .error (.indexOutOfBounds index items.length)
  | _ => .error .malformedCall

end PlutusCek.Call
