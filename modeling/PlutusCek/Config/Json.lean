/-!
# Config.Json — reading JSON texts

The reader keeps what a typed reader needs to know: whether a number was written as an integer,
and whether a string is made of Unicode scalar values (an escaped surrogate may stand alone).
-/

namespace PlutusCek

/-- A JSON value. -/
inductive Json where
  | null
  | bool (b : Bool)
  /-- A number written as an integer other than minus zero. -/
  | integer (n : Int)
  /-- Any other number. -/
  | decimal
  /-- A string, if it has a text. -/
  | string (text : Option String)
  | array (items : List Json)
  /-- Fields in order; names may repeat. -/
  | object (fields : List (Option String × Json))
deriving Inhabited

namespace Json

/-- The rest of a text after something was read. -/
abbrev Read (α : Type) := Option (α × List Char)

/-- Drops blanks. -/
def skip (cs : List Char) : List Char :=
  cs.dropWhile fun c => c == ' ' || c == '\n' || c == '\t' || c == '\r'

/-! ### Strings -/

/-- The value of a hexadecimal digit. -/
def hexDigit? (c : Char) : Option Nat :=
  if '0' ≤ c ∧ c ≤ '9' then some (c.toNat - '0'.toNat)
  else if 'a' ≤ c ∧ c ≤ 'f' then some (c.toNat - 'a'.toNat + 10)
  else if 'A' ≤ c ∧ c ≤ 'F' then some (c.toNat - 'A'.toNat + 10)
  else none

/-- The code of four hexadecimal digits. -/
def hexCode? (a b c d : Char) : Option Nat := do
  let a ← hexDigit? a
  let b ← hexDigit? b
  let c ← hexDigit? c
  let d ← hexDigit? d
  return ((a * 16 + b) * 16 + c) * 16 + d

/-- The character of a one-letter escape. -/
def escape? : Char → Option Nat
  | '"' => some 0x22
  | '\\' => some 0x5c
  | '/' => some 0x2f
  | 'b' => some 0x08
  | 'f' => some 0x0c
  | 'n' => some 0x0a
  | 'r' => some 0x0d
  | 't' => some 0x09
  | _ => none

/-- The codes of a string up to its closing quote; `codes` has the ones before, latest first. -/
def stringCodes (codes : List Nat) : List Char → Read (List Nat)
  | '"' :: rest => some (codes.reverse, rest)
  | '\\' :: 'u' :: a :: b :: c :: d :: rest =>
    match hexCode? a b c d with
    | some n => stringCodes (n :: codes) rest
    | none => none
  | '\\' :: c :: rest =>
    match escape? c with
    | some n => stringCodes (n :: codes) rest
    | none => none
  | c :: rest => if c.toNat < 0x20 then none else stringCodes (c.toNat :: codes) rest
  | [] => none

/-- The characters of codes; a surrogate must be part of a pair. -/
def assemble? : List Nat → Option (List Char)
  | [] => some []
  | [n] => if 0xd800 ≤ n ∧ n < 0xe000 then none else some [Char.ofNat n]
  | m :: n :: rest =>
    if 0xd800 ≤ m ∧ m < 0xdc00 then
      if 0xdc00 ≤ n ∧ n < 0xe000 then
        (assemble? rest).map (Char.ofNat (0x10000 + (m - 0xd800) * 0x400 + (n - 0xdc00)) :: ·)
      else none
    else if 0xdc00 ≤ m ∧ m < 0xe000 then none
    else (assemble? (n :: rest)).map (Char.ofNat m :: ·)

/-- A string after its opening quote. -/
def stringBody (cs : List Char) : Read (Option String) :=
  (stringCodes [] cs).map fun (codes, rest) => ((assemble? codes).map String.ofList, rest)

/-! ### Numbers -/

/-- The digits at the front. -/
def digits (cs : List Char) : List Char × List Char :=
  (cs.takeWhile Char.isDigit, cs.dropWhile Char.isDigit)

/-- The number of decimal digits. -/
def decimalValue (ds : List Char) : Nat :=
  ds.foldl (fun n c => 10 * n + (c.toNat - '0'.toNat)) 0

/-- The text after at least one digit. -/
def someDigits (cs : List Char) : Option (List Char) :=
  match digits cs with
  | ([], _) => none
  | (_, rest) => some rest

/-- An exponent after its mark. -/
def exponentTail : List Char → Option (List Char)
  | '+' :: rest => someDigits rest
  | '-' :: rest => someDigits rest
  | rest => someDigits rest

/-- A fraction and an exponent, if any; tells whether there was one. -/
def numberTail (cs : List Char) : Read Bool :=
  let afterExponent (cs : List Char) (seen : Bool) : Read Bool :=
    match cs with
    | 'e' :: rest => (exponentTail rest).map fun r => (true, r)
    | 'E' :: rest => (exponentTail rest).map fun r => (true, r)
    | rest => some (seen, rest)
  match cs with
  | '.' :: rest => (someDigits rest).bind fun r => afterExponent r true
  | rest => afterExponent rest false

/-- A number; a leading zero stands alone. -/
def number (cs : List Char) : Read Json :=
  let (negative, body) := match cs with
    | '-' :: rest => (true, rest)
    | rest => (false, rest)
  let (ds, rest) := match body with
    | '0' :: rest => (['0'], rest)
    | body => digits body
  match ds, rest with
  | [], _ => none
  | ds, rest =>
    if ds == ['0'] && (rest.head?.any Char.isDigit) then none
    else
      (numberTail rest).map fun (isDecimal, rest) =>
        let n := decimalValue ds
        if isDecimal || (negative && n == 0) then (.decimal, rest)
        else (.integer (if negative then -(n : Int) else n), rest)

/-! ### Values -/

mutual

/-- A value. -/
def value : Nat → List Char → Read Json
  | 0, _ => none
  | fuel + 1, cs =>
    match skip cs with
    | 'n' :: 'u' :: 'l' :: 'l' :: rest => some (.null, rest)
    | 't' :: 'r' :: 'u' :: 'e' :: rest => some (.bool true, rest)
    | 'f' :: 'a' :: 'l' :: 's' :: 'e' :: rest => some (.bool false, rest)
    | '"' :: rest => (stringBody rest).map fun (s, rest) => (.string s, rest)
    | '[' :: rest =>
      match skip rest with
      | ']' :: rest => some (.array [], rest)
      | rest => (items fuel rest).map fun (xs, rest) => (.array xs, rest)
    | '\x7b' :: rest =>
      match skip rest with
      | '\x7d' :: rest => some (.object [], rest)
      | rest => (fields fuel rest).map fun (xs, rest) => (.object xs, rest)
    | rest => number rest

/-- The items of an array up to its end. -/
def items : Nat → List Char → Read (List Json)
  | 0, _ => none
  | fuel + 1, cs =>
    match value fuel cs with
    | none => none
    | some (x, rest) =>
      match skip rest with
      | ']' :: rest => some ([x], rest)
      | ',' :: rest => (items fuel rest).map fun (xs, rest) => (x :: xs, rest)
      | _ => none

/-- The fields of an object up to its end. -/
def fields : Nat → List Char → Read (List (Option String × Json))
  | 0, _ => none
  | fuel + 1, cs =>
    match skip cs with
    | '"' :: rest =>
      match stringBody rest with
      | none => none
      | some (name, rest) =>
        match skip rest with
        | ':' :: rest =>
          match value fuel rest with
          | none => none
          | some (x, rest) =>
            match skip rest with
            | '\x7d' :: rest => some ([(name, x)], rest)
            | ',' :: rest => (fields fuel rest).map fun (xs, rest) => ((name, x) :: xs, rest)
            | _ => none
        | _ => none
    | _ => none

end

/-- Reads a whole text; blanks may surround the value. -/
def parse? (text : String) : Option Json :=
  let cs := text.toList
  match value (2 * cs.length + 2) cs with
  | some (x, rest) => if (skip rest).isEmpty then some x else none
  | none => none

/-! ### Typed parts -/

/-- An integer between two bounds. -/
def integer? (low high : Int) : Json → Option Int
  | .integer n => if low ≤ n ∧ n ≤ high then some n else none
  | _ => none

/-- The only value under a name. -/
def only? (name : String) (fs : List (Option String × Json)) : Option Json :=
  match fs.filter fun f => f.1 == some name with
  | [(_, x)] => some x
  | _ => none

/-- The values of a record: an array with one item per name, or an object that has each name once.
Other names are passed over. -/
def record? (names : List String) : Json → Option (List Json)
  | .array xs => if xs.length = names.length then some xs else none
  | .object fs =>
    if fs.all fun f => f.1.isSome then names.mapM fun name => only? name fs else none
  | _ => none

/-- A name without content: a string, or an object with the name over null. -/
def tag? : Json → Option String
  | .string s => s
  | .object [(name, .null)] => name
  | _ => none

end Json

end PlutusCek
