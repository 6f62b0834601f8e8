import PlutusCek.Assets
import PlutusCek.Crypto.Bls12381.Pairing

/-!
# Constant — constants and their types

A list, array or pair carries its declared component types.  They are part of the constant and are
not compared with the components.
-/

namespace PlutusCek

/-- The type of a constant. -/
inductive ConstType where
  | integer
  | bytes
  | string
  | unit
  | bool
  | data
  | list (item : ConstType)
  | pair (fst snd : ConstType)
  | array (item : ConstType)
  | g1
  | g2
  | miller
  | assets
deriving DecidableEq

/-- How a type is written. -/
def ConstType.render : ConstType → String
  | .integer => "integer"
  | .bytes => "bytestring"
  | .string => "string"
  | .unit => "unit"
  | .bool => "bool"
  | .data => "data"
  | .list t => "(list " ++ t.render ++ ")"
  | .pair a b => "(pair " ++ a.render ++ " " ++ b.render ++ ")"
  | .array t => "(array " ++ t.render ++ ")"
  | .g1 => "bls12_381_G1_element"
  | .g2 => "bls12_381_G2_element"
  | .miller => "bls12_381_mlresult"
  | .assets => "value"

/-- A constant. -/
inductive Constant where
  | integer (n : Int)
  | bytes (b : Bytes)
  | string (s : String)
  | unit
  | bool (b : Bool)
  | data (d : Data)
  | list (item : ConstType) (items : List Constant)
  | pair (fstType sndType : ConstType) (fst snd : Constant)
  | array (item : ConstType) (items : List Constant)
  | g1 (p : Crypto.Bls12381.G1)
  | g2 (p : Crypto.Bls12381.G2)
  | miller (r : Crypto.Bls12381.MillerResult)
  | assets (a : Assets)

namespace Constant

/-- The type of a constant: for composite constants the declared one. -/
def type : Constant → ConstType
  | .integer _ => .integer
  | .bytes _ => .bytes
  | .string _ => .string
  | .unit => .unit
  | .bool _ => .bool
  | .data _ => .data
  | .list t _ => .list t
  | .pair a b _ _ => .pair a b
  | .array t _ => .array t
  | .g1 _ => .g1
  | .g2 _ => .g2
  | .miller _ => .miller
  | .assets _ => .assets

/-- The pair of two constants, declared with their types. -/
def pairOf (a b : Constant) : Constant :=
  .pair a.type b.type a b

/-- A list of data. -/
def dataList (items : List Data) : Constant :=
  .list .data (items.map .data)

/-- A list of pairs of data. -/
def dataPairs (entries : List (Data × Data)) : Constant :=
  .list (.pair .data .data) (entries.map fun (k, v) => pairOf (.data k) (.data v))

mutual

/-- Equality of constants, declared types included.  Pairing results are compared in the target
group. -/
def beq : Constant → Constant → Bool
  | .integer m, .integer n => m == n
  | .bytes a, .bytes b => a == b
  | .string s, .string t => s == t
  | .unit, .unit => true
  | .bool a, .bool b => a == b
  | .data d, .data e => d == e
  | .list s xs, .list t ys => s == t && beqList xs ys
  | .pair a b x y, .pair c d z w => a == c && b == d && beq x z && beq y w
  | .array s xs, .array t ys => s == t && beqList xs ys
  | .g1 p, .g1 q => p == q
  | .g2 p, .g2 q => p == q
  | .miller r, .miller s => r.agrees s
  | .assets a, .assets b => a == b
  | _, _ => false

/-- Equality of lists of constants. -/
def beqList : List Constant → List Constant → Bool
  | [], [] => true
  | x :: xs, y :: ys => beq x y && beqList xs ys
  | _, _ => false

end

instance : BEq Constant := ⟨beq⟩

end Constant

end PlutusCek
