import PlutusCek.Bytes

/-!
# Data — the structured data that scripts exchange with the ledger
-/

namespace PlutusCek

/-- A tree of constructors, association lists and lists over integers and byte strings. -/
inductive Data where
  | constr (tag : Int) (fields : List Data)
  | map (entries : List (Data × Data))
  | list (items : List Data)
  | integer (n : Int)
  | bytes (b : Bytes)

namespace Data

mutual

/-- Structural equality. -/
def beq : Data → Data → Bool
  | .constr s xs, .constr t ys => s == t && beqList xs ys
  | .map xs, .map ys => beqEntries xs ys
  | .list xs, .list ys => beqList xs ys
  | .integer m, .integer n => m == n
  | .bytes a, .bytes b => a == b
  | _, _ => false

/-- Structural equality of lists. -/
def beqList : List Data → List Data → Bool
  | [], [] => true
  | x :: xs, y :: ys => beq x y && beqList xs ys
  | _, _ => false

/-- Structural equality of association lists, in order. -/
def beqEntries : List (Data × Data) → List (Data × Data) → Bool
  | [], [] => true
  | (k, v) :: xs, (l, w) :: ys => beq k l && beq v w && beqEntries xs ys
  | _, _ => false

end

instance : BEq Data := ⟨beq⟩

/-- The immediate parts, from left to right; a key comes before its value. -/
def children : Data → List Data
  | .constr _ fields => fields
  | .map entries => entries.flatMap fun e => [e.1, e.2]
  | .list items => items
  | .integer _ => []
  | .bytes _ => []

end Data

end PlutusCek
