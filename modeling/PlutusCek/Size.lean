import PlutusCek.Amount
import PlutusCek.Constant

/-!
# Size — the memory sizes of constants, in words

Costs are functions of these sizes.  A word has 64 bits.  Data is measured node by node, in
depth-first order; comparing two data is sized by walking both at once until one is used up.
-/

namespace PlutusCek.Size

/-- Whole words of `word` units that hold `n` units. -/
def words (n word : Nat) : Amount :=
  Amount.clamp ((n + word - 1) / word : Nat)

/-- Number of binary digits of a number; none for zero. -/
def bitLength (n : Nat) : Nat :=
  if n = 0 then 0 else n.log2 + 1

/-- The words of an integer's magnitude; one for zero. -/
def integer (n : Int) : Amount :=
  if n = 0 then 1 else words (bitLength n.natAbs) 64

/-- The words of a byte string; one if it is empty. -/
def bytes (b : Bytes) : Amount :=
  if b.isEmpty then 1 else words b.length 8

/-- One word per eight characters. -/
def string (s : String) : Amount :=
  words s.length 8

/-- A length as a size. -/
def count (n : Nat) : Amount :=
  Amount.clamp n

/-- The magnitude of an integer, taken as a size. -/
def magnitude (n : Int) : Amount :=
  Amount.clamp n.natAbs

/-- The words of as many bytes as an integer says.  A magnitude over 64 bits has the greatest
size. -/
def bytesAsWords (n : Int) : Amount :=
  if n.natAbs < 18446744073709551616 then words n.natAbs 8 else Amount.clamp Amount.greatest

/-! ### Data -/

/-- The size of a node of data without its parts. -/
def node : Data → Amount
  | .integer n => 4 + integer n
  | .bytes b => 4 + bytes b
  | _ => 4

mutual

/-- Number of nodes. -/
def nodes : Data → Nat
  | .constr _ fields => 1 + nodesList fields
  | .map entries => 1 + nodesEntries entries
  | .list items => 1 + nodesList items
  | .integer _ => 1
  | .bytes _ => 1

/-- Number of nodes of a list of data. -/
def nodesList : List Data → Nat
  | [] => 0
  | d :: ds => nodes d + nodesList ds

/-- Number of nodes of the keys and values of an association list. -/
def nodesEntries : List (Data × Data) → Nat
  | [] => 0
  | (k, v) :: es => nodes k + nodes v + nodesEntries es

end

theorem nodesList_append (xs ys : List Data) :
    nodesList (xs ++ ys) = nodesList xs + nodesList ys := by
  induction xs with
  | nil => simp [nodesList]
  | cons x xs ih => simp only [List.cons_append, nodesList, ih]; omega

theorem nodesEntries_eq (es : List (Data × Data)) :
    nodesEntries es = nodesList (es.flatMap fun e => [e.1, e.2]) := by
  induction es with
  | nil => rfl
  | cons e es ih =>
    obtain ⟨k, v⟩ := e
    simp only [nodesEntries, List.flatMap_cons, List.cons_append, List.nil_append, nodesList, ih]
    omega

/-- A node is one more than its parts. -/
theorem nodes_eq (d : Data) : nodes d = 1 + nodesList d.children := by
  cases d <;> simp [nodes, Data.children, nodesEntries_eq, nodesList]

/-- The nodes still to be visited, next one first. -/
abbrev Walk := List Data

/-- Visits one node: its size, and the walk with its parts in front. -/
def Walk.next? : Walk → Option (Amount × Walk)
  | [] => none
  | d :: rest => some (node d, d.children ++ rest)

/-- Visiting a node uses it up. -/
theorem Walk.nodes_next? {w w' : Walk} {n : Amount} (h : w.next? = some (n, w')) :
    nodesList w' < nodesList w := by
  cases w with
  | nil => simp [Walk.next?] at h
  | cons d rest =>
    simp only [Walk.next?, Option.some.injEq, Prod.mk.injEq] at h
    obtain ⟨_, rfl⟩ := h
    rw [nodesList_append, nodesList, nodes_eq d]
    omega

/-- The sizes of all nodes, in the order of the visit. -/
def Walk.sizes (w : Walk) : List Amount :=
  match _h : w.next? with
  | none => []
  | some (n, rest) => n :: sizes rest
termination_by nodesList w
decreasing_by exact Walk.nodes_next? _h

/-- Adds the sizes of all nodes to a total. -/
def Walk.total (w : Walk) (acc : Amount) : Amount :=
  match _h : w.next? with
  | none => acc
  | some (n, rest) => total rest (acc + n)
termination_by nodesList w
decreasing_by exact Walk.nodes_next? _h

/-- The size of data: the sizes of all its nodes added up. -/
def data (d : Data) : Amount :=
  Walk.total [d] 0

/-- Walks two data at once, adding up the sizes on either side, until one of them ends. -/
def Walk.race (xs ys : Walk) (x y : Amount) : Amount :=
  match _h : xs.next?, ys.next? with
  | some (m, xs'), some (n, ys') => race xs' ys' (x + m) (y + n)
  | some (m, _), none => min y (x + m)
  | none, some (n, _) => min x (y + n)
  | none, none => min x y
termination_by nodesList xs
decreasing_by exact Walk.nodes_next? _h

/-- The size of a comparison of two data. -/
def comparison (a b : Data) : Amount :=
  Walk.race [a] [b] 0 0

/-! ### Constants -/

mutual

/-- The size of a constant. -/
def constant : Constant → Amount
  | .integer n => integer n
  | .bytes b => bytes b
  | .string s => string s
  | .unit => 1
  | .bool _ => 1
  | .data d => data d
  | .list _ items => constants 0 items
  | .pair _ _ a b => 1 + constant a + constant b
  | .array _ items => count items.length
  | .g1 _ => 18
  | .g2 _ => 36
  | .miller _ => 72
  | .assets a => count a.size

/-- Adds the sizes of constants to a total. -/
def constants (acc : Amount) : List Constant → Amount
  | [] => acc
  | c :: cs => constants (acc + constant c) cs

end

end PlutusCek.Size
