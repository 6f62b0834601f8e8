import PlutusCek.Proofs.Traversal
import PlutusCek.Proofs.Words

/-!
# Proofs.Preorder — the walk over data, and its exact size

The nodes of data in depth-first order are `Data.preorder`, by recursion over the data.  A walk that
keeps what it has yet to visit on a stack pushes the parts of a node last one first, so that the
first one is visited next: it is the walk that has the parts in front (`Size.Stack.next?_toWalk`).
It ends, and gives the sizes of the nodes in that order and nothing else (`Size.Stack.yields_iff`).
Their sum, cut off once, is the size of the data (`Size.data_preorder`).
-/

namespace PlutusCek

/-! ### The nodes of data -/

namespace Data

mutual

/-- The data and all data inside it: a node comes before its parts, the parts from left to right, a
key before its value. -/
def preorder : Data → List Data
  | .constr tag fields => .constr tag fields :: preorderAll fields
  | .map entries => .map entries :: preorderEntries entries
  | .list items => .list items :: preorderAll items
  | .integer n => [.integer n]
  | .bytes b => [.bytes b]

/-- The nodes of each data of a list. -/
def preorderAll : List Data → List Data
  | [] => []
  | d :: ds => preorder d ++ preorderAll ds

/-- The nodes of the keys and values of an association list. -/
def preorderEntries : List (Data × Data) → List Data
  | [] => []
  | (k, v) :: es => preorder k ++ preorder v ++ preorderEntries es

end

theorem preorderAll_append (xs ys : List Data) :
    preorderAll (xs ++ ys) = preorderAll xs ++ preorderAll ys := by
  induction xs with
  | nil => rfl
  | cons x xs ih => rw [List.cons_append, preorderAll, preorderAll, ih, List.append_assoc]

theorem preorderEntries_eq (es : List (Data × Data)) :
    preorderEntries es = preorderAll (es.flatMap fun e => [e.1, e.2]) := by
  induction es with
  | nil => rfl
  | cons e es ih =>
    rw [preorderEntries, ih, List.flatMap_cons, preorderAll_append, preorderAll, preorderAll,
      preorderAll, List.append_nil]

/-- First the node, then the nodes of its parts. -/
theorem preorder_eq (d : Data) : d.preorder = d :: preorderAll d.children := by
  cases d with
  | map entries => rw [preorder, preorderEntries_eq, children]
  | _ => rfl

end Data

namespace Size

open Data (preorderAll)

mutual

theorem length_preorder : ∀ d : Data, d.preorder.length = nodes d
  | .constr _ fields => by
    rw [Data.preorder, List.length_cons, length_preorderAll fields, nodes, Nat.add_comm]
  | .map entries => by
    rw [Data.preorder, List.length_cons, length_preorderEntries entries, nodes, Nat.add_comm]
  | .list items => by
    rw [Data.preorder, List.length_cons, length_preorderAll items, nodes, Nat.add_comm]
  | .integer _ => rfl
  | .bytes _ => rfl

theorem length_preorderAll : ∀ ds : List Data, (preorderAll ds).length = nodesList ds
  | [] => rfl
  | d :: ds => by
    rw [preorderAll, List.length_append, length_preorder d, length_preorderAll ds, nodesList]

theorem length_preorderEntries :
    ∀ es : List (Data × Data), (Data.preorderEntries es).length = nodesEntries es
  | [] => rfl
  | (k, v) :: es => by
    rw [Data.preorderEntries, List.length_append, List.length_append, length_preorder k,
      length_preorder v, length_preorderEntries es, nodesEntries]

end

/-! ### The exact size -/

/-- The words of what a node holds itself; only a leaf holds anything. -/
def payload : Data → Nat
  | .integer n => integerWords n
  | .bytes b => byteWords b.length
  | _ => 0

mutual

/-- Four words for each node, and the words of what it holds. -/
def extent : Data → Nat
  | .constr tag fields => 4 + payload (.constr tag fields) + extentAll fields
  | .map entries => 4 + payload (.map entries) + extentEntries entries
  | .list items => 4 + payload (.list items) + extentAll items
  | .integer n => 4 + payload (.integer n)
  | .bytes b => 4 + payload (.bytes b)

/-- The extents of a list of data. -/
def extentAll : List Data → Nat
  | [] => 0
  | d :: ds => extent d + extentAll ds

/-- The extents of the keys and values of an association list. -/
def extentEntries : List (Data × Data) → Nat
  | [] => 0
  | (k, v) :: es => extent k + extent v + extentEntries es

end

/-- The extents of nodes without their parts. -/
def burden (ds : List Data) : Nat := (ds.map fun d => 4 + payload d).sum

theorem burden_cons (d : Data) (ds : List Data) :
    burden (d :: ds) = 4 + payload d + burden ds := by
  rw [burden, List.map_cons, List.sum_cons, burden]

theorem burden_append (xs ys : List Data) : burden (xs ++ ys) = burden xs + burden ys := by
  rw [burden, List.map_append, List.sum_append, burden, burden]

mutual

theorem burden_preorder : ∀ d : Data, burden d.preorder = extent d
  | .constr _ fields => by rw [Data.preorder, burden_cons, burden_preorderAll fields, extent]
  | .map entries => by rw [Data.preorder, burden_cons, burden_preorderEntries entries, extent]
  | .list items => by rw [Data.preorder, burden_cons, burden_preorderAll items, extent]
  | .integer _ => rfl
  | .bytes _ => rfl

theorem burden_preorderAll : ∀ ds : List Data, burden (preorderAll ds) = extentAll ds
  | [] => rfl
  | d :: ds => by
    rw [preorderAll, burden_append, burden_preorder d, burden_preorderAll ds, extentAll]

theorem burden_preorderEntries :
    ∀ es : List (Data × Data), burden (Data.preorderEntries es) = extentEntries es
  | [] => rfl
  | (k, v) :: es => by
    rw [Data.preorderEntries, burden_append, burden_append, burden_preorder k, burden_preorder v,
      burden_preorderEntries es, extentEntries]

end

theorem caps_node (d : Data) : (node d).Caps (4 + payload d : Nat) := by
  have hfour : (4 : Amount).Caps (4 : Nat) := Amount.caps_clamp 4
  rw [Int.natCast_add]
  cases d with
  | integer n => exact hfour.add (caps_integer n)
  | bytes b => exact hfour.add (caps_bytes b)
  | _ => exact hfour

/-- The sizes of nodes added up are cut off once. -/
theorem caps_foldl_node (ds : List Data) {acc : Amount} {k : Nat} (hacc : acc.Caps k) :
    ((ds.map node).foldl (· + ·) acc).Caps (k + burden ds : Nat) := by
  induction ds generalizing acc k with
  | nil => exact hacc
  | cons d ds ih =>
    have hnext : (acc + node d).Caps (k + (4 + payload d) : Nat) := hacc.add (caps_node d)
    have hrest := ih hnext
    rwa [Nat.add_assoc, ← burden_cons] at hrest

/-! ### The walk -/

theorem Walk.sizes_eq (w : Walk) : w.sizes = (preorderAll w).map node := by
  fun_induction Walk.sizes w with
  | case1 w h =>
    cases w with
    | nil => rfl
    | cons d rest => cases h
  | case2 w n rest h ih =>
    cases w with
    | nil => cases h
    | cons d ds =>
      cases h
      rw [ih, Data.preorderAll_append, preorderAll, Data.preorder_eq, List.cons_append,
        List.map_cons]

theorem Walk.total_eq (w : Walk) (acc : Amount) : w.total acc = w.sizes.foldl (· + ·) acc := by
  fun_induction Walk.total w acc with
  | case1 w acc h => rw [sizes_of_none h, List.foldl_nil]
  | case2 w acc n rest h ih => rw [sizes_of_some h, List.foldl_cons, ih]

theorem sizes_singleton (d : Data) : Walk.sizes [d] = d.preorder.map node := by
  rw [Walk.sizes_eq, preorderAll, preorderAll, List.append_nil]

/-! ### The walk with a stack -/

/-- The nodes still to be visited, next one last. -/
abbrev Stack := Array Data

namespace Stack

/-- Pushes the parts of a node, last one first, and of an entry the value before the key. -/
def pushParts (s : Stack) : Data → Stack
  | .constr _ fields => fields.reverse.foldl Array.push s
  | .map entries => entries.reverse.foldl (fun s e => (s.push e.2).push e.1) s
  | .list items => items.reverse.foldl Array.push s
  | .integer _ => s
  | .bytes _ => s

/-- Visits the node on top: its size, and the stack with its parts on top. -/
def next? (s : Stack) : Option (Amount × Stack) :=
  s.back?.map fun d => (node d, pushParts s.pop d)

/-- The iteration gives these sizes, and then it has ended. -/
inductive Yields : Stack → List Amount → Prop
  | done {s : Stack} (h : next? s = none) : Yields s []
  | item {s rest : Stack} {n : Amount} {ns : List Amount} (h : next? s = some (n, rest))
    (hrest : Yields rest ns) : Yields s (n :: ns)

/-- The stack from its top. -/
def toWalk (s : Stack) : Walk := s.toList.reverse

theorem toWalk_push (s : Stack) (d : Data) : toWalk (s.push d) = d :: toWalk s := by
  rw [toWalk, Array.toList_push, List.reverse_append, List.reverse_singleton,
    List.singleton_append, toWalk]

theorem toWalk_pushAll (s : Stack) (ds : List Data) :
    toWalk (ds.reverse.foldl Array.push s) = ds ++ toWalk s := by
  rw [List.foldl_reverse]
  induction ds with
  | nil => rfl
  | cons d ds ih => rw [List.foldr_cons, toWalk_push, ih, List.cons_append]

theorem toWalk_pushEntries (s : Stack) (es : List (Data × Data)) :
    toWalk (es.reverse.foldl (fun s e => (s.push e.2).push e.1) s) =
      (es.flatMap fun e => [e.1, e.2]) ++ toWalk s := by
  rw [List.foldl_reverse]
  induction es with
  | nil => rfl
  | cons e es ih =>
    rw [List.foldr_cons, toWalk_push, toWalk_push, ih, List.flatMap_cons]
    rfl

/-- Pushed in reverse, the parts lie in order from the top. -/
theorem toWalk_pushParts (s : Stack) (d : Data) :
    toWalk (pushParts s d) = d.children ++ toWalk s := by
  cases d with
  | constr tag fields => exact toWalk_pushAll s fields
  | map entries => exact toWalk_pushEntries s entries
  | list items => exact toWalk_pushAll s items
  | integer n => rfl
  | bytes b => rfl

/-- A visit with the stack is a visit with the parts in front. -/
theorem next?_toWalk (s : Stack) :
    (next? s).map (fun x => (x.1, toWalk x.2)) = (toWalk s).next? := by
  by_cases hs : s.size = 0
  · rw [Array.size_eq_zero_iff.1 hs]
    rfl
  · obtain ⟨rest, d, rfl⟩ := Array.eq_push_of_size_ne_zero hs
    rw [next?, Array.back?_push, Array.pop_push, toWalk_push, Walk.next?]
    simp only [Option.map_some, toWalk_pushParts]

theorem next?_toWalk_of_some {s rest : Stack} {n : Amount} (h : next? s = some (n, rest)) :
    (toWalk s).next? = some (n, toWalk rest) := by
  rw [← next?_toWalk, h, Option.map_some]

theorem yields_sizes (w : Walk) {s : Stack} (hs : toWalk s = w) : Yields s w.sizes := by
  fun_induction Walk.sizes w generalizing s with
  | case1 w h =>
    rw [← hs, ← next?_toWalk, Option.map_eq_none_iff] at h
    exact .done h
  | case2 w n rest h ih =>
    rw [← hs, ← next?_toWalk, Option.map_eq_some_iff] at h
    obtain ⟨⟨m, s'⟩, hnext, hrest⟩ := h
    obtain ⟨rfl, hs'⟩ := Prod.mk.inj hrest
    exact .item hnext (ih hs')

/-- The iteration ends, and gives the sizes of the walk. -/
theorem yields_iff (s : Stack) (ns : List Amount) : Yields s ns ↔ ns = (toWalk s).sizes := by
  constructor
  · intro h
    induction h with
    | @done s h =>
      rw [Walk.sizes_of_none]
      rw [← next?_toWalk, h, Option.map_none]
    | item h hrest ih => rw [Walk.sizes_of_some (next?_toWalk_of_some h), ih]
  · rintro rfl
    exact yields_sizes _ rfl

end Stack

/-- **The walk over data.**  Started on any data, the iteration with a stack ends and gives one size
for each node, in depth-first order, parts from left to right and a key before its value, and it
gives nothing else.  Each size is four words and those of what the node holds, cut off at the
greatest amount.  The size of the data adds them up, and it is the extent of the data, by recursion
over its parts, cut off once. -/
theorem data_preorder (d : Data) :
    (∀ ns, Stack.Yields #[d] ns ↔ ns = d.preorder.map node) ∧
    Walk.sizes [d] = d.preorder.map node ∧ d.preorder.length = nodes d ∧
    (∀ e, (node e).toInt = min Amount.greatest (4 + payload e : Nat)) ∧
    data d = (d.preorder.map node).foldl (· + ·) 0 ∧
    (data d).toInt = min Amount.greatest (extent d) := by
  have hdata : data d = (d.preorder.map node).foldl (· + ·) 0 := by
    rw [← sizes_singleton, ← Walk.total_eq]
    rfl
  have hzero : (0 : Amount).Caps (0 : Nat) := Amount.caps_zero
  have hcaps := caps_foldl_node d.preorder hzero
  rw [Nat.zero_add, burden_preorder, ← hdata] at hcaps
  refine ⟨fun ns => ?_, sizes_singleton d, length_preorder d, fun e => (caps_node e).toInt_eq,
    hdata, hcaps.toInt_eq⟩
  rw [Stack.yields_iff, ← sizes_singleton]
  rfl

/-- The entries in order, each key before its value. -/
example :
    (Data.map [(.integer 1, .list [.bytes []]), (.integer (2 ^ 64), .list [])]).preorder.map node =
      [4, 5, 4, 5, 6, 4] := by
  decide +kernel

end Size

end PlutusCek
