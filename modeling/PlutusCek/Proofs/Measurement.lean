import Mathlib.Data.List.Basic
import PlutusCek.Cost.Model

/-!
# Proofs.Measurement — operands measured on demand, each one once

A call can be priced without measuring all of its operands first.  `CostFunction.costWith` asks for
a size when it comes to it; a size once measured is kept in a slot and not measured again, also not
when the processor cost asks after the memory cost has.  The price is that of the eager evaluation,
and exactly the operands that a cost function reads are measured (`BuiltinCost.finds_costWith`).
-/

namespace PlutusCek

/-- Sizes kept while a call is priced.  There is one slot for each operand, and the operands that
were measured are listed latest first. -/
structure Memo where
  slots : List (Option Amount)
  measured : List Nat

namespace Memo

/-- The greatest number of operands. -/
def width : Nat := 6

/-- Nothing has been measured. -/
def fresh : Memo := ⟨List.replicate width none, []⟩

/-- The size of an operand, from its slot if it is there.  What has no slot is measured each
time. -/
def ask (size : Nat → Amount) (i : Nat) : StateM Memo Amount := fun memo =>
  match memo.slots[i]? with
  | some (some n) => (n, memo)
  | some none => (size i, ⟨memo.slots.set i (some (size i)), i :: memo.measured⟩)
  | none => (size i, { memo with measured := i :: memo.measured })

/-- A function of one size. -/
def askOne (size : Nat → Amount) (i : Nat) (g : Amount → Amount) : StateM Memo Amount := do
  return g (← ask size i)

/-- A function of two sizes, asked for in order. -/
def askTwo {α : Type} (size : Nat → Amount) (i j : Nat) (g : Amount → Amount → α) :
    StateM Memo α := do
  let x ← ask size i
  let y ← ask size j
  return g x y

/-- The slots hold sizes, namely of the operands measured, and these were measured once. -/
structure Valid (size : Nat → Amount) (memo : Memo) : Prop where
  width : memo.slots.length = Memo.width
  faithful : ∀ {i n}, memo.slots[i]? = some (some n) → n = size i
  filled : ∀ {i}, i ∈ memo.measured ↔ ∃ n, memo.slots[i]? = some (some n)
  once : memo.measured.Nodup

theorem valid_fresh (size : Nat → Amount) : fresh.Valid size where
  width := List.length_replicate
  faithful {i n} h := by
    have hmem := List.mem_of_getElem? h
    rw [fresh, List.mem_replicate] at hmem
    cases hmem.2
  filled {i} := by
    refine ⟨fun h => absurd h List.not_mem_nil, fun ⟨n, h⟩ => ?_⟩
    have hmem := List.mem_of_getElem? h
    rw [fresh, List.mem_replicate] at hmem
    cases hmem.2
  once := List.nodup_nil

/-- Measuring an operand whose slot is empty. -/
theorem Valid.measure {size : Nat → Amount} {memo : Memo} (h : memo.Valid size) {i : Nat}
    (hi : memo.slots[i]? = some none) :
    Valid size ⟨memo.slots.set i (some (size i)), i :: memo.measured⟩ where
  width := by rw [List.length_set, h.width]
  faithful {j n} hj := by
    rw [List.getElem?_set] at hj
    split at hj
    · rename_i hij
      subst hij
      split at hj
      · cases hj
        rfl
      · cases hj
    · exact h.faithful hj
  filled {j} := by
    obtain ⟨hlt, -⟩ := List.getElem?_eq_some_iff.1 hi
    rw [List.mem_cons, List.getElem?_set]
    by_cases hij : i = j
    · subst hij
      simp [hlt]
    · rw [if_neg hij, ← h.filled]
      simp [Ne.symm hij]
  once := by
    refine List.nodup_cons.2 ⟨fun hmem => ?_, h.once⟩
    obtain ⟨n, hn⟩ := h.filled.1 hmem
    rw [hi] at hn
    cases hn

/-! ### What a computation finds -/

variable {size : Nat → Amount}

/-- A computation gives a value, and measures what it reads and has not been measured yet. -/
def Finds {α : Type} (size : Nat → Amount) (act : StateM Memo α) (value : α)
    (reads : Nat → Prop) : Prop :=
  ∀ memo : Memo, memo.Valid size → (act memo).1 = value ∧ (act memo).2.Valid size ∧
    ∀ i, i ∈ (act memo).2.measured ↔ i ∈ memo.measured ∨ reads i

theorem finds_pure {α : Type} (value : α) : Finds size (pure value) value fun _ => False :=
  fun _ h => ⟨rfl, h, fun _ => (or_iff_left id).symm⟩

theorem finds_ask (size : Nat → Amount) {i : Nat} (hi : i < width) :
    Finds size (ask size i) (size i) (· = i) := by
  intro memo h
  have hlt : i < memo.slots.length := by rw [h.width]; exact hi
  cases hslot : memo.slots[i]? with
  | none => exact absurd (List.getElem?_eq_none_iff.1 hslot) (by omega)
  | some slot =>
    cases slot with
    | none =>
      have hask : ask size i memo =
          (size i, ⟨memo.slots.set i (some (size i)), i :: memo.measured⟩) := by
        simp only [ask, hslot]
      rw [hask]
      refine ⟨rfl, h.measure hslot, fun j => ?_⟩
      rw [List.mem_cons]
      exact or_comm
    | some n =>
      have hask : ask size i memo = (n, memo) := by simp only [ask, hslot]
      rw [hask]
      refine ⟨h.faithful hslot, h, fun j => ⟨.inl, ?_⟩⟩
      rintro (hj | rfl)
      · exact hj
      · exact h.filled.2 ⟨n, hslot⟩

section Combining

variable {α β : Type} {act : StateM Memo α} {x : α} {reads : Nat → Prop}

theorem Finds.bind (hact : Finds size act x reads) {k : α → StateM Memo β} {y : β}
    {reads' : Nat → Prop} (hk : Finds size (k x) y reads') :
    Finds size (act >>= k) y fun i => reads i ∨ reads' i := by
  intro memo h
  obtain ⟨hvalue, hvalid, hmeasured⟩ := hact memo h
  have hrun : (act >>= k) memo = k x (act memo).2 := by rw [← hvalue]; rfl
  obtain ⟨hvalue', hvalid', hmeasured'⟩ := hk (act memo).2 hvalid
  rw [hrun]
  refine ⟨hvalue', hvalid', fun i => ?_⟩
  rw [hmeasured', hmeasured, or_assoc]

theorem Finds.congr (hact : Finds size act x reads) {reads' : Nat → Prop}
    (h : ∀ i, reads i ↔ reads' i) : Finds size act x reads' := by
  have heq : reads = reads' := funext fun i => propext (h i)
  rwa [← heq]

theorem Finds.map (hact : Finds size act x reads) (g : α → β) :
    Finds size (act >>= fun a => pure (g a)) (g x) reads :=
  (hact.bind (finds_pure (g x))).congr fun _ => or_iff_left id

end Combining

theorem finds_askOne (size : Nat → Amount) {i : Nat} (hi : i < width) (g : Amount → Amount) :
    Finds size (askOne size i g) (g (size i)) (· = i) :=
  (finds_ask size hi).map g

theorem finds_askTwo {α : Type} (size : Nat → Amount) {i j : Nat} (hi : i < width) (hj : j < width)
    (g : Amount → Amount → α) :
    Finds size (askTwo size i j g) (g (size i) (size j)) fun k => k = i ∨ k = j :=
  (finds_ask size hi).bind ((finds_ask size hj).map (g (size i)))

end Memo

namespace CostFunction

open Memo

/-- The cost of operands that are measured when the cost comes to them. -/
def costWith (size : Nat → Amount) : CostFunction → StateM Memo Amount
  | .constant c => pure c
  | .linearInX l => askOne size 0 l.eval
  | .linearInY l => askOne size 1 l.eval
  | .linearInZ l => askOne size 2 l.eval
  | .linearInU l => askOne size 3 l.eval
  | .addedSizes l => askTwo size 0 1 fun x y => l.eval (x + y)
  | .subtractedSizes l minimum => askTwo size 0 1 fun x y => l.eval (max (x - y) minimum)
  | .multipliedSizes l => askTwo size 0 1 fun x y => l.eval (x * y)
  | .minSize l => askTwo size 0 1 fun x y => l.eval (min x y)
  | .maxSize l => askTwo size 0 1 fun x y => l.eval (max x y)
  | .linearOnDiagonal c l => askTwo size 0 1 fun x y => if x = y then l.eval x else c
  | .constAboveDiagonal c model => do
    if ← askTwo size 0 1 fun x y => decide (x < y) then return c else model.costWith size
  | .constBelowDiagonal c model => do
    if ← askTwo size 0 1 fun x y => decide (y < x) then return c else model.costWith size
  | .quadraticInY q => askOne size 1 q.eval
  | .quadraticInZ q => askOne size 2 q.eval
  | .quadraticInXY q => askTwo size 0 1 q.eval
  | .linearInYZ l => askTwo size 1 2 l.eval
  | .linearInMaxYZ l => askTwo size 1 2 fun y z => l.eval (max y z)
  | .literalInYOrLinearInZ l => do
    let y ← ask size 1
    if y = 0 then askOne size 2 l.eval else return y
  | .power c => do
    let x ← ask size 0
    let z ← ask size 2
    askOne size 1 fun y => c.eval x y z

variable {size : Nat → Amount}

/-- A cost that is fixed on one side of the diagonal. -/
theorem finds_diagonal (side : Amount → Amount → Bool) (c : Amount) {model : CostFunction}
    (ih : Finds size (model.costWith size) (model.cost size) fun i => model.reads size i = true) :
    Finds size (do if ← askTwo size 0 1 side then return c else model.costWith size)
      (if side (size 0) (size 1) = true then c else model.cost size) fun i =>
        (i == 0 || i == 1 || (!side (size 0) (size 1) && model.reads size i)) = true := by
  have hside : Finds size (askTwo size 0 1 side) (side (size 0) (size 1)) fun i => i = 0 ∨ i = 1 :=
    finds_askTwo size (by decide) (by decide) side
  cases hb : side (size 0) (size 1) with
  | true =>
    rw [hb] at hside
    exact (hside.bind (finds_pure c)).congr fun i => by simp
  | false =>
    rw [hb] at hside
    exact (hside.bind ih).congr fun i => by simp

/-- Pricing on demand gives the cost, and measures the operands that the cost function reads. -/
theorem finds_costWith (f : CostFunction) :
    Finds size (f.costWith size) (f.cost size) fun i => f.reads size i = true := by
  induction f with
  | constant c => exact (finds_pure c).congr fun i => by simp [reads]
  | linearInX l | linearInY l | linearInZ l | linearInU l =>
    exact (finds_askOne size (by decide) l.eval).congr fun i => by simp [reads]
  | quadraticInY q | quadraticInZ q =>
    exact (finds_askOne size (by decide) q.eval).congr fun i => by simp [reads]
  | constAboveDiagonal c model ih =>
    simpa [cost, reads, costWith] using finds_diagonal (fun x y => decide (x < y)) c ih
  | constBelowDiagonal c model ih =>
    simpa [cost, reads, costWith] using finds_diagonal (fun x y => decide (y < x)) c ih
  | literalInYOrLinearInZ l =>
    have hrest : Finds size (if size 1 = 0 then askOne size 2 l.eval else pure (size 1))
        (if size 1 = 0 then l.eval (size 2) else size 1) fun i => i = 2 ∧ size 1 = 0 := by
      by_cases hy : size 1 = 0
      · rw [if_pos hy, if_pos hy]
        exact (finds_askOne size (by decide) l.eval).congr fun i => by simp [hy]
      · rw [if_neg hy, if_neg hy]
        exact (finds_pure (size 1)).congr fun i => by simp [hy]
    have hask : Finds size (ask size 1) (size 1) (· = 1) := finds_ask size (by decide)
    exact Finds.congr (hask.bind hrest) fun i => by simp [reads]
  | power c =>
    have hx : Finds size (ask size 0) (size 0) (· = 0) := finds_ask size (by decide)
    have hz : Finds size (ask size 2) (size 2) (· = 2) := finds_ask size (by decide)
    have hy := finds_askOne size (i := 1) (by decide) fun y => c.eval (size 0) y (size 2)
    refine Finds.congr (hx.bind (hz.bind hy)) fun i => ?_
    simp only [reads, Bool.or_eq_true, beq_iff_eq]
    omega
  | _ => exact (finds_askTwo size (by decide) (by decide) _).congr fun i => by simp [reads]

end CostFunction

namespace BuiltinCost

/-- The cost of a call, memory first; the processor cost finds what the memory cost measured. -/
def costWith (c : BuiltinCost) (size : Nat → Amount) : StateM Memo Budget := do
  let mem ← c.mem.costWith size
  let cpu ← c.cpu.costWith size
  return ⟨mem, cpu⟩

/-- Pricing a call on demand gives its cost, and measures what either cost function reads. -/
theorem finds_costWith (c : BuiltinCost) (size : Nat → Amount) :
    Memo.Finds size (c.costWith size) (c.cost size) fun i =>
      c.mem.reads size i = true ∨ c.cpu.reads size i = true :=
  c.mem.finds_costWith.bind (c.cpu.finds_costWith.map (Budget.mk (c.mem.cost size)))

end BuiltinCost

end PlutusCek
