import PlutusCek.Proofs.Scope

/-!
# Proofs.Typed — constants whose declared types are right

The component types of a list, array or pair are declared, not computed.  A constant is well typed
when every declaration inside it is right: each component has the declared type and is well typed
itself.  A term is well typed when all of its constants are, and substitution keeps it so
(`isTyped_substitute`).
-/

namespace PlutusCek

namespace Constant

mutual

/-- Every component of every list, array and pair in the constant has its declared type. -/
def isTyped : Constant → Bool
  | .list t items => allTyped t items
  | .array t items => allTyped t items
  | .pair s t a b => (decide (a.type = s) && isTyped a) && (decide (b.type = t) && isTyped b)
  | _ => true

/-- Each constant has type `t` and is well typed. -/
def allTyped (t : ConstType) : List Constant → Bool
  | [] => true
  | c :: cs => (decide (c.type = t) && isTyped c) && allTyped t cs

end

/-- The declared types in the constant are right. -/
def WellTyped (c : Constant) : Prop := c.isTyped = true

instance (c : Constant) : Decidable c.WellTyped := inferInstanceAs (Decidable (c.isTyped = true))

theorem allTyped_iff {t : ConstType} {cs : List Constant} :
    allTyped t cs = true ↔ ∀ c ∈ cs, c.type = t ∧ c.WellTyped := by
  induction cs with
  | nil => simp [allTyped]
  | cons c cs ih => simp [allTyped, ih, WellTyped]

theorem wellTyped_list {t : ConstType} {items : List Constant} :
    (list t items).WellTyped ↔ ∀ c ∈ items, c.type = t ∧ c.WellTyped :=
  allTyped_iff

theorem wellTyped_array {t : ConstType} {items : List Constant} :
    (array t items).WellTyped ↔ ∀ c ∈ items, c.type = t ∧ c.WellTyped :=
  allTyped_iff

theorem wellTyped_pair {s t : ConstType} {a b : Constant} :
    (pair s t a b).WellTyped ↔ (a.type = s ∧ a.WellTyped) ∧ (b.type = t ∧ b.WellTyped) := by
  simp only [WellTyped, isTyped, Bool.and_eq_true, decide_eq_true_eq]

theorem wellTyped_pairOf {a b : Constant} (ha : a.WellTyped) (hb : b.WellTyped) :
    (pairOf a b).WellTyped :=
  wellTyped_pair.2 ⟨⟨rfl, ha⟩, rfl, hb⟩

theorem wellTyped_dataList (items : List Data) : (dataList items).WellTyped := by
  refine wellTyped_list.2 fun c hc => ?_
  obtain ⟨d, -, rfl⟩ := List.mem_map.1 hc
  exact ⟨rfl, rfl⟩

theorem wellTyped_dataPairs (entries : List (Data × Data)) : (dataPairs entries).WellTyped := by
  refine wellTyped_list.2 fun c hc => ?_
  obtain ⟨⟨k, v⟩, -, rfl⟩ := List.mem_map.1 hc
  exact ⟨rfl, wellTyped_pairOf rfl rfl⟩

/-! ### The constants of a type -/

variable {c : Constant}

theorem eq_g1 (h : c.type = .g1) : ∃ p, c = .g1 p := by
  cases c with
  | g1 p => exact ⟨p, rfl⟩
  | _ => cases h

theorem eq_g2 (h : c.type = .g2) : ∃ p, c = .g2 p := by
  cases c with
  | g2 p => exact ⟨p, rfl⟩
  | _ => cases h

end Constant

namespace Term

mutual

/-- Every constant in the term is well typed. -/
def isTyped : Term → Bool
  | .var _ => true
  | .lambda body => isTyped body
  | .apply f a => isTyped f && isTyped a
  | .delay body => isTyped body
  | .force body => isTyped body
  | .constant c => c.isTyped
  | .error => true
  | .builtin _ => true
  | .constr _ fields => isTypedAll fields
  | .case s branches => isTyped s && isTypedAll branches

/-- Every constant in each term is well typed. -/
def isTypedAll : List Term → Bool
  | [] => true
  | t :: ts => isTyped t && isTypedAll ts

end

theorem isTypedAll_iff {ts : List Term} :
    isTypedAll ts = true ↔ ∀ t ∈ ts, t.isTyped = true := by
  induction ts with
  | nil => simp [isTypedAll]
  | cons t ts ih => simp [isTypedAll, ih]

/-- Putting well-typed terms for variables keeps a term well typed. -/
theorem isTyped_substitute {replace : Nat → Option Term}
    (hreplace : ∀ i u, replace i = some u → u.isTyped = true) {t : Term} (ht : t.isTyped = true)
    (d : Nat) : (t.substitute replace d).isTyped = true := by
  induction t using Term.ind generalizing d with
  | var i =>
    simp only [substitute]
    split
    · rfl
    · cases h : replace (i - d - 1) with
      | some u => exact hreplace _ u h
      | none => rfl
  | lambda body ih => exact ih ht (d + 1)
  | apply f a ihf iha =>
    simp only [isTyped, substitute, Bool.and_eq_true] at ht ⊢
    exact ⟨ihf ht.1 d, iha ht.2 d⟩
  | delay body ih => exact ih ht d
  | force body ih => exact ih ht d
  | constant c => exact ht
  | error => rfl
  | builtin fn => rfl
  | constr tag fields ih =>
    simp only [isTyped, substitute, substituteList_eq_map, isTypedAll_iff] at ht ⊢
    intro u hu
    obtain ⟨t, hmem, rfl⟩ := List.mem_map.1 hu
    exact ih t hmem (ht t hmem) d
  | case s branches ihs ihb =>
    simp only [isTyped, substitute, substituteList_eq_map, Bool.and_eq_true,
      isTypedAll_iff] at ht ⊢
    refine ⟨ihs ht.1 d, fun u hu => ?_⟩
    obtain ⟨t, hmem, rfl⟩ := List.mem_map.1 hu
    exact ihb t hmem (ht.2 t hmem) d

end Term

end PlutusCek
