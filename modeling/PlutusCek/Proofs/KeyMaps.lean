import Mathlib.Data.List.Sort
import PlutusCek.KeyMap

/-!
# Proofs.KeyMaps — ordered maps are determined by what they store

Storing and taking out change what is found under one key, in any map (`KeyMap.get?_insert`,
`KeyMap.get?_erase`), and keep the keys in strictly increasing order (`KeyMap.Sorted.insert`,
`KeyMap.Sorted.erase`).  A map in that order has the entries that are found under their keys, so it
is determined by what is found (`KeyMap.Sorted.eq_of_get?`).
-/

namespace PlutusCek

/-- What a comparison of byte strings tells about them. -/
theorem Bytes.compare_cases (a b : Bytes) :
    a.compare b = .lt ∧ a < b ∨ a.compare b = .eq ∧ a = b ∨ a.compare b = .gt ∧ b < a := by
  fun_induction compare a b with
  | case1 => exact .inr (.inl ⟨rfl, rfl⟩)
  | case2 b bs => exact .inl ⟨rfl, List.nil_lt_cons b bs⟩
  | case3 a as => exact .inr (.inr ⟨rfl, List.nil_lt_cons a as⟩)
  | case4 a as b bs hlt => exact .inl ⟨rfl, List.cons_lt_cons_iff.2 (.inl hlt)⟩
  | case5 a as b bs hle hlt => exact .inr (.inr ⟨rfl, List.cons_lt_cons_iff.2 (.inl hlt)⟩)
  | case6 a as b bs hle hge ih =>
    have hab : a = b := UInt8.toNat_inj.1 (Nat.le_antisymm (Nat.not_lt.1 hge) (Nat.not_lt.1 hle))
    subst hab
    rcases ih with ⟨hcmp, hlt⟩ | ⟨hcmp, heq⟩ | ⟨hcmp, hlt⟩
    · exact .inl ⟨hcmp, List.cons_lt_cons_iff.2 (.inr ⟨rfl, hlt⟩)⟩
    · exact .inr (.inl ⟨hcmp, congrArg (a :: ·) heq⟩)
    · exact .inr (.inr ⟨hcmp, List.cons_lt_cons_iff.2 (.inr ⟨rfl, hlt⟩)⟩)

namespace KeyMap

variable {α : Type} {m m' : KeyMap α} {key : Bytes} {x : α}

/-! ### What is found under a key -/

theorem get?_cons (p : Bytes × α) (rest : List (Bytes × α)) (key : Bytes) :
    get? ⟨p :: rest⟩ key = if p.1 = key then some p.2 else get? ⟨rest⟩ key := by
  obtain ⟨k, y⟩ := p
  show List.lookup key ((k, y) :: rest) = if k = key then some y else List.lookup key rest
  rw [List.lookup_cons]
  by_cases h : k = key
  · rw [if_pos h, beq_iff_eq.2 h.symm]
  · rw [if_neg h, beq_eq_false_iff_ne.2 (Ne.symm h)]

/-- An entry goes before the first one, over it, or after it. -/
theorem place_cons (key : Bytes) (x : α) (p : Bytes × α) (rest : List (Bytes × α)) :
    key < p.1 ∧ place key x (p :: rest) = (key, x) :: p :: rest ∨
      key = p.1 ∧ place key x (p :: rest) = (key, x) :: rest ∨
      p.1 < key ∧ place key x (p :: rest) = p :: place key x rest := by
  simp only [place]
  rcases Bytes.compare_cases key p.1 with ⟨hcmp, h⟩ | ⟨hcmp, h⟩ | ⟨hcmp, h⟩
  · rw [hcmp]
    exact .inl ⟨h, rfl⟩
  · rw [hcmp]
    exact .inr (.inl ⟨h, rfl⟩)
  · rw [hcmp]
    exact .inr (.inr ⟨h, rfl⟩)

theorem get?_place (key : Bytes) (x : α) (l : List (Bytes × α)) (key' : Bytes) :
    get? ⟨place key x l⟩ key' = if key = key' then some x else get? ⟨l⟩ key' := by
  induction l with
  | nil => exact get?_cons (key, x) [] key'
  | cons p rest ih =>
    rcases place_cons key x p rest with ⟨-, hplace⟩ | ⟨hkey, hplace⟩ | ⟨hlt, hplace⟩
    · rw [hplace, get?_cons]
    · rw [hplace, get?_cons, get?_cons, ← hkey]
      by_cases h : key = key'
      · rw [if_pos h, if_pos h]
      · rw [if_neg h, if_neg h, if_neg h]
    · rw [hplace, get?_cons, get?_cons, ih]
      by_cases h : key = key'
      · have hne : p.1 ≠ key' := fun h' => List.lt_irrefl _ (h ▸ h' ▸ hlt)
        rw [if_pos h, if_pos h, if_neg hne]
      · rw [if_neg h, if_neg h]

theorem get?_insert (m : KeyMap α) (key : Bytes) (x : α) (key' : Bytes) :
    (m.insert key x).get? key' = if key = key' then some x else m.get? key' :=
  get?_place key x m.entries key'

theorem get?_erase (m : KeyMap α) (key key' : Bytes) :
    (m.erase key).get? key' = if key = key' then none else m.get? key' := by
  obtain ⟨l⟩ := m
  induction l with
  | nil => exact (ite_self none).symm
  | cons p rest ih =>
    have herase : erase ⟨p :: rest⟩ key =
        if p.1 = key then erase ⟨rest⟩ key else ⟨p :: (erase ⟨rest⟩ key).entries⟩ := by
      simp only [erase, List.filter_cons]
      by_cases h : p.1 = key
      · rw [if_pos h, bne_eq_false_iff_eq.2 h]
        rfl
      · rw [if_neg h, bne_iff_ne.2 h]
        rfl
    rw [herase, get?_cons]
    by_cases hp : p.1 = key
    · rw [if_pos hp, ih, hp]
      by_cases h : key = key'
      · rw [if_pos h, if_pos h]
      · rw [if_neg h, if_neg h, if_neg h]
    · rw [if_neg hp, get?_cons]
      by_cases h : key = key'
      · rw [if_neg (h ▸ hp), if_pos h, ih, if_pos h]
      · rw [if_neg h]
        exact congrArg (ite _ _) (ih.trans (if_neg h))

theorem isEmpty_iff : m.isEmpty = true ↔ m.entries = [] := List.isEmpty_iff

theorem not_contains_iff : ¬ m.contains key = true ↔ m.get? key = none := by
  rw [contains, Option.not_isSome_iff_eq_none]

theorem eq_empty_of_isEmpty (h : m.isEmpty = true) : m = empty := by
  obtain ⟨l⟩ := m
  exact congrArg KeyMap.mk (isEmpty_iff.1 h)

/-- What is found is an entry. -/
theorem mem_of_get? (h : m.get? key = some x) : (key, x) ∈ m.entries := by
  obtain ⟨l⟩ := m
  induction l with
  | nil => cases h
  | cons p rest ih =>
    rw [get?_cons] at h
    by_cases hp : p.1 = key
    · rw [if_pos hp, Option.some.injEq] at h
      subst hp h
      exact List.mem_cons_self
    · rw [if_neg hp] at h
      exact List.mem_cons_of_mem _ (ih h)

/-! ### Entries in the order of their keys -/

/-- The key of the first entry comes before the one of the second. -/
def KeyBefore (p r : Bytes × α) : Prop := p.1 < r.1

instance : Std.Irrefl (KeyBefore (α := α)) := ⟨fun _ h => List.lt_irrefl _ h⟩

instance : Std.Antisymm (KeyBefore (α := α)) :=
  ⟨fun _ _ h h' => absurd (List.lt_trans h h') (List.lt_irrefl _)⟩

/-- The keys are strictly increasing. -/
def Sorted (m : KeyMap α) : Prop := m.entries.Pairwise KeyBefore

theorem sorted_empty : (empty : KeyMap α).Sorted := List.Pairwise.nil

theorem forall_mem_place {P : Bytes × α → Prop} {l : List (Bytes × α)} (hx : P (key, x))
    (hl : ∀ p ∈ l, P p) : ∀ p ∈ place key x l, P p := by
  induction l with
  | nil => exact List.forall_mem_singleton.2 hx
  | cons p rest ih =>
    obtain ⟨hp, hrest⟩ := List.forall_mem_cons.1 hl
    rcases place_cons key x p rest with ⟨-, hplace⟩ | ⟨-, hplace⟩ | ⟨-, hplace⟩
    · rw [hplace]
      exact List.forall_mem_cons.2 ⟨hx, hl⟩
    · rw [hplace]
      exact List.forall_mem_cons.2 ⟨hx, hrest⟩
    · rw [hplace]
      exact List.forall_mem_cons.2 ⟨hp, ih hrest⟩

/-- What holds of all entries and of a new one holds of all after it was stored. -/
theorem forall_mem_insert {P : Bytes × α → Prop} (hx : P (key, x)) (hm : ∀ p ∈ m.entries, P p) :
    ∀ p ∈ (m.insert key x).entries, P p :=
  forall_mem_place hx hm

theorem forall_mem_erase {P : Bytes × α → Prop} (hm : ∀ p ∈ m.entries, P p) :
    ∀ p ∈ (m.erase key).entries, P p :=
  fun p hp => hm p (List.mem_filter.1 hp).1

theorem insert_entries_ne_nil (m : KeyMap α) (key : Bytes) (x : α) :
    (m.insert key x).entries ≠ [] := by
  intro hnil
  have hfound : (m.insert key x).get? key = none := by rw [get?, hnil]; rfl
  rw [get?_insert, if_pos rfl] at hfound
  cases hfound

namespace Sorted

theorem place {l : List (Bytes × α)} (h : l.Pairwise KeyBefore) :
    (KeyMap.place key x l).Pairwise KeyBefore := by
  induction l with
  | nil => exact List.pairwise_singleton _ _
  | cons p rest ih =>
    obtain ⟨hp, hrest⟩ := List.pairwise_cons.1 h
    rcases place_cons key x p rest with ⟨hlt, hplace⟩ | ⟨heq, hplace⟩ | ⟨hlt, hplace⟩
    · rw [hplace]
      have htail : ∀ r ∈ rest, KeyBefore (key, x) r := fun r hr => List.lt_trans hlt (hp r hr)
      exact List.pairwise_cons.2 ⟨List.forall_mem_cons.2 ⟨hlt, htail⟩, h⟩
    · rw [hplace]
      refine List.pairwise_cons.2 ⟨fun r hr => ?_, hrest⟩
      show key < r.1
      rw [heq]
      exact hp r hr
    · rw [hplace]
      exact List.pairwise_cons.2 ⟨forall_mem_place hlt hp, ih hrest⟩

theorem insert (h : m.Sorted) (key : Bytes) (x : α) : (m.insert key x).Sorted := Sorted.place h

theorem erase (h : m.Sorted) (key : Bytes) : (m.erase key).Sorted := h.sublist List.filter_sublist

/-- An entry is found under its key. -/
theorem get?_of_mem (h : m.Sorted) (hmem : (key, x) ∈ m.entries) : m.get? key = some x := by
  obtain ⟨l⟩ := m
  induction l with
  | nil => cases hmem
  | cons p rest ih =>
    obtain ⟨hp, hrest⟩ := List.pairwise_cons.1 h
    rw [get?_cons]
    rcases List.mem_cons.1 hmem with rfl | hrest'
    · exact if_pos rfl
    · have hne : p.1 ≠ key := fun heq => List.lt_irrefl _ (heq ▸ hp _ hrest')
      rw [if_neg hne, ih hrest hrest']

theorem mem_iff (h : m.Sorted) : (key, x) ∈ m.entries ↔ m.get? key = some x :=
  ⟨h.get?_of_mem, mem_of_get?⟩

/-- A map in order is determined by its entries, in whatever order they are seen. -/
theorem eq_of_mem (h : m.Sorted) (h' : m'.Sorted) (hmem : ∀ p, p ∈ m.entries ↔ p ∈ m'.entries) :
    m = m' := by
  have hentries : m.entries = m'.entries := List.Pairwise.eq_of_mem_iff h h' hmem
  obtain ⟨l⟩ := m
  obtain ⟨l'⟩ := m'
  exact congrArg KeyMap.mk hentries

/-- A map in order is determined by what is found in it. -/
theorem eq_of_get? (h : m.Sorted) (h' : m'.Sorted) (hget : ∀ key, m.get? key = m'.get? key) :
    m = m' := by
  refine h.eq_of_mem h' fun p => ?_
  rw [h.mem_iff, h'.mem_iff, hget]

/-- No key has two entries. -/
theorem nodup_keys (h : m.Sorted) : (m.entries.map Prod.fst).Nodup := by
  refine List.pairwise_map.2 (h.imp fun {p r} hlt heq => ?_)
  unfold KeyBefore at hlt
  rw [heq] at hlt
  exact List.lt_irrefl _ hlt

end Sorted

end KeyMap

end PlutusCek
