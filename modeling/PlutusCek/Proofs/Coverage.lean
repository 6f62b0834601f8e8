import PlutusCek.Proofs.Addition

/-!
# Proofs.Coverage — one bundle contains another

Containment looks at the tokens of the contained bundle only (`Assets.contains_iff`).  A negative
quantity of the container for any other token goes unseen, so containment is the order of all
quantities exactly where there is none (`Assets.forall_lookup_le_iff`), and is transitive and
antisymmetric under that condition.
-/

namespace PlutusCek.Assets

variable {a b d w : Assets}

/-- Containment compares the quantities of the tokens that the contained bundle has. -/
theorem contains_iff (hb : b.Canonical) :
    a.contains b = true ↔ ∀ c t, b.lookup c t ≠ 0 → b.lookup c t ≤ a.lookup c t := by
  have hentries : a.contains b = true ↔
      ∀ e ∈ b.entries, e.quantity ≤ a.lookup e.currency e.token := by
    simp only [contains, List.all_eq_true, decide_eq_true_eq]
  rw [hentries]
  constructor
  · intro h c t hne
    exact h _ (mem_of_lookup hne)
  · intro h e he
    obtain ⟨hlookup, hne⟩ := hb.mem_entries_iff.1 he
    have hle := h e.currency e.token
    rw [hlookup] at hle
    exact hle hne

/-- Every negative quantity of `a` is for a token that `b` has. -/
def OwesWithin (a b : Assets) : Prop := ∀ c t, a.lookup c t < 0 → b.lookup c t ≠ 0

/-- Containment is the order of all quantities if no negative one goes unseen. -/
theorem forall_lookup_le_iff (hb : b.Canonical) :
    (∀ c t, b.lookup c t ≤ a.lookup c t) ↔ a.contains b = true ∧ a.OwesWithin b := by
  rw [contains_iff hb]
  constructor
  · intro h
    refine ⟨fun c t _ => h c t, fun c t hneg => ?_⟩
    have hle := h c t
    omega
  · rintro ⟨hheld, howes⟩ c t
    by_cases hzero : b.lookup c t = 0
    · have hnonneg : ¬ a.lookup c t < 0 := fun hneg => howes c t hneg hzero
      omega
    · exact hheld c t hzero

theorem contains_trans (hb : b.Canonical) (hd : d.Canonical) (hab : a.contains b = true)
    (hbd : b.contains d = true) (howes : a.OwesWithin b) : a.contains d = true := by
  have hle := (forall_lookup_le_iff hb).2 ⟨hab, howes⟩
  rw [contains_iff hd] at hbd ⊢
  intro c t hne
  exact Int.le_trans (hbd c t hne) (hle c t)

theorem eq_iff_of_contains (ha : a.Canonical) (hb : b.Canonical) (hab : a.contains b = true)
    (hba : b.contains a = true) : a = b ↔ a.OwesWithin b ∧ b.OwesWithin a := by
  constructor
  · rintro rfl
    have hself : a.OwesWithin a := fun c t hneg => Int.ne_of_lt hneg
    exact ⟨hself, hself⟩
  · rintro ⟨hwithin, hwithin'⟩
    have hle := (forall_lookup_le_iff hb).2 ⟨hab, hwithin⟩
    have hle' := (forall_lookup_le_iff ha).2 ⟨hba, hwithin'⟩
    exact ha.eq_of_lookup hb fun c t => Int.le_antisymm (hle' c t) (hle c t)

theorem union_contains_iff (ha : a.Canonical) (hb : b.Canonical) (hw : a.union b = .ok w) :
    w.contains a = true ↔ ∀ c t, a.lookup c t ≠ 0 → 0 ≤ b.lookup c t := by
  have hiff : ∀ c t, a.lookup c t ≤ w.lookup c t ↔ 0 ≤ b.lookup c t := by
    intro c t
    rw [lookup_union ha hb hw]
    omega
  rw [contains_iff ha]
  constructor
  · intro h c t hne
    exact (hiff c t).1 (h c t hne)
  · intro h c t hne
    exact (hiff c t).2 (h c t hne)

/-- **Containment is the order of the quantities of the tokens that the contained bundle has**, and
the order of all quantities exactly if the container is not negative for any other token.  It is
reflexive, transitive where the first bundle is negative only for tokens of the second, and bundles
that contain each other are equal exactly if each is negative only for tokens of the other.  A sum
contains its first part exactly if the second part is not negative for any token of the first. -/
theorem contains_exact (ha : a.Canonical) (hb : b.Canonical) (hd : d.Canonical) :
    (a.contains b = true ↔ ∀ c t, b.lookup c t ≠ 0 → b.lookup c t ≤ a.lookup c t) ∧
    ((∀ c t, b.lookup c t ≤ a.lookup c t) ↔ a.contains b = true ∧ a.OwesWithin b) ∧
    a.contains a = true ∧
    (a.contains b = true → b.contains d = true → a.OwesWithin b → a.contains d = true) ∧
    (a.contains b = true → b.contains a = true → (a = b ↔ a.OwesWithin b ∧ b.OwesWithin a)) ∧
    ∀ w, a.union b = .ok w →
      (w.contains a = true ↔ ∀ c t, a.lookup c t ≠ 0 → 0 ≤ b.lookup c t) := by
  refine ⟨contains_iff hb, forall_lookup_le_iff hb, (contains_iff ha).2 fun c t _ => Int.le_refl _,
    ?_, ?_, ?_⟩
  · exact fun hab hbd howes => contains_trans hb hd hab hbd howes
  · exact fun hab hba => eq_iff_of_contains ha hb hab hba
  · exact fun w hw => union_contains_iff ha hb hw

/-- A bundle with a positive and a negative quantity contains a smaller one that has both tokens. -/
theorem contains_exact_mixed :
    let a : Assets := ⟨⟨[([1], ⟨[([2], 7)]⟩), ([3], ⟨[([], -4)]⟩)]⟩⟩
    let b : Assets := ⟨⟨[([1], ⟨[([2], 6)]⟩), ([3], ⟨[([], -5)]⟩)]⟩⟩
    (a.Canonical ∧ b.Canonical ∧ empty.Canonical) ∧
      a.contains b = true ∧ a.OwesWithin b ∧ ∀ c t, b.lookup c t ≤ a.lookup c t := by
  intro a b
  have ha : a.Canonical :=
    (canonical_empty.inserted (c := [1]) (t := [2]) (q := 7) rfl).inserted
      (c := [3]) (t := []) (q := -4) rfl
  have hb : b.Canonical :=
    (canonical_empty.inserted (c := [1]) (t := [2]) (q := 6) rfl).inserted
      (c := [3]) (t := []) (q := -5) rfl
  have hcontains : a.contains b = true := by decide
  have howes : a.OwesWithin b := by
    intro c t hneg hzero
    have hmem := mem_of_lookup (Int.ne_of_lt hneg)
    rcases List.mem_pair.1 hmem with he | he
    · cases he
      exact absurd hneg (by decide)
    · cases he
      exact absurd hzero (by decide)
  obtain ⟨-, hle, -⟩ := contains_exact ha hb canonical_empty
  exact ⟨⟨ha, hb, canonical_empty⟩, hcontains, howes, hle.2 ⟨hcontains, howes⟩⟩

/-- A negative quantity for a token that the other bundle does not have: the empty bundle is
contained in a debt though it has more of the token, the two contain each other without being equal,
a smaller debt is contained in the empty bundle but not in the greater debt, and the sum of the
empty bundle and the debt contains the empty bundle though the debt is negative. -/
theorem contains_debt :
    let debt : Assets := ⟨⟨[([1], ⟨[([2], -5)]⟩)]⟩⟩
    let less : Assets := ⟨⟨[([1], ⟨[([2], -3)]⟩)]⟩⟩
    (debt.Canonical ∧ less.Canonical ∧ empty.Canonical) ∧
      (debt.contains empty = true ∧ ¬ empty.lookup [1] [2] ≤ debt.lookup [1] [2]) ∧
      (empty.contains debt = true ∧ debt ≠ empty) ∧
      (empty.contains less = true ∧ ¬ debt.contains less = true) ∧
      (empty.union debt = .ok debt ∧ debt.contains empty = true ∧ debt.lookup [1] [2] < 0) := by
  intro debt less
  have hdebt : debt.Canonical := canonical_empty.inserted (c := [1]) (t := [2]) (q := -5) rfl
  have hless : less.Canonical := canonical_empty.inserted (c := [1]) (t := [2]) (q := -3) rfl
  refine ⟨⟨hdebt, hless, canonical_empty⟩, ?_, ?_, ?_, ?_⟩
  · decide
  · decide
  · decide
  · exact ⟨rfl, by decide, by decide⟩

end PlutusCek.Assets
