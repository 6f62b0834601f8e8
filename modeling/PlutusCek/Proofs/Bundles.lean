import Mathlib.Data.Set.Card
import PlutusCek.Assets
import PlutusCek.Proofs.KeyMaps

/-!
# Proofs.Bundles — bundles of assets are canonical finite maps

Every operation that builds bundles keeps the currencies and their tokens in order, leaves no
currency without tokens and no zero quantity, and stays within the limits
(`Assets.Built.canonical`).  A canonical bundle has exactly the entries that a lookup finds
(`Assets.Canonical.mem_entries_iff`).  As it has no currency without tokens, which no lookup would
show, it is determined by its lookups (`Assets.Canonical.eq_of_lookup`).  Inserting sets one lookup
and leaves the others alone; on the list of all entries it replaces the one of the token
(`Assets.Canonical.entries_updated`).
-/

namespace PlutusCek

namespace AssetEntry

/-- The entry is for the token. -/
def Holds (e : AssetEntry) (currency token : Bytes) : Prop :=
  e.currency = currency ∧ e.token = token

instance (e : AssetEntry) (currency token : Bytes) : Decidable (e.Holds currency token) :=
  inferInstanceAs (Decidable (_ ∧ _))

/-- Strictly before in the order of currencies, and of tokens under one currency. -/
def Before (e x : AssetEntry) : Prop :=
  e.currency < x.currency ∨ e.currency = x.currency ∧ e.token < x.token

instance (e x : AssetEntry) : Decidable (e.Before x) := inferInstanceAs (Decidable (_ ∨ _))

variable {e x y : AssetEntry}

theorem Before.trans (h : e.Before x) (h' : x.Before y) : e.Before y := by
  rcases h with h | ⟨hc, ht⟩
  · rcases h' with h' | ⟨hc', -⟩
    · exact .inl (List.lt_trans h h')
    · exact .inl (hc' ▸ h)
  · rcases h' with h' | ⟨hc', ht'⟩
    · exact .inl (hc ▸ h')
    · exact .inr ⟨hc.trans hc', List.lt_trans ht ht'⟩

theorem Before.not_holds (h : e.Before x) : ¬ e.Holds x.currency x.token := by
  rintro ⟨hc, ht⟩
  rcases h with h | ⟨-, h⟩
  · exact List.lt_irrefl _ (hc ▸ h)
  · exact List.lt_irrefl _ (ht ▸ h)

theorem eq_of_holds (h : e.Holds x.currency x.token) (hquantity : e.quantity = x.quantity) :
    e = x := by
  obtain ⟨ec, et, eq⟩ := e
  obtain ⟨xc, xt, xq⟩ := x
  obtain ⟨hc, ht⟩ := h
  cases hc
  cases ht
  cases hquantity
  rfl

/-- Of two entries one is before the other, or they are for the same token. -/
theorem before_cases (e x : AssetEntry) :
    e.Before x ∨ e.Holds x.currency x.token ∨ x.Before e := by
  rcases Bytes.compare_cases e.currency x.currency with ⟨-, hlt⟩ | ⟨-, hc⟩ | ⟨-, hlt⟩
  · exact .inl (.inl hlt)
  · rcases Bytes.compare_cases e.token x.token with ⟨-, hlt⟩ | ⟨-, ht⟩ | ⟨-, hlt⟩
    · exact .inl (.inr ⟨hc, hlt⟩)
    · exact .inr (.inl ⟨hc, ht⟩)
    · exact .inr (.inr (.inr ⟨hc.symm, hlt⟩))
  · exact .inr (.inr (.inl hlt))

instance : Std.Irrefl Before := ⟨fun _ h => h.not_holds ⟨rfl, rfl⟩⟩

instance : Std.Antisymm Before := ⟨fun _ _ h h' => absurd ⟨rfl, rfl⟩ (h.trans h').not_holds⟩

end AssetEntry

namespace Assets

open AssetEntry (Before)

variable {a b : Assets} {c t : Bytes} {q : Int}

/-! ### Lookups -/

theorem get?_eq (a : Assets) (c t : Bytes) : a.get? c t = (a.tokens c).get? t := by
  rw [get?, tokens]
  cases a.currencies.get? c with
  | none => rfl
  | some tokens => rfl

theorem tokens_of_get? {tokens : KeyMap Int} (h : a.currencies.get? c = some tokens) :
    a.tokens c = tokens := by
  rw [Assets.tokens, h]
  rfl

theorem tokens_deposit (a : Assets) (c t : Bytes) (q : Int) (c' : Bytes) :
    (a.deposit c t q).tokens c' = if c = c' then (a.tokens c).insert t q else a.tokens c' := by
  rw [tokens, deposit, KeyMap.get?_insert]
  split
  · rfl
  · rfl

theorem tokens_withdraw (a : Assets) (c t c' : Bytes) :
    (a.withdraw c t).tokens c' = if c = c' then (a.tokens c).erase t else a.tokens c' := by
  unfold withdraw
  cases hget : a.currencies.get? c with
  | none =>
    have hnone : a.tokens c = .empty := by rw [tokens, hget]; rfl
    show a.tokens c' = _
    by_cases hc : c = c'
    · rw [if_pos hc, ← hc, hnone]
      rfl
    · rw [if_neg hc]
  | some tokens =>
    rw [tokens_of_get? hget]
    dsimp only
    split
    · -- the currency goes with its last token, which leaves it without tokens as well
      rename_i hempty
      rw [Assets.tokens, KeyMap.get?_erase]
      split
      · exact (KeyMap.eq_empty_of_isEmpty hempty).symm
      · rfl
    · rw [Assets.tokens, KeyMap.get?_insert]
      split
      · rfl
      · rfl

/-- The bundle with a quantity set. -/
def updated (a : Assets) (currency token : Bytes) (q : Int) : Assets :=
  if q = 0 then a.withdraw currency token else a.deposit currency token q

theorem get?_updated (a : Assets) (c t : Bytes) (q : Int) (c' t' : Bytes) :
    (a.updated c t q).get? c' t' =
      if c = c' ∧ t = t' then (if q = 0 then none else some q) else a.get? c' t' := by
  have htokens : (a.updated c t q).tokens c' = if c = c' then
      (if q = 0 then (a.tokens c).erase t else (a.tokens c).insert t q) else a.tokens c' := by
    unfold updated
    by_cases hq : q = 0
    · rw [if_pos hq, if_pos hq, tokens_withdraw]
    · rw [if_neg hq, if_neg hq, tokens_deposit]
  rw [get?_eq, get?_eq, htokens]
  by_cases hc : c = c'
  · subst hc
    simp only [if_true, true_and]
    split
    · rw [KeyMap.get?_erase]
    · rw [KeyMap.get?_insert]
  · rw [if_neg hc, if_neg fun h => hc h.1]

theorem lookup_updated (a : Assets) (c t : Bytes) (q : Int) (c' t' : Bytes) :
    (a.updated c t q).lookup c' t' = if c = c' ∧ t = t' then q else a.lookup c' t' := by
  rw [lookup, get?_updated]
  split
  · split
    · rename_i hq
      exact hq.symm
    · rfl
  · rfl

/-! ### Inserting -/

/-- The keys are short enough and the quantity is in the signed 128-bit range. -/
structure Fits (currency token : Bytes) (q : Int) : Prop where
  currency : currency.length ≤ 32
  token : token.length ≤ 32
  lower : -2 ^ 127 ≤ q
  upper : q < 2 ^ 127

theorem checkKey_cases (key : Bytes) :
    key.length ≤ 32 ∧ checkKey key = .ok () ∨
      32 < key.length ∧ checkKey key = .error (.keyTooLong key.length) := by
  by_cases h : 32 < key.length
  · exact .inr ⟨h, if_pos h⟩
  · exact .inl ⟨Nat.not_lt.1 h, if_neg h⟩

theorem checkQuantity_cases (q : Int) :
    (-2 ^ 127 ≤ q ∧ q < 2 ^ 127) ∧ checkQuantity q = .ok () ∨
      ¬ (-2 ^ 127 ≤ q ∧ q < 2 ^ 127) ∧ checkQuantity q = .error (.quantityOutOfRange q) := by
  by_cases h : q < leastQuantity ∨ greatestQuantity < q
  · refine .inr ⟨?_, if_pos h⟩
    unfold leastQuantity greatestQuantity at h
    omega
  · refine .inl ⟨?_, if_neg h⟩
    unfold leastQuantity greatestQuantity at h
    omega

/-- A quantity that fits is set. -/
theorem insert_of_fits (a : Assets) (h : Fits c t q) :
    a.insert c t q = (.ok (), a.updated c t q) := by
  have hc := (checkKey_cases c).resolve_right fun h' => Nat.not_lt.2 h.currency h'.1
  have ht := (checkKey_cases t).resolve_right fun h' => Nat.not_lt.2 h.token h'.1
  have hq := (checkQuantity_cases q).resolve_right fun h' => h'.1 ⟨h.lower, h.upper⟩
  rw [insert, setQuantity, hc.2, ht.2, hq.2, updated]
  split
  · rfl
  · rfl

/-- All checks come before the bundle is touched. -/
theorem insert_of_not_fits (a : Assets) (h : ¬ Fits c t q) :
    ∃ e, a.insert c t q = (.error e, a) := by
  rw [insert, setQuantity]
  rcases checkKey_cases c with ⟨hlc, hc⟩ | ⟨-, hc⟩
  · rcases checkKey_cases t with ⟨hlt, ht⟩ | ⟨-, ht⟩
    · rcases checkQuantity_cases q with ⟨⟨hl, hu⟩, -⟩ | ⟨-, hq⟩
      · exact absurd ⟨hlc, hlt, hl, hu⟩ h
      · rw [hc, ht, hq]
        exact ⟨_, rfl⟩
    · rw [hc, ht]
      exact ⟨_, rfl⟩
  · rw [hc]
    exact ⟨_, rfl⟩

theorem inserted_of_fits (a : Assets) (h : Fits c t q) :
    a.inserted c t q = .ok (a.updated c t q) :=
  Update.result_of_ok (insert_of_fits a h)

theorem inserted_of_not_fits (a : Assets) (h : ¬ Fits c t q) :
    ∃ e, a.inserted c t q = .error e := by
  obtain ⟨e, he⟩ := insert_of_not_fits a h
  exact ⟨e, Update.result_of_error he⟩

/-- When a quantity can be set, and what comes of it. -/
theorem inserted_eq_ok_iff : a.inserted c t q = .ok b ↔ Fits c t q ∧ b = a.updated c t q := by
  by_cases h : Fits c t q
  · rw [inserted_of_fits a h, Except.ok.injEq, eq_comm]
    exact (and_iff_right h).symm
  · obtain ⟨e, he⟩ := inserted_of_not_fits a h
    rw [he]
    exact iff_of_false (fun h' => by cases h') fun h' => h h'.1

theorem insert_error_iff :
    (∃ e, (a.insert c t q).1 = .error e) ↔
      32 < c.length ∨ 32 < t.length ∨ q < -2 ^ 127 ∨ 2 ^ 127 ≤ q := by
  have hfits : Fits c t q ↔ ¬ (32 < c.length ∨ 32 < t.length ∨ q < -2 ^ 127 ∨ 2 ^ 127 ≤ q) := by
    constructor
    · rintro ⟨hc, ht, hl, hu⟩
      omega
    · intro h
      exact ⟨by omega, by omega, by omega, by omega⟩
  by_cases h : Fits c t q
  · rw [insert_of_fits a h]
    exact iff_of_false (fun ⟨e, he⟩ => by cases he) (hfits.1 h)
  · obtain ⟨e, he⟩ := insert_of_not_fits a h
    rw [he]
    exact iff_of_true ⟨e, rfl⟩ (not_not.1 fun h' => h (hfits.2 h'))

/-! ### Canonical bundles -/

/-- The tokens of a currency are within the limits, not zero, and in order. -/
structure Sound (currency : Bytes) (tokens : KeyMap Int) : Prop where
  fits : ∀ p ∈ tokens.entries, Fits currency p.1 p.2
  nonzero : ∀ p ∈ tokens.entries, p.2 ≠ 0
  sorted : tokens.Sorted

/-- The currencies are in order, and each one has tokens, all of them sound. -/
structure Canonical (a : Assets) : Prop where
  sound : ∀ p ∈ a.currencies.entries, Sound p.1 p.2
  inhabited : ∀ p ∈ a.currencies.entries, p.2.entries ≠ []
  sorted : a.currencies.Sorted

theorem sound_empty (c : Bytes) : Sound c .empty :=
  ⟨List.forall_mem_nil _, List.forall_mem_nil _, KeyMap.sorted_empty⟩

theorem Sound.insert {tokens : KeyMap Int} (h : Sound c tokens) (hfits : Fits c t q) (hq : q ≠ 0) :
    Sound c (tokens.insert t q) :=
  ⟨KeyMap.forall_mem_insert hfits h.fits, KeyMap.forall_mem_insert hq h.nonzero,
    h.sorted.insert t q⟩

theorem Sound.erase {tokens : KeyMap Int} (h : Sound c tokens) (t : Bytes) :
    Sound c (tokens.erase t) :=
  ⟨KeyMap.forall_mem_erase h.fits, KeyMap.forall_mem_erase h.nonzero, h.sorted.erase t⟩

theorem canonical_empty : empty.Canonical :=
  ⟨List.forall_mem_nil _, List.forall_mem_nil _, KeyMap.sorted_empty⟩

theorem Canonical.sound_tokens (h : a.Canonical) (c : Bytes) : Sound c (a.tokens c) := by
  cases hget : a.currencies.get? c with
  | none =>
    rw [tokens, hget]
    exact sound_empty c
  | some tokens =>
    rw [tokens_of_get? hget]
    exact h.sound _ (KeyMap.mem_of_get? hget)

theorem Canonical.deposit (h : a.Canonical) (hfits : Fits c t q) (hq : q ≠ 0) :
    (a.deposit c t q).Canonical where
  sound := KeyMap.forall_mem_insert ((h.sound_tokens c).insert hfits hq) h.sound
  inhabited := KeyMap.forall_mem_insert (KeyMap.insert_entries_ne_nil _ t q) h.inhabited
  sorted := h.sorted.insert c _

theorem Canonical.withdraw (h : a.Canonical) (c t : Bytes) : (a.withdraw c t).Canonical := by
  unfold Assets.withdraw
  cases hget : a.currencies.get? c with
  | none => exact h
  | some tokens =>
    dsimp only
    split
    · exact ⟨KeyMap.forall_mem_erase h.sound, KeyMap.forall_mem_erase h.inhabited,
        h.sorted.erase c⟩
    · rename_i hleft
      have hsound := h.sound _ (KeyMap.mem_of_get? hget)
      exact ⟨KeyMap.forall_mem_insert (hsound.erase t) h.sound,
        KeyMap.forall_mem_insert (fun hnil => hleft (KeyMap.isEmpty_iff.2 hnil)) h.inhabited,
        h.sorted.insert c _⟩

theorem Canonical.updated (h : a.Canonical) (hfits : Fits c t q) : (a.updated c t q).Canonical := by
  unfold Assets.updated
  split
  · exact h.withdraw c t
  · rename_i hq
    exact h.deposit hfits hq

theorem Canonical.inserted (h : a.Canonical) (hb : a.inserted c t q = .ok b) : b.Canonical := by
  obtain ⟨hfits, rfl⟩ := inserted_eq_ok_iff.1 hb
  exact h.updated hfits

/-- What every step of a fold keeps is kept by the fold. -/
theorem foldlM_keeps {σ α ε : Type} {P : σ → Prop} {step : σ → α → Except ε σ}
    (hstep : ∀ {s x s'}, P s → step s x = .ok s' → P s') {l : List α} {s s' : σ} (hs : P s)
    (h : l.foldlM step s = .ok s') : P s' := by
  induction l generalizing s with
  | nil =>
    cases h
    exact hs
  | cons x xs ih =>
    rw [List.foldlM_cons] at h
    cases hx : step s x with
    | error e =>
      rw [hx] at h
      cases h
    | ok s'' =>
      rw [hx] at h
      exact ih (hstep hs hx) h

theorem Canonical.union (h : a.Canonical) {out : Assets} (hout : a.union b = .ok out) :
    out.Canonical :=
  foldlM_keeps (fun hs hx => hs.inserted hx) h hout

theorem canonical_scale {n : Int} {out : Assets} (hout : a.scale n = .ok out) : out.Canonical :=
  foldlM_keeps (fun hs hx => hs.inserted hx) canonical_empty hout

/-! ### Reading data -/

/-- No token of that name was read so far. -/
theorem not_any_contains_iff :
    (¬ ((a.currencies.get? c).any fun tokens => tokens.contains t) = true) ↔ a.get? c t = none := by
  rw [get?]
  cases a.currencies.get? c with
  | none => exact iff_of_true Bool.false_ne_true rfl
  | some tokens => exact KeyMap.not_contains_iff

/-- A token is read if it is well formed and new. -/
theorem readTokens_cons_iff {out : Assets} {p : Data × Data} {rest : List (Data × Data)} :
    readTokens c out (p :: rest) = .ok a ↔
      ∃ t q, p = (.bytes t, .integer q) ∧ q ≠ 0 ∧ out.get? c t = none ∧ Fits c t q ∧
        readTokens c (out.updated c t q) rest = .ok a := by
  constructor
  · intro h
    obtain ⟨k, v⟩ := p
    cases k with
    | bytes t =>
      cases v with
      | integer q =>
        simp only [readTokens, bind, Except.bind] at h
        by_cases hq : q = 0
        · rw [if_pos hq] at h
          cases h
        by_cases hheld : ((out.currencies.get? c).any fun tokens => tokens.contains t) = true
        · rw [if_neg hq, if_pos hheld] at h
          cases h
        rw [if_neg hq, if_neg hheld] at h
        cases hinsert : out.inserted c t q with
        | error e =>
          rw [hinsert] at h
          cases h
        | ok out' =>
          rw [hinsert] at h
          obtain ⟨hfits, rfl⟩ := inserted_eq_ok_iff.1 hinsert
          exact ⟨t, q, rfl, hq, not_any_contains_iff.1 hheld, hfits, h⟩
      | _ =>
        simp only [readTokens] at h
        cases h
    | _ =>
      simp only [readTokens] at h
      cases h
  · rintro ⟨t, q, rfl, hq, hnew, hfits, hrest⟩
    simp only [readTokens, bind, Except.bind]
    rw [if_neg hq, if_neg (not_any_contains_iff.2 hnew), inserted_of_fits out hfits]
    exact hrest

/-- A currency is read if it is well formed and new. -/
theorem readCurrencies_cons_iff {out : Assets} {p : Data × Data} {rest : List (Data × Data)} :
    readCurrencies out (p :: rest) = .ok a ↔
      ∃ c tokens out', p = (.bytes c, .map tokens) ∧ tokens ≠ [] ∧ out.currencies.get? c = none ∧
        readTokens c out tokens = .ok out' ∧ readCurrencies out' rest = .ok a := by
  constructor
  · intro h
    obtain ⟨k, v⟩ := p
    cases k with
    | bytes c =>
      cases v with
      | map tokens =>
        simp only [readCurrencies, bind, Except.bind] at h
        by_cases hempty : tokens.isEmpty = true
        · rw [if_pos hempty] at h
          cases h
        by_cases hheld : out.currencies.contains c = true
        · rw [if_neg hempty, if_pos hheld] at h
          cases h
        rw [if_neg hempty, if_neg hheld] at h
        have htokens : tokens ≠ [] := fun hnil => hempty (List.isEmpty_iff.2 hnil)
        cases hread : readTokens c out tokens with
        | error e =>
          rw [hread] at h
          cases h
        | ok out' =>
          rw [hread] at h
          exact ⟨c, tokens, out', rfl, htokens, KeyMap.not_contains_iff.1 hheld, hread, h⟩
      | _ =>
        simp only [readCurrencies] at h
        cases h
    | _ =>
      simp only [readCurrencies] at h
      cases h
  · rintro ⟨c, tokens, out', rfl, hne, hnew, hread, hrest⟩
    have hempty : ¬ tokens.isEmpty = true := fun h => hne (List.isEmpty_iff.1 h)
    simp only [readCurrencies, bind, Except.bind]
    rw [if_neg hempty, if_neg (KeyMap.not_contains_iff.2 hnew), hread]
    exact hrest

theorem Canonical.readTokens {out : Assets} {l : List (Data × Data)} (h : out.Canonical)
    (ha : readTokens c out l = .ok a) : a.Canonical := by
  induction l generalizing out with
  | nil =>
    cases ha
    exact h
  | cons p rest ih =>
    obtain ⟨t, q, -, -, -, hfits, hrest⟩ := readTokens_cons_iff.1 ha
    exact ih (h.updated hfits) hrest

theorem Canonical.readCurrencies {out : Assets} {l : List (Data × Data)} (h : out.Canonical)
    (ha : readCurrencies out l = .ok a) : a.Canonical := by
  induction l generalizing out with
  | nil =>
    cases ha
    exact h
  | cons p rest ih =>
    obtain ⟨c, tokens, out', -, -, -, htokens, hrest⟩ := readCurrencies_cons_iff.1 ha
    exact ih (h.readTokens htokens) hrest

theorem canonical_ofData {d : Data} (h : ofData d = .ok a) : a.Canonical := by
  cases d with
  | map entries => exact canonical_empty.readCurrencies h
  | _ => cases h

/-- The bundles that can be built from the empty one. -/
inductive Built : Assets → Prop
  | empty : Built empty
  | insert {a b : Assets} {c t : Bytes} {q : Int} (ha : Built a)
      (h : a.insert c t q = (.ok (), b)) : Built b
  | union {a b out : Assets} (ha : Built a) (hb : Built b) (h : a.union b = .ok out) : Built out
  | scale {a out : Assets} {n : Int} (ha : Built a) (h : a.scale n = .ok out) : Built out
  | ofData {d : Data} {a : Assets} (h : Assets.ofData d = .ok a) : Built a

theorem Built.canonical (h : Built a) : a.Canonical := by
  induction h with
  | empty => exact canonical_empty
  | insert _ hinsert ih => exact ih.inserted (Update.result_of_ok hinsert)
  | union _ _ hunion ih _ => exact ih.union hunion
  | scale _ hscale _ => exact canonical_scale hscale
  | ofData hdata => exact canonical_ofData hdata

/-! ### A bundle and its lookups -/

/-- An entry is one of a token map of a currency. -/
theorem mem_entries {e : AssetEntry} :
    e ∈ a.entries ↔ ∃ tokens, (e.currency, tokens) ∈ a.currencies.entries ∧
      (e.token, e.quantity) ∈ tokens.entries := by
  simp only [entries, List.mem_flatMap, List.mem_map]
  constructor
  · rintro ⟨⟨c, tokens⟩, hcurrency, ⟨t, q⟩, htoken, rfl⟩
    exact ⟨tokens, hcurrency, htoken⟩
  · rintro ⟨tokens, hcurrency, htoken⟩
    exact ⟨(e.currency, tokens), hcurrency, (e.token, e.quantity), htoken, rfl⟩

theorem mem_of_get? (h : a.get? c t = some q) : ⟨c, t, q⟩ ∈ a.entries := by
  rw [get?, Option.bind_eq_some_iff] at h
  obtain ⟨tokens, hcurrency, htoken⟩ := h
  exact mem_entries.2 ⟨tokens, KeyMap.mem_of_get? hcurrency, KeyMap.mem_of_get? htoken⟩

theorem mem_of_lookup (h : a.lookup c t ≠ 0) : ⟨c, t, a.lookup c t⟩ ∈ a.entries := by
  unfold lookup at h ⊢
  cases hget : a.get? c t with
  | none =>
    rw [hget] at h
    exact absurd rfl h
  | some q => exact mem_of_get? hget

namespace Canonical

theorem fits (h : a.Canonical) {e : AssetEntry} (he : e ∈ a.entries) :
    Fits e.currency e.token e.quantity := by
  obtain ⟨tokens, hcurrency, htoken⟩ := mem_entries.1 he
  exact (h.sound _ hcurrency).fits _ htoken

theorem nonzero (h : a.Canonical) {e : AssetEntry} (he : e ∈ a.entries) : e.quantity ≠ 0 := by
  obtain ⟨tokens, hcurrency, htoken⟩ := mem_entries.1 he
  exact (h.sound _ hcurrency).nonzero _ htoken

theorem mem_iff_get? (h : a.Canonical) {e : AssetEntry} :
    e ∈ a.entries ↔ a.get? e.currency e.token = some e.quantity := by
  refine ⟨fun he => ?_, mem_of_get?⟩
  obtain ⟨tokens, hcurrency, htoken⟩ := mem_entries.1 he
  rw [Assets.get?, h.sorted.get?_of_mem hcurrency]
  exact (h.sound _ hcurrency).sorted.get?_of_mem htoken

/-- The entries are what the lookups find. -/
theorem mem_entries_iff (h : a.Canonical) {e : AssetEntry} :
    e ∈ a.entries ↔ a.lookup e.currency e.token = e.quantity ∧ e.quantity ≠ 0 := by
  constructor
  · intro he
    refine ⟨?_, h.nonzero he⟩
    rw [lookup, h.mem_iff_get?.1 he]
    rfl
  · rintro ⟨hlookup, hne⟩
    have hmem := mem_of_lookup (a := a) (hlookup ▸ hne)
    rwa [hlookup] at hmem

/-- The entries are in the order of their keys. -/
theorem sorted_entries (h : a.Canonical) : a.entries.Pairwise Before := by
  refine List.pairwise_flatMap.2 ⟨fun p hp => ?_, h.sorted.imp fun {p r} hlt => ?_⟩
  · exact List.pairwise_map.2 ((h.sound p hp).sorted.imp fun hlt => .inr ⟨rfl, hlt⟩)
  · exact List.forall_mem_map.2 fun _ _ => List.forall_mem_map.2 fun _ _ => .inl hlt

/-- A currency has tokens, so a bundle that finds no token of it does not have it. -/
theorem currency_eq_none (h : a.Canonical) (hnone : ∀ t, a.get? c t = none) :
    a.currencies.get? c = none := by
  by_contra hne
  obtain ⟨tokens, hget⟩ := Option.ne_none_iff_exists'.1 hne
  have hmem := KeyMap.mem_of_get? hget
  obtain ⟨p, hp⟩ := List.exists_mem_of_ne_nil _ (h.inhabited _ hmem)
  have hfound := (h.sound _ hmem).sorted.get?_of_mem hp
  have hmissing := hnone p.1
  rw [Assets.get?_eq, tokens_of_get? hget, hfound] at hmissing
  cases hmissing

/-- A canonical bundle is determined by what is stored. -/
theorem eq_of_get? (ha : a.Canonical) (hb : b.Canonical) (h : ∀ c t, a.get? c t = b.get? c t) :
    a = b := by
  have habsent : ∀ {x y : Assets}, x.Canonical → (∀ c t, x.get? c t = y.get? c t) → ∀ {c},
      y.currencies.get? c = none → x.currencies.get? c = none := by
    intro x y hx hxy c hget
    refine hx.currency_eq_none fun t => ?_
    rw [hxy, Assets.get?, hget]
    rfl
  have hcurrencies : a.currencies = b.currencies := by
    refine ha.sorted.eq_of_get? hb.sorted fun c => ?_
    cases hbc : b.currencies.get? c with
    | none => exact habsent ha h hbc
    | some tokens' =>
      cases hac : a.currencies.get? c with
      | none =>
        rw [habsent hb (fun c t => (h c t).symm) hac] at hbc
        cases hbc
      | some tokens =>
        have hsorted := (ha.sound _ (KeyMap.mem_of_get? hac)).sorted
        have hsorted' := (hb.sound _ (KeyMap.mem_of_get? hbc)).sorted
        refine congrArg some (hsorted.eq_of_get? hsorted' fun t => ?_)
        show tokens.get? t = tokens'.get? t
        rw [← tokens_of_get? hac, ← tokens_of_get? hbc, ← Assets.get?_eq, ← Assets.get?_eq, h]
  obtain ⟨currencies⟩ := a
  obtain ⟨currencies'⟩ := b
  exact congrArg Assets.mk hcurrencies

/-- A canonical bundle is determined by its entries, in whatever order they are seen. -/
theorem eq_of_mem (ha : a.Canonical) (hb : b.Canonical) (h : ∀ e, e ∈ a.entries ↔ e ∈ b.entries) :
    a = b := by
  refine ha.eq_of_get? hb fun c t => Option.ext fun q => ?_
  rw [← ha.mem_iff_get? (e := ⟨c, t, q⟩), ← hb.mem_iff_get? (e := ⟨c, t, q⟩), h]

/-- A canonical bundle is determined by its lookups. -/
theorem eq_of_lookup (ha : a.Canonical) (hb : b.Canonical)
    (h : ∀ c t, a.lookup c t = b.lookup c t) : a = b := by
  refine ha.eq_of_mem hb fun e => ?_
  rw [ha.mem_entries_iff, hb.mem_entries_iff, h]

end Canonical

theorem size_eq (a : Assets) : a.size = a.entries.length := by
  unfold size entries
  induction a.currencies.entries with
  | nil => rfl
  | cons p rest ih =>
    rw [List.foldr_cons, ih, List.flatMap_cons, List.length_append, List.length_map]
    rfl

/-- The tokens that have a quantity. -/
def support (a : Assets) : Set (Bytes × Bytes) := {p | a.lookup p.1 p.2 ≠ 0}

/-- There are as many entries as tokens that have a quantity. -/
theorem Canonical.encard_support (h : a.Canonical) : a.support.encard = a.size := by
  have hkeys : (a.entries.map fun e => (e.currency, e.token)).Nodup := by
    refine List.pairwise_map.2 (h.sorted_entries.imp fun {x y} hxy heq => hxy.not_holds ?_)
    rw [Prod.mk.injEq] at heq
    exact heq
  have hsupport :
      a.support = ((a.entries.map fun e => (e.currency, e.token)).toFinset : Set _) := by
    ext p
    simp only [support, Set.mem_ofPred_eq, List.coe_toFinset, List.mem_map]
    constructor
    · intro hp
      exact ⟨_, mem_of_lookup hp, rfl⟩
    · rintro ⟨e, he, rfl⟩
      rw [(h.mem_entries_iff.1 he).1]
      exact h.nonzero he
  rw [hsupport, Set.encard_coe_eq_coe_finsetCard, List.toFinset_card_of_nodup hkeys,
    List.length_map, size_eq]

/-! ### Sequences of insertions -/

/-- Inserts entries one after the other. -/
def insertAll (a : Assets) (l : List AssetEntry) : Except AssetError Assets :=
  l.foldlM (fun out e => out.inserted e.currency e.token e.quantity) a

/-- The last quantity that a list has for a token, or another one if it has none. -/
def lastQuantity (l : List AssetEntry) (currency token : Bytes) (otherwise : Int) : Int :=
  match l.reverse.find? fun e => decide (e.Holds currency token) with
  | some e => e.quantity
  | none => otherwise

theorem lastQuantity_cons (e : AssetEntry) (l : List AssetEntry) (c t : Bytes) (q : Int) :
    lastQuantity (e :: l) c t q = lastQuantity l c t (if e.Holds c t then e.quantity else q) := by
  simp only [lastQuantity, List.reverse_cons, List.find?_append]
  cases l.reverse.find? fun e => decide (e.Holds c t) with
  | some x => rfl
  | none =>
    by_cases h : e.Holds c t
    · simp [h]
    · simp [h]

/-- Of all quantities inserted for a token the last one counts. -/
theorem lookup_insertAll {l : List AssetEntry} (h : a.insertAll l = .ok b) (c t : Bytes) :
    b.lookup c t = lastQuantity l c t (a.lookup c t) := by
  induction l generalizing a with
  | nil =>
    cases h
    rfl
  | cons e l ih =>
    rw [insertAll, List.foldlM_cons] at h
    cases hinsert : a.inserted e.currency e.token e.quantity with
    | error err =>
      rw [hinsert] at h
      cases h
    | ok a' =>
      rw [hinsert] at h
      obtain ⟨-, rfl⟩ := inserted_eq_ok_iff.1 hinsert
      rw [ih h, lastQuantity_cons, lookup_updated]
      rfl

theorem Canonical.insertAll (h : a.Canonical) {l : List AssetEntry} (hb : a.insertAll l = .ok b) :
    b.Canonical :=
  foldlM_keeps (fun hs hx => hs.inserted hx) h hb

/-- All of the entries can be inserted if each of them can, in whatever order. -/
theorem insertAll_ok_iff {l : List AssetEntry} :
    (∃ b, a.insertAll l = .ok b) ↔ ∀ e ∈ l, Fits e.currency e.token e.quantity := by
  induction l generalizing a with
  | nil => exact iff_of_true ⟨a, rfl⟩ (List.forall_mem_nil _)
  | cons e l ih =>
    rw [insertAll, List.foldlM_cons, List.forall_mem_cons]
    by_cases h : Fits e.currency e.token e.quantity
    · rw [inserted_of_fits a h, and_iff_right h]
      exact ih
    · obtain ⟨err, herr⟩ := inserted_of_not_fits a h
      rw [herr]
      exact iff_of_false (fun ⟨b, hb⟩ => by cases hb) fun h' => h h'.1

/-! ### Inserting into the list of all entries -/

/-- The list with the entry put between those before and those after it, in place of the one for its
token, or with that one left out if the quantity is zero. -/
def replaced (l : List AssetEntry) (e : AssetEntry) : List AssetEntry :=
  l.filter (·.Before e) ++ (if e.quantity = 0 then [] else [e]) ++ l.filter (e.Before ·)

theorem mem_replaced {l : List AssetEntry} {e x : AssetEntry} :
    x ∈ replaced l e ↔ x ∈ l ∧ ¬ x.Holds e.currency e.token ∨ x = e ∧ e.quantity ≠ 0 := by
  have hentry : x ∈ (if e.quantity = 0 then [] else [e]) ↔ x = e ∧ e.quantity ≠ 0 := by
    split
    · rename_i hzero
      exact iff_of_false List.not_mem_nil fun h => h.2 hzero
    · rename_i hne
      rw [List.mem_singleton]
      exact (and_iff_left hne).symm
  have hapart : ¬ x.Holds e.currency e.token ↔ x.Before e ∨ e.Before x := by
    constructor
    · intro hnot
      rcases x.before_cases e with hlt | hholds | hlt
      · exact .inl hlt
      · exact absurd hholds hnot
      · exact .inr hlt
    · rintro (hlt | hlt) hholds
      · exact hlt.not_holds hholds
      · exact hlt.not_holds ⟨hholds.1.symm, hholds.2.symm⟩
  simp only [replaced, List.mem_append, List.mem_filter, decide_eq_true_eq, hentry, hapart,
    and_or_left]
  exact or_right_comm

theorem sorted_replaced {l : List AssetEntry} (h : l.Pairwise Before) (e : AssetEntry) :
    (replaced l e).Pairwise Before := by
  have hbefore : ∀ x ∈ l.filter (·.Before e), x.Before e := fun x hx => by
    simpa using (List.mem_filter.1 hx).2
  have hafter : ∀ x ∈ l.filter (e.Before ·), e.Before x := fun x hx => by
    simpa using (List.mem_filter.1 hx).2
  have hself : ∀ x ∈ (if e.quantity = 0 then [] else [e]), x = e := by
    split
    · exact List.forall_mem_nil _
    · exact fun x hx => List.mem_singleton.1 hx
  have hmiddle : (if e.quantity = 0 then [] else [e]).Pairwise Before := by
    split
    · exact List.Pairwise.nil
    · exact List.pairwise_singleton _ _
  refine List.pairwise_append.2
    ⟨List.pairwise_append.2 ⟨h.sublist List.filter_sublist, hmiddle, ?_⟩,
      h.sublist List.filter_sublist, ?_⟩
  · intro x hx y hy
    rw [hself y hy]
    exact hbefore x hx
  · intro x hx y hy
    rcases List.mem_append.1 hx with hx | hx
    · exact (hbefore x hx).trans (hafter y hy)
    · rw [hself x hx]
      exact hafter y hy

/-- On the list of all entries, setting a quantity replaces the entry of the token. -/
theorem Canonical.entries_updated (h : a.Canonical) (hfits : Fits c t q) :
    (a.updated c t q).entries = replaced a.entries ⟨c, t, q⟩ := by
  have hupdated := h.updated hfits
  refine hupdated.sorted_entries.eq_of_mem_iff (sorted_replaced h.sorted_entries _) fun x => ?_
  rw [mem_replaced, hupdated.mem_entries_iff, h.mem_entries_iff, lookup_updated]
  by_cases hholds : x.Holds c t
  · have hkey : c = x.currency ∧ t = x.token := ⟨hholds.1.symm, hholds.2.symm⟩
    rw [if_pos hkey]
    constructor
    · rintro ⟨hq, hne⟩
      have hx : x = ⟨c, t, q⟩ := AssetEntry.eq_of_holds hholds hq.symm
      exact .inr ⟨hx, hq ▸ hne⟩
    · rintro (⟨-, hnot⟩ | ⟨rfl, hne⟩)
      · exact absurd hholds hnot
      · exact ⟨rfl, hne⟩
  · have hkey : ¬ (c = x.currency ∧ t = x.token) := fun h' => hholds ⟨h'.1.symm, h'.2.symm⟩
    rw [if_neg hkey, and_iff_left hholds, or_iff_left]
    rintro ⟨rfl, -⟩
    exact hholds ⟨rfl, rfl⟩

/-! ### Built bundles -/

/-- **A bundle is a canonical finite map**, however it was built.  Its currencies are in order, each
of them has tokens, and these are in order, within the limits and not zero; so the list of all
entries is strictly ordered by currency and token.  Inserting fails exactly if a key is too long or
the quantity is out of range, and then leaves the bundle as it was; else it replaces the entry of
the token in that list, the lookup of the token gives the quantity, and all other lookups give what
they gave before.  Two bundles with the same lookups are equal.  A sequence of insertions succeeds
if each of them would, in any order; a lookup then gives the last quantity inserted, and sequences
with the same last quantities give the same bundle.  There are as many entries as tokens that have a
quantity. -/
theorem built_canonical (ha : Built a) :
    (a.Canonical ∧ a.entries.Pairwise Before) ∧
    (∀ c t q,
      ((∃ e, (a.insert c t q).1 = .error e) ↔
        32 < c.length ∨ 32 < t.length ∨ q < -2 ^ 127 ∨ 2 ^ 127 ≤ q) ∧
      (∀ e, (a.insert c t q).1 = .error e → (a.insert c t q).2 = a) ∧
      ∀ b, a.insert c t q = (.ok (), b) →
        b.entries = replaced a.entries ⟨c, t, q⟩ ∧
        b.lookup c t = q ∧ ∀ c' t', (c', t') ≠ (c, t) → b.lookup c' t' = a.lookup c' t') ∧
    (∀ b, Built b → (∀ c t, a.lookup c t = b.lookup c t) → a = b) ∧
    (∀ l, (∃ b, a.insertAll l = .ok b) ↔ ∀ e ∈ l, Fits e.currency e.token e.quantity) ∧
    (∀ l b, a.insertAll l = .ok b →
      ∀ c t, b.lookup c t = lastQuantity l c t (a.lookup c t)) ∧
    (∀ l l' b b', a.insertAll l = .ok b → a.insertAll l' = .ok b' →
      (∀ c t, lastQuantity l c t (a.lookup c t) = lastQuantity l' c t (a.lookup c t)) → b = b') ∧
    {p : Bytes × Bytes | a.lookup p.1 p.2 ≠ 0}.encard = a.size := by
  have hcanonical := ha.canonical
  refine ⟨⟨hcanonical, hcanonical.sorted_entries⟩,
    fun c t q => ⟨insert_error_iff, fun e he => ?_, fun b hb => ?_⟩, ?_, ?_, ?_, ?_,
    hcanonical.encard_support⟩
  · by_cases hfits : Fits c t q
    · rw [insert_of_fits a hfits] at he
      cases he
    · obtain ⟨e', he'⟩ := insert_of_not_fits a hfits
      rw [he']
  · obtain ⟨hfits, rfl⟩ := inserted_eq_ok_iff.1 (Update.result_of_ok hb)
    refine ⟨hcanonical.entries_updated hfits, ?_, fun c' t' hne => ?_⟩
    · rw [lookup_updated, if_pos ⟨rfl, rfl⟩]
    · rw [lookup_updated, if_neg]
      rintro ⟨rfl, rfl⟩
      exact hne rfl
  · exact fun b hb h => hcanonical.eq_of_lookup hb.canonical h
  · exact fun l => insertAll_ok_iff
  · exact fun l b hb => lookup_insertAll hb
  · intro l l' b b' hb hb' h
    refine (hcanonical.insertAll hb).eq_of_lookup (hcanonical.insertAll hb') fun c t => ?_
    rw [lookup_insertAll hb, lookup_insertAll hb', h]

/-- A bundle from which a currency went with its only token, taken out by adding its negative. -/
theorem built_canonical_cancelled :
    Built ⟨⟨[([1], ⟨[([2], 5)]⟩)]⟩⟩ ∧
      {p : Bytes × Bytes | lookup ⟨⟨[([1], ⟨[([2], 5)]⟩)]⟩⟩ p.1 p.2 ≠ 0}.encard = 1 ∧
      ∃ e, (insert ⟨⟨[([1], ⟨[([2], 5)]⟩)]⟩⟩ [1] (List.replicate 33 0) 1).1 = .error e := by
  have hfirst : empty.insert [3] [] 7 = (.ok (), ⟨⟨[([3], ⟨[([], 7)]⟩)]⟩⟩) := rfl
  have hsecond : insert ⟨⟨[([3], ⟨[([], 7)]⟩)]⟩⟩ [1] [2] 5 =
      (.ok (), ⟨⟨[([1], ⟨[([2], 5)]⟩), ([3], ⟨[([], 7)]⟩)]⟩⟩) := rfl
  have hscale : scale ⟨⟨[([3], ⟨[([], 7)]⟩)]⟩⟩ (-1) = .ok ⟨⟨[([3], ⟨[([], -7)]⟩)]⟩⟩ := rfl
  have hunion : union ⟨⟨[([1], ⟨[([2], 5)]⟩), ([3], ⟨[([], 7)]⟩)]⟩⟩
      ⟨⟨[([3], ⟨[([], -7)]⟩)]⟩⟩ = .ok ⟨⟨[([1], ⟨[([2], 5)]⟩)]⟩⟩ := rfl
  have hone := Built.insert .empty hfirst
  have hbuilt := Built.union (.insert hone hsecond) (.scale hone hscale) hunion
  obtain ⟨-, hinsert, -, -, -, -, hcard⟩ := built_canonical hbuilt
  obtain ⟨hfails, -⟩ := hinsert [1] (List.replicate 33 0) 1
  exact ⟨hbuilt, hcard, hfails.2 (by decide)⟩

end Assets

end PlutusCek
