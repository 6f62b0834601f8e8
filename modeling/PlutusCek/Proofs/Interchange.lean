import PlutusCek.Proofs.Addition

/-!
# Proofs.Interchange — bundles as data

Data is read as a bundle exactly if it is a map from distinct currencies to maps, none of them
empty, from distinct tokens to quantities, all within the limits (`Assets.ofData_ok_iff`).  The
bundle has the entries that the data lists (`Assets.mem_ofData`), and is written as the data with
the entries of every map in the order of their keys (`Assets.toData_eq_arranged`).
-/

namespace PlutusCek

theorem Bytes.le_iff (a b : Bytes) : a.le b = true ↔ a < b ∨ a = b := by
  unfold le
  rcases compare_cases a b with ⟨hcmp, hlt⟩ | ⟨hcmp, heq⟩ | ⟨hcmp, hgt⟩
  · rw [hcmp]
    exact iff_of_true rfl (.inl hlt)
  · rw [hcmp]
    exact iff_of_true rfl (.inr heq)
  · rw [hcmp]
    refine iff_of_false (by decide) ?_
    rintro (hlt | rfl)
    · exact List.lt_irrefl _ (List.lt_trans hlt hgt)
    · exact List.lt_irrefl _ hgt

/-! ### Maps in the order of their keys -/

namespace Data

/-- The bytes of an entry's key. -/
def keyBytes : Data × Data → Bytes
  | (.bytes b, _) => b
  | _ => []

/-- The keys do not go down. -/
def KeysSorted (l : List (Data × Data)) : Prop :=
  l.Pairwise fun p r => (keyBytes p).le (keyBytes r) = true

/-- The key of the first entry comes before the one of the second. -/
def KeyBefore (p r : Data × Data) : Prop := keyBytes p < keyBytes r

instance : Std.Irrefl KeyBefore := ⟨fun _ h => List.lt_irrefl _ h⟩

instance : Std.Antisymm KeyBefore :=
  ⟨fun _ _ h h' => absurd (List.lt_trans h h') (List.lt_irrefl _)⟩

/-- The entries in the order of their keys. -/
def sortEntries (l : List (Data × Data)) : List (Data × Data) :=
  l.mergeSort fun p r => (keyBytes p).le (keyBytes r)

/-- A map with its entries in the order of their keys. -/
def sortKeys : Data → Data
  | .map l => .map (sortEntries l)
  | d => d

/-- A map of maps with the entries of every map in the order of their keys. -/
def arranged : Data → Data
  | .map l => .map (sortEntries (l.map fun p => (p.1, sortKeys p.2)))
  | d => d

/-- In a map of maps, every map has its entries in the order of their keys. -/
def Arranged : Data → Prop
  | .map l => KeysSorted l ∧ ∀ p ∈ l, ∀ tokens, p.2 = .map tokens → KeysSorted tokens
  | _ => True

variable {l : List (Data × Data)}

theorem mem_sortEntries {p : Data × Data} : p ∈ sortEntries l ↔ p ∈ l := List.mem_mergeSort

theorem keysSorted_sortEntries (l : List (Data × Data)) : KeysSorted (sortEntries l) := by
  refine List.pairwise_mergeSort ?_ ?_ l
  · intro p r s hpr hrs
    rw [Bytes.le_iff] at hpr hrs ⊢
    rcases hpr with hpr | hpr
    · rcases hrs with hrs | hrs
      · exact .inl (List.lt_trans hpr hrs)
      · exact .inl (hrs ▸ hpr)
    · rwa [hpr]
  · intro p r
    rw [Bool.or_eq_true, Bytes.le_iff, Bytes.le_iff]
    rcases Bytes.compare_cases (keyBytes p) (keyBytes r) with ⟨-, h⟩ | ⟨-, h⟩ | ⟨-, h⟩
    · exact .inl (.inl h)
    · exact .inl (.inr h)
    · exact .inr (.inl h)

theorem sortEntries_of_keysSorted (h : KeysSorted l) : sortEntries l = l :=
  List.mergeSort_of_pairwise h

/-- Arranging leaves exactly the arranged data as it is. -/
theorem arranged_eq_self_iff (d : Data) : d.arranged = d ↔ d.Arranged := by
  cases d with
  | map l =>
    simp only [arranged, Arranged, Data.map.injEq]
    constructor
    · intro h
      refine ⟨h ▸ keysSorted_sortEntries _, fun p hp tokens htokens => ?_⟩
      rw [← h, mem_sortEntries] at hp
      obtain ⟨r, -, rfl⟩ := List.mem_map.1 hp
      cases hr : r.2 with
      | map tokens' =>
        simp only [hr, sortKeys, Data.map.injEq] at htokens
        rw [← htokens]
        exact keysSorted_sortEntries tokens'
      | _ =>
        simp only [hr, sortKeys] at htokens
        cases htokens
    · rintro ⟨hsorted, hinner⟩
      have hself : ∀ p ∈ l, (p.1, sortKeys p.2) = id p := by
        rintro ⟨k, v⟩ hp
        cases v with
        | map tokens =>
          have htokens := hinner _ hp tokens rfl
          simp only [sortKeys, sortEntries_of_keysSorted htokens, id_eq]
        | _ => rfl
      have hmap : (l.map fun p => (p.1, sortKeys p.2)) = l := by
        rw [List.map_congr_left hself, List.map_id]
      rw [hmap, sortEntries_of_keysSorted hsorted]
  | _ => exact iff_of_true rfl trivial

/-- Distinct byte strings as keys go up once they are sorted. -/
theorem pairwise_sortEntries (hbytes : ∀ p ∈ l, p.1 = .bytes (keyBytes p))
    (hnodup : (l.map Prod.fst).Nodup) : (sortEntries l).Pairwise KeyBefore := by
  have hkeys : (l.map Prod.fst) = (l.map keyBytes).map Data.bytes := by
    rw [List.map_map]
    exact List.map_congr_left hbytes
  rw [hkeys] at hnodup
  have hdistinct : (sortEntries l).Pairwise fun p r => keyBytes p ≠ keyBytes r := by
    have hperm : (sortEntries l).Perm l := List.mergeSort_perm l _
    exact List.pairwise_map.1 ((hperm.map keyBytes).nodup_iff.2 hnodup.of_map)
  refine ((keysSorted_sortEntries l).and hdistinct).imp ?_
  rintro p r ⟨hle, hne⟩
  exact ((Bytes.le_iff _ _).1 hle).resolve_right hne

/-! ### Data that describes a bundle -/

/-- A token name and a quantity, within the limits and not zero. -/
def IsToken : Data × Data → Prop
  | (.bytes t, .integer q) => t.length ≤ 32 ∧ q ≠ 0 ∧ Assets.InRange q
  | _ => False

/-- A currency within the limits and a map of its tokens, not empty and without repetition. -/
def IsCurrency : Data × Data → Prop
  | (.bytes c, .map tokens) =>
    c.length ≤ 32 ∧ tokens ≠ [] ∧ (tokens.map Prod.fst).Nodup ∧ ∀ p ∈ tokens, IsToken p
  | _ => False

/-- A map of currencies without repetition. -/
def IsBundle : Data → Prop
  | .map l => (l.map Prod.fst).Nodup ∧ ∀ p ∈ l, IsCurrency p
  | _ => False

/-- Under the currency of the entry, the data has its token with its quantity. -/
def Lists : Data → AssetEntry → Prop
  | .map l, e => ∃ tokens, (.bytes e.currency, .map tokens) ∈ l ∧
      (.bytes e.token, .integer e.quantity) ∈ tokens
  | _, _ => False

theorem lists_cons_iff {c : Bytes} {tokens : List (Data × Data)} {e : AssetEntry} :
    Lists (.map ((.bytes c, .map tokens) :: l)) e ↔
      e.currency = c ∧ (.bytes e.token, .integer e.quantity) ∈ tokens ∨ Lists (.map l) e := by
  constructor
  · rintro ⟨tokens', hmem, htoken⟩
    rcases List.mem_cons.1 hmem with heq | hmem
    · cases heq
      exact .inl ⟨rfl, htoken⟩
    · exact .inr ⟨tokens', hmem, htoken⟩
  · rintro (⟨rfl, htoken⟩ | ⟨tokens', hmem, htoken⟩)
    · exact ⟨tokens, List.mem_cons_self, htoken⟩
    · exact ⟨tokens', List.mem_cons_of_mem _ hmem, htoken⟩

theorem IsToken.eq {p : Data × Data} (h : IsToken p) : ∃ t q, p = (.bytes t, .integer q) := by
  unfold IsToken at h
  split at h
  · exact ⟨_, _, rfl⟩
  · exact h.elim

theorem IsCurrency.eq {p : Data × Data} (h : IsCurrency p) :
    ∃ c tokens, p = (.bytes c, .map tokens) := by
  unfold IsCurrency at h
  split at h
  · exact ⟨_, _, rfl⟩
  · exact h.elim

end Data

namespace Assets

open Data (IsToken IsCurrency keyBytes sortEntries sortKeys)

variable {a out : Assets} {c t : Bytes} {q : Int} {l tokens : List (Data × Data)}

/-! ### Reading the tokens of a currency -/

/-- After a token was read, it is not new any more, and the others are as new as before. -/
theorem get?_updated_eq_none_iff {t' : Bytes} (hq : q ≠ 0) :
    (a.updated c t q).get? c t' = none ↔ t ≠ t' ∧ a.get? c t' = none := by
  rw [get?_updated, if_neg hq]
  by_cases ht : t = t'
  · rw [if_pos ⟨rfl, ht⟩]
    exact iff_of_false (Option.some_ne_none q) fun h => h.1 ht
  · rw [if_neg fun h => ht h.2]
    exact (and_iff_right ht).symm

/-- Tokens are read if they are well formed, distinct and new. -/
theorem readTokens_ok_iff : (∃ a, readTokens c out tokens = .ok a) ↔
    (tokens.map Prod.fst).Nodup ∧ ∀ p ∈ tokens, ∃ t q, p = (.bytes t, .integer q) ∧ q ≠ 0 ∧
      out.get? c t = none ∧ Fits c t q := by
  induction tokens generalizing out with
  | nil => exact iff_of_true ⟨out, rfl⟩ ⟨List.nodup_nil, List.forall_mem_nil _⟩
  | cons p rest ih =>
    rw [List.map_cons, List.nodup_cons, List.forall_mem_cons]
    constructor
    · rintro ⟨a, h⟩
      obtain ⟨t, q, rfl, hq, hnew, hfits, hrest⟩ := readTokens_cons_iff.1 h
      obtain ⟨hnodup, hall⟩ := ih.1 ⟨a, hrest⟩
      refine ⟨⟨fun hmem => ?_, hnodup⟩, ⟨t, q, rfl, hq, hnew, hfits⟩, fun r hr => ?_⟩
      · -- a second token of that name would not be new
        obtain ⟨r, hr, hkey⟩ := List.mem_map.1 hmem
        obtain ⟨t', q', rfl, -, hnew', -⟩ := hall r hr
        cases hkey
        exact ((get?_updated_eq_none_iff hq).1 hnew').1 rfl
      · obtain ⟨t', q', hr', hq', hnew', hfits'⟩ := hall r hr
        exact ⟨t', q', hr', hq', ((get?_updated_eq_none_iff hq).1 hnew').2, hfits'⟩
    · rintro ⟨⟨hkey, hnodup⟩, ⟨t, q, rfl, hq, hnew, hfits⟩, hall⟩
      have hrest : ∃ a, readTokens c (out.updated c t q) rest = .ok a := by
        refine ih.2 ⟨hnodup, fun r hr => ?_⟩
        obtain ⟨t', q', rfl, hq', hnew', hfits'⟩ := hall r hr
        refine ⟨t', q', rfl, hq', (get?_updated_eq_none_iff hq).2 ⟨?_, hnew'⟩, hfits'⟩
        rintro rfl
        exact hkey (List.mem_map.2 ⟨_, hr, rfl⟩)
      obtain ⟨a, ha⟩ := hrest
      exact ⟨a, readTokens_cons_iff.2 ⟨t, q, rfl, hq, hnew, hfits, ha⟩⟩

/-- Reading tokens stores them under their currency. -/
theorem get?_readTokens (h : readTokens c out tokens = .ok a) (c' t' : Bytes) (q' : Int) :
    a.get? c' t' = some q' ↔
      out.get? c' t' = some q' ∨ c' = c ∧ (.bytes t', .integer q') ∈ tokens := by
  induction tokens generalizing out with
  | nil =>
    cases h
    exact ⟨.inl, fun h => h.resolve_right fun h' => List.not_mem_nil h'.2⟩
  | cons p rest ih =>
    obtain ⟨t, q, rfl, hq, hnew, -, hrest⟩ := readTokens_cons_iff.1 h
    have hhead : ((.bytes t', .integer q') : Data × Data) = (.bytes t, .integer q) ↔
        t = t' ∧ q = q' := by
      simp [eq_comm]
    rw [ih hrest, get?_updated, if_neg hq, List.mem_cons, hhead, and_or_left, ← or_assoc]
    refine or_congr_left ?_
    by_cases hkey : c = c' ∧ t = t'
    · obtain ⟨rfl, rfl⟩ := hkey
      rw [if_pos ⟨rfl, rfl⟩, hnew, Option.some.injEq]
      simp
    · rw [if_neg hkey]
      refine (or_iff_left ?_).symm
      rintro ⟨rfl, ht, -⟩
      exact hkey ⟨rfl, ht⟩

/-! ### Reading currencies -/

/-- Under a currency that is new, the tokens are read if the data describes a currency. -/
theorem readTokens_ok_iff_isCurrency (hnew : out.currencies.get? c = none) (hne : tokens ≠ []) :
    (∃ a, readTokens c out tokens = .ok a) ↔ IsCurrency (.bytes c, .map tokens) := by
  have habsent : ∀ t, out.get? c t = none := fun t => by rw [get?, hnew]; rfl
  rw [readTokens_ok_iff]
  constructor
  · rintro ⟨hnodup, hall⟩
    obtain ⟨p, hp⟩ := List.exists_mem_of_ne_nil _ hne
    obtain ⟨t, q, -, -, -, hfits⟩ := hall p hp
    refine ⟨hfits.currency, hne, hnodup, fun r hr => ?_⟩
    obtain ⟨t, q, rfl, hq, -, hfits'⟩ := hall r hr
    exact ⟨hfits'.token, hq, hfits'.lower, hfits'.upper⟩
  · rintro ⟨hc, -, hnodup, hall⟩
    refine ⟨hnodup, fun r hr => ?_⟩
    have htoken := hall r hr
    obtain ⟨t, q, rfl⟩ := htoken.eq
    obtain ⟨ht, hq, hlower, hupper⟩ := htoken
    exact ⟨t, q, rfl, hq, habsent t, hc, ht, hlower, hupper⟩

theorem currency_updated_eq_none_iff {c' : Bytes} (hq : q ≠ 0) :
    (a.updated c t q).currencies.get? c' = none ↔ c ≠ c' ∧ a.currencies.get? c' = none := by
  rw [updated, if_neg hq, deposit, KeyMap.get?_insert]
  by_cases hc : c = c'
  · rw [if_pos hc]
    exact iff_of_false (Option.some_ne_none _) fun h => h.1 hc
  · rw [if_neg hc]
    exact (and_iff_right hc).symm

/-- After its tokens were read, a currency is not new any more, and the others are as new as
before. -/
theorem currency_readTokens_eq_none_iff {c' : Bytes} (hne : tokens ≠ [])
    (h : readTokens c out tokens = .ok a) :
    a.currencies.get? c' = none ↔ c ≠ c' ∧ out.currencies.get? c' = none := by
  induction tokens generalizing out with
  | nil => exact absurd rfl hne
  | cons p rest ih =>
    obtain ⟨t, q, -, hq, -, -, hrest⟩ := readTokens_cons_iff.1 h
    have hfirst : (out.updated c t q).currencies.get? c' = none ↔
        c ≠ c' ∧ out.currencies.get? c' = none := currency_updated_eq_none_iff hq
    cases rest with
    | nil =>
      cases hrest
      exact hfirst
    | cons r rest =>
      rw [ih (List.cons_ne_nil r rest) hrest, hfirst]
      exact and_self_left

/-- Currencies are read if they are well formed, distinct and new. -/
theorem readCurrencies_ok_iff : (∃ a, readCurrencies out l = .ok a) ↔
    (l.map Prod.fst).Nodup ∧
      ∀ p ∈ l, IsCurrency p ∧ out.currencies.get? (keyBytes p) = none := by
  induction l generalizing out with
  | nil => exact iff_of_true ⟨out, rfl⟩ ⟨List.nodup_nil, List.forall_mem_nil _⟩
  | cons p rest ih =>
    rw [List.map_cons, List.nodup_cons, List.forall_mem_cons]
    constructor
    · rintro ⟨a, h⟩
      obtain ⟨c, tokens, out', rfl, hne, hnew, hread, hrest⟩ := readCurrencies_cons_iff.1 h
      have hcurrency := (readTokens_ok_iff_isCurrency hnew hne).1 ⟨out', hread⟩
      obtain ⟨hnodup, hall⟩ := ih.1 ⟨a, hrest⟩
      have hkept : ∀ r ∈ rest, c ≠ keyBytes r ∧ out.currencies.get? (keyBytes r) = none :=
        fun r hr => (currency_readTokens_eq_none_iff hne hread).1 (hall r hr).2
      refine ⟨⟨fun hmem => ?_, hnodup⟩, ⟨hcurrency, hnew⟩, fun r hr =>
        ⟨(hall r hr).1, (hkept r hr).2⟩⟩
      obtain ⟨r, hr, hkey⟩ := List.mem_map.1 hmem
      obtain ⟨c', tokens', rfl⟩ := (hall r hr).1.eq
      cases hkey
      exact (hkept _ hr).1 rfl
    · rintro ⟨⟨hkey, hnodup⟩, ⟨hcurrency, hnew⟩, hall⟩
      obtain ⟨c, tokens, rfl⟩ := hcurrency.eq
      have hne : tokens ≠ [] := hcurrency.2.1
      obtain ⟨out', hread⟩ := (readTokens_ok_iff_isCurrency hnew hne).2 hcurrency
      have hrest : ∃ a, readCurrencies out' rest = .ok a := by
        refine ih.2 ⟨hnodup, fun r hr => ⟨(hall r hr).1, ?_⟩⟩
        refine (currency_readTokens_eq_none_iff hne hread).2 ⟨?_, (hall r hr).2⟩
        obtain ⟨c', tokens', rfl⟩ := (hall r hr).1.eq
        rintro rfl
        exact hkey (List.mem_map.2 ⟨_, hr, rfl⟩)
      obtain ⟨a, ha⟩ := hrest
      exact ⟨a, readCurrencies_cons_iff.2 ⟨c, tokens, out', rfl, hne, hnew, hread, ha⟩⟩

/-- Reading currencies stores the tokens listed under them. -/
theorem get?_readCurrencies (h : readCurrencies out l = .ok a) (e : AssetEntry) :
    a.get? e.currency e.token = some e.quantity ↔
      out.get? e.currency e.token = some e.quantity ∨ Data.Lists (.map l) e := by
  induction l generalizing out with
  | nil =>
    cases h
    refine ⟨.inl, fun h => h.resolve_right ?_⟩
    rintro ⟨tokens, hmem, -⟩
    exact List.not_mem_nil hmem
  | cons p rest ih =>
    obtain ⟨c, tokens, out', rfl, -, -, hread, hrest⟩ := readCurrencies_cons_iff.1 h
    rw [ih hrest, get?_readTokens hread, Data.lists_cons_iff, or_assoc]

/-- Data is read exactly if it describes a bundle. -/
theorem ofData_ok_iff (d : Data) : (∃ a, ofData d = .ok a) ↔ d.IsBundle := by
  cases d with
  | map l =>
    refine readCurrencies_ok_iff.trans (and_congr_right fun _ => forall₂_congr fun p _ => ?_)
    exact and_iff_left rfl
  | _ =>
    refine iff_of_false ?_ id
    rintro ⟨a, ha⟩
    cases ha

theorem mem_ofData {d : Data} (h : ofData d = .ok a) (e : AssetEntry) :
    e ∈ a.entries ↔ d.Lists e := by
  rw [(canonical_ofData h).mem_iff_get?]
  cases d with
  | map l =>
    rw [get?_readCurrencies h e]
    exact or_iff_right (Option.some_ne_none e.quantity).symm
  | _ => cases h

/-! ### Writing -/

/-- A token and its quantity as data. -/
def tokenData (p : Bytes × Int) : Data × Data := (.bytes p.1, .integer p.2)

/-- A currency and its tokens as data. -/
def currencyData (p : Bytes × KeyMap Int) : Data × Data :=
  (.bytes p.1, .map (p.2.entries.map tokenData))

theorem toData_eq (a : Assets) : a.toData = .map (a.currencies.entries.map currencyData) := rfl

theorem tokenData_injective : Function.Injective tokenData := by
  rintro ⟨t, q⟩ ⟨t', q'⟩ h
  obtain ⟨ht, hq⟩ := Prod.mk.inj h
  exact Prod.ext (Data.bytes.inj ht) (Data.integer.inj hq)

/-- What is stored under a currency are the entries with that currency. -/
theorem Canonical.mem_tokens_iff (h : a.Canonical) {p : Bytes × KeyMap Int}
    (hp : p ∈ a.currencies.entries) (r : Bytes × Int) :
    r ∈ p.2.entries ↔ ⟨p.1, r.1, r.2⟩ ∈ a.entries := by
  rw [mem_entries]
  constructor
  · exact fun hr => ⟨p.2, hp, hr⟩
  · rintro ⟨tokens, hcurrency, htoken⟩
    have hsame := (h.sorted.get?_of_mem hcurrency).symm.trans (h.sorted.get?_of_mem hp)
    rwa [Option.some.inj hsame] at htoken

theorem lists_toData (a : Assets) (e : AssetEntry) : a.toData.Lists e ↔ e ∈ a.entries := by
  rw [toData_eq, mem_entries]
  constructor
  · rintro ⟨tokens, hcurrency, htoken⟩
    obtain ⟨p, hp, heq⟩ := List.mem_map.1 hcurrency
    obtain ⟨hkey, htokens⟩ := Prod.mk.inj heq
    rw [← Data.map.inj htokens] at htoken
    obtain ⟨r, hr, hdata⟩ := List.mem_map.1 htoken
    have hentry : r = (e.token, e.quantity) := tokenData_injective hdata
    rw [← Data.bytes.inj hkey]
    exact ⟨p.2, hp, hentry ▸ hr⟩
  · rintro ⟨tokens, hcurrency, htoken⟩
    exact ⟨tokens.entries.map tokenData, List.mem_map_of_mem (f := currencyData) hcurrency,
      List.mem_map_of_mem (f := tokenData) htoken⟩

/-- What is written describes a bundle. -/
theorem Canonical.isBundle_toData (h : a.Canonical) : a.toData.IsBundle := by
  rw [toData_eq]
  constructor
  · have hkeys : (a.currencies.entries.map currencyData).map Prod.fst =
        (a.currencies.entries.map Prod.fst).map Data.bytes := by
      rw [List.map_map, List.map_map]
      rfl
    rw [hkeys]
    exact h.sorted.nodup_keys.map fun b b' => Data.bytes.inj
  · refine List.forall_mem_map.2 fun p hp => ?_
    have hsound := h.sound p hp
    obtain ⟨first, hfirst⟩ := List.exists_mem_of_ne_nil _ (h.inhabited p hp)
    refine ⟨(hsound.fits first hfirst).currency, ?_, ?_, ?_⟩
    · rw [Ne, List.map_eq_nil_iff]
      exact h.inhabited p hp
    · have hkeys : (p.2.entries.map tokenData).map Prod.fst =
          (p.2.entries.map Prod.fst).map Data.bytes := by
        rw [List.map_map, List.map_map]
        rfl
      rw [hkeys]
      exact hsound.sorted.nodup_keys.map fun b b' => Data.bytes.inj
    · refine List.forall_mem_map.2 fun r hr => ?_
      have hfit := hsound.fits r hr
      exact ⟨hfit.token, hsound.nonzero r hr, hfit.lower, hfit.upper⟩

/-- What is written is read back. -/
theorem Canonical.ofData_toData (h : a.Canonical) : ofData a.toData = .ok a := by
  obtain ⟨b, hb⟩ := (ofData_ok_iff a.toData).2 h.isBundle_toData
  have hmem : ∀ e, e ∈ b.entries ↔ e ∈ a.entries := by
    intro e
    rw [mem_ofData hb, lists_toData]
  rw [hb, (canonical_ofData hb).eq_of_mem h hmem]

/-- Under a currency, the data lists the tokens of its map. -/
theorem lists_iff_of_mem (hnodup : (l.map Prod.fst).Nodup)
    (hmem : (.bytes c, .map tokens) ∈ l) (r : Bytes × Int) :
    Data.Lists (.map l) ⟨c, r.1, r.2⟩ ↔ tokenData r ∈ tokens := by
  constructor
  · rintro ⟨tokens', hmem', htoken⟩
    have hsame := List.inj_on_of_nodup_map hnodup hmem' hmem rfl
    rwa [Data.map.inj (Prod.mk.inj hsame).2] at htoken
  · intro htoken
    exact ⟨tokens, hmem, htoken⟩

/-- The tokens of a currency are written in the order of their names. -/
theorem tokens_eq_sortEntries (ha : ofData (.map l) = .ok a) {p : Bytes × KeyMap Int}
    (hp : p ∈ a.currencies.entries) (hmem : (.bytes p.1, .map tokens) ∈ l) :
    p.2.entries.map tokenData = sortEntries tokens := by
  have hcanonical := canonical_ofData ha
  obtain ⟨hnodup, hcurrencies⟩ := (ofData_ok_iff (.map l)).1 ⟨a, ha⟩
  obtain ⟨-, -, hdistinct, htokens⟩ := hcurrencies _ hmem
  have hsame : ∀ r : Bytes × Int,
      tokenData r ∈ p.2.entries.map tokenData ↔ tokenData r ∈ tokens := by
    intro r
    rw [List.mem_map_of_injective tokenData_injective, hcanonical.mem_tokens_iff hp, mem_ofData ha,
      lists_iff_of_mem hnodup hmem]
  have hascend : (p.2.entries.map tokenData).Pairwise Data.KeyBefore :=
    List.pairwise_map.2 (hcanonical.sound p hp).sorted
  refine hascend.eq_of_mem_iff (Data.pairwise_sortEntries ?_ hdistinct) fun x => ?_
  · intro x hx
    obtain ⟨t, q, rfl⟩ := (htokens x hx).eq
    rfl
  · rw [Data.mem_sortEntries]
    constructor
    · intro hx
      obtain ⟨r, -, rfl⟩ := List.mem_map.1 hx
      exact (hsame r).1 hx
    · intro hx
      obtain ⟨t, q, rfl⟩ := (htokens x hx).eq
      exact (hsame (t, q)).2 hx

/-- What was read is written with every map in the order of its keys. -/
theorem toData_eq_arranged {d : Data} (h : ofData d = .ok a) : a.toData = d.arranged := by
  cases d with
  | map l =>
    have hcanonical := canonical_ofData h
    obtain ⟨hnodup, hcurrencies⟩ := (ofData_ok_iff (.map l)).1 ⟨a, h⟩
    have hwritten : ∀ {p tokens}, p ∈ a.currencies.entries → (.bytes p.1, .map tokens) ∈ l →
        currencyData p = (.bytes p.1, sortKeys (.map tokens)) := by
      intro p tokens hp hmem
      rw [currencyData, tokens_eq_sortEntries h hp hmem]
      rfl
    have hkeys : (l.map fun p => (p.1, sortKeys p.2)).map Prod.fst = l.map Prod.fst := by
      rw [List.map_map]
      rfl
    have hascend : (a.currencies.entries.map currencyData).Pairwise Data.KeyBefore :=
      List.pairwise_map.2 hcanonical.sorted
    rw [toData_eq, Data.arranged]
    refine congrArg Data.map
      (hascend.eq_of_mem_iff (Data.pairwise_sortEntries ?_ (hkeys ▸ hnodup)) fun x => ?_)
    · refine List.forall_mem_map.2 fun r hr => ?_
      obtain ⟨c, tokens, rfl⟩ := (hcurrencies r hr).eq
      rfl
    · rw [Data.mem_sortEntries]
      constructor
      · intro hx
        obtain ⟨p, hp, rfl⟩ := List.mem_map.1 hx
        -- the currency has a token, and the data lists that
        obtain ⟨r, hr⟩ := List.exists_mem_of_ne_nil _ (hcanonical.inhabited p hp)
        obtain ⟨tokens, hmem, -⟩ :=
          (mem_ofData h _).1 ((hcanonical.mem_tokens_iff hp r).1 hr)
        rw [hwritten hp hmem]
        exact List.mem_map.2 ⟨_, hmem, rfl⟩
      · intro hx
        obtain ⟨r, hr, rfl⟩ := List.mem_map.1 hx
        have hcurrency := hcurrencies r hr
        obtain ⟨c, tokens, rfl⟩ := hcurrency.eq
        obtain ⟨-, hne, -, htokens⟩ := hcurrency
        obtain ⟨token, htoken⟩ := List.exists_mem_of_ne_nil _ hne
        obtain ⟨t, q, rfl⟩ := (htokens token htoken).eq
        have hentry : ⟨c, t, q⟩ ∈ a.entries := (mem_ofData h _).2 ⟨tokens, hr, htoken⟩
        obtain ⟨stored, hp, -⟩ := mem_entries.1 hentry
        rw [← hwritten hp hr]
        exact List.mem_map_of_mem hp
  | _ => cases h

/-- **Bundles and data are converted exactly.**  Data is read as a bundle exactly if it describes
one: a map from distinct currencies to maps, not empty, from distinct tokens to quantities that are
not zero, all within the limits.  The bundle then has the entries that the data lists, and is
written as the data with every map in the order of its keys, so it is written as it was read exactly
if the data is in that order.  A bundle that is written and read is the bundle. -/
theorem ofData_exact (d : Data) :
    ((∃ a, ofData d = .ok a) ↔ d.IsBundle) ∧
    (∀ a, ofData d = .ok a →
      (∀ e, e ∈ a.entries ↔ d.Lists e) ∧ a.toData = d.arranged ∧ (a.toData = d ↔ d.Arranged)) ∧
    ∀ a : Assets, a.Canonical → ofData a.toData = .ok a := by
  refine ⟨ofData_ok_iff d, fun a h => ⟨mem_ofData h, toData_eq_arranged h, ?_⟩, fun a ha =>
    ha.ofData_toData⟩
  rw [toData_eq_arranged h]
  exact d.arranged_eq_self_iff

/-- Two currencies out of order, one of them with its tokens out of order. -/
theorem ofData_exact_unsorted :
    let d : Data := .map [(.bytes [2], .map [(.bytes [1], .integer 3)]),
      (.bytes [], .map [(.bytes [9], .integer 4), (.bytes [7, 0], .integer (-1))])]
    let a : Assets := ⟨⟨[([], ⟨[([7, 0], -1), ([9], 4)]⟩), ([2], ⟨[([1], 3)]⟩)]⟩⟩
    ofData d = .ok a ∧ d.IsBundle ∧ a.toData = d.arranged ∧ ¬ d.Arranged ∧
      a.Canonical ∧ ofData a.toData = .ok a := by
  intro d a
  have hread : ofData d = .ok a := rfl
  have hcanonical := canonical_ofData hread
  obtain ⟨hok, hall, hback⟩ := ofData_exact d
  obtain ⟨-, harranged, hself⟩ := hall a hread
  refine ⟨hread, hok.1 ⟨a, hread⟩, harranged, ?_, hcanonical, hback a hcanonical⟩
  rw [← hself]
  intro heq
  have hcurrency := congrArg (fun l => l.map Prod.fst) (Data.map.inj heq)
  exact absurd (Data.bytes.inj (List.cons.inj hcurrency).1) (by decide)

end Assets

end PlutusCek
