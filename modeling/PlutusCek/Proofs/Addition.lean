import PlutusCek.Proofs.Bundles

/-!
# Proofs.Addition — sums and multiples of bundles

Adding and scaling visit the entries in the order of their keys and stop at the first quantity that
is out of range.  What comes of it depends on the quantities alone: a result *expresses* a function
from keys to quantities if it is the canonical bundle with these lookups or, where some are out of
range, the failure at the least such key (`Assets.Expresses`).  A function is expressed by one
result only (`Assets.Expresses.unique`), so a law of integers that equates two such functions
equates the results as well, failures included.
-/

namespace PlutusCek.Assets

open AssetEntry (Before)

variable {a b d w : Assets} {c t : Bytes} {q : Int} {f : Bytes → Bytes → Int}

/-! ### Quantities in range -/

/-- In the signed 128-bit range. -/
def InRange (q : Int) : Prop := -2 ^ 127 ≤ q ∧ q < 2 ^ 127

theorem inRange_zero : InRange 0 := ⟨by decide, by decide⟩

theorem lookup_eq_zero (h : ∀ e ∈ a.entries, ¬ e.Holds c t) : a.lookup c t = 0 := by
  by_contra hne
  exact h _ (mem_of_lookup hne) ⟨rfl, rfl⟩

theorem Canonical.inRange_lookup (h : a.Canonical) (c t : Bytes) : InRange (a.lookup c t) := by
  by_cases hzero : a.lookup c t = 0
  · rw [hzero]
    exact inRange_zero
  · have hfits := h.fits (mem_of_lookup hzero)
    exact ⟨hfits.lower, hfits.upper⟩

theorem inserted_of_not_inRange (a : Assets) (hc : c.length ≤ 32) (ht : t.length ≤ 32)
    (hq : ¬ InRange q) : a.inserted c t q = .error (.quantityOutOfRange q) := by
  have hcurrency := (checkKey_cases c).resolve_right fun h => Nat.not_lt.2 hc h.1
  have htoken := (checkKey_cases t).resolve_right fun h => Nat.not_lt.2 ht h.1
  have hquantity := (checkQuantity_cases q).resolve_left fun h => hq h.1
  rw [inserted, setQuantity, hcurrency.2, htoken.2, hquantity.2]
  rfl

/-! ### What a result expresses -/

/-- The entry has the quantity that `f` gives for its key, and that is out of range. -/
def Overflows (f : Bytes → Bytes → Int) (e : AssetEntry) : Prop :=
  f e.currency e.token = e.quantity ∧ ¬ InRange e.quantity

/-- The result is the bundle with the quantities of `f`, or the failure at the least key whose
quantity is out of range. -/
def Expresses (f : Bytes → Bytes → Int) : Except AssetError Assets → Prop
  | .ok w => w.Canonical ∧ ∀ c t, w.lookup c t = f c t
  | .error err =>
    ∃ e, Overflows f e ∧ (∀ x, Overflows f x → x = e ∨ e.Before x) ∧
      err = .quantityOutOfRange e.quantity

namespace Expresses

variable {r r' : Except AssetError Assets}

theorem not_overflows (h : Expresses f (.ok w)) (e : AssetEntry) : ¬ Overflows f e := by
  rintro ⟨hquantity, hout⟩
  rw [← hquantity, ← h.2] at hout
  exact hout (h.1.inRange_lookup e.currency e.token)

/-- Quantities determine the result, whether it is a bundle or a failure. -/
theorem unique (h : Expresses f r) (h' : Expresses f r') : r = r' := by
  cases r with
  | ok w =>
    cases r' with
    | ok w' =>
      have hlookup : ∀ c t, w.lookup c t = w'.lookup c t := by
        intro c t
        rw [h.2, h'.2]
      rw [h.1.eq_of_lookup h'.1 hlookup]
    | error err' =>
      obtain ⟨e, he, -, -⟩ := h'
      exact absurd he (h.not_overflows e)
  | error err =>
    obtain ⟨e, he, hleast, rfl⟩ := h
    cases r' with
    | ok w' => exact absurd he (h'.not_overflows e)
    | error err' =>
      obtain ⟨e', he', hleast', rfl⟩ := h'
      -- each of the two least keys is not after the other
      rcases hleast e' he' with rfl | hbefore
      · rfl
      · rcases hleast' e he with rfl | hbefore'
        · rfl
        · exact absurd ⟨rfl, rfl⟩ (hbefore.trans hbefore').not_holds

theorem congr {g : Bytes → Bytes → Int} (h : Expresses f r) (hfg : ∀ c t, f c t = g c t) :
    Expresses g r := by
  have heq : f = g := by
    funext c t
    exact hfg c t
  rwa [← heq]

theorem ok_iff (h : Expresses f r) : (∃ w, r = .ok w) ↔ ∀ c t, InRange (f c t) := by
  cases r with
  | ok w =>
    refine iff_of_true ⟨w, rfl⟩ fun c t => ?_
    rw [← h.2]
    exact h.1.inRange_lookup c t
  | error err =>
    obtain ⟨e, ⟨hquantity, hout⟩, -, -⟩ := h
    refine iff_of_false ?_ fun hall => hout ?_
    · rintro ⟨w, hw⟩
      cases hw
    · rw [← hquantity]
      exact hall e.currency e.token

theorem error_eq (h : Expresses f r) {err : AssetError} (hr : r = .error err) :
    ∃ c t, ¬ InRange (f c t) ∧ err = .quantityOutOfRange (f c t) := by
  subst hr
  obtain ⟨e, ⟨hquantity, hout⟩, -, rfl⟩ := h
  refine ⟨e.currency, e.token, ?_, ?_⟩
  · rwa [hquantity]
  · rw [hquantity]

end Expresses

theorem Canonical.expresses (h : a.Canonical) : Expresses a.lookup (.ok a) := ⟨h, fun _ _ => rfl⟩

theorem lookup_empty (c t : Bytes) : empty.lookup c t = 0 := rfl

/-! ### Insertions in the order of keys -/

/-- Inserting entries in the order of their keys expresses the quantities that they set, over those
that were there. -/
theorem expresses_insertAll {l : List AssetEntry} (ha : a.Canonical) (hsorted : l.Pairwise Before)
    (hkeys : ∀ e ∈ l, e.currency.length ≤ 32 ∧ e.token.length ≤ 32)
    (hset : ∀ e ∈ l, f e.currency e.token = e.quantity)
    (hkept : ∀ c t, (∀ e ∈ l, ¬ e.Holds c t) → f c t = a.lookup c t) :
    Expresses f (a.insertAll l) := by
  induction l generalizing a with
  | nil =>
    refine ⟨ha, fun c t => ?_⟩
    rw [hkept c t (List.forall_mem_nil _)]
  | cons e l ih =>
    obtain ⟨hfirst, hsorted'⟩ := List.pairwise_cons.1 hsorted
    obtain ⟨⟨hc, ht⟩, hkeys'⟩ := List.forall_mem_cons.1 hkeys
    obtain ⟨he, hset'⟩ := List.forall_mem_cons.1 hset
    rw [insertAll, List.foldlM_cons]
    by_cases hq : InRange e.quantity
    · have hfits : Fits e.currency e.token e.quantity := ⟨hc, ht, hq.1, hq.2⟩
      rw [inserted_of_fits a hfits]
      refine ih (ha.updated hfits) hsorted' hkeys' hset' fun c t hnot => ?_
      rw [lookup_updated]
      by_cases hholds : e.currency = c ∧ e.token = t
      · rw [if_pos hholds, ← he, hholds.1, hholds.2]
      · have hall : ∀ x ∈ e :: l, ¬ x.Holds c t := List.forall_mem_cons.2 ⟨hholds, hnot⟩
        rw [if_neg hholds, hkept c t hall]
    · rw [inserted_of_not_inRange a hc ht hq]
      refine ⟨e, ⟨he, hq⟩, ?_, rfl⟩
      rintro x ⟨hx, hout⟩
      -- what is out of range was set, for the old quantities are all in range
      have hmem : ∃ y ∈ e :: l, y.Holds x.currency x.token := by
        by_contra hnone
        have hall : ∀ y ∈ e :: l, ¬ y.Holds x.currency x.token := fun y hy h => hnone ⟨y, hy, h⟩
        have hkeptx := hkept x.currency x.token hall
        rw [← hx, hkeptx] at hout
        exact hout (ha.inRange_lookup x.currency x.token)
      obtain ⟨y, hy, hholds⟩ := hmem
      have hquantity : y.quantity = x.quantity := by
        rw [← hset y hy, hholds.1, hholds.2, hx]
      have hyx : y = x := AssetEntry.eq_of_holds hholds hquantity
      subst hyx
      rcases List.mem_cons.1 hy with rfl | hyl
      · exact .inl rfl
      · exact .inr (hfirst y hyl)

/-! ### Sums -/

/-- The entry with a quantity added that `a` has for its key. -/
def raised (a : Assets) (e : AssetEntry) : AssetEntry :=
  { e with quantity := a.lookup e.currency e.token + e.quantity }

/-- Each key is visited once, so that the quantity it is added to is still the one of `a`. -/
theorem foldlM_add_eq_insertAll {l : List AssetEntry} (hsorted : l.Pairwise Before) {out : Assets}
    (hout : ∀ e ∈ l, out.lookup e.currency e.token = a.lookup e.currency e.token) :
    l.foldlM (fun out e =>
        out.inserted e.currency e.token (out.lookup e.currency e.token + e.quantity)) out =
      out.insertAll (l.map a.raised) := by
  induction l generalizing out with
  | nil => rfl
  | cons e l ih =>
    obtain ⟨hfirst, hsorted'⟩ := List.pairwise_cons.1 hsorted
    obtain ⟨he, hout'⟩ := List.forall_mem_cons.1 hout
    rw [List.map_cons, insertAll, List.foldlM_cons, List.foldlM_cons]
    simp only [raised, he]
    cases hinsert :
        out.inserted e.currency e.token (a.lookup e.currency e.token + e.quantity) with
    | error err => rfl
    | ok out' =>
      obtain ⟨-, rfl⟩ := inserted_eq_ok_iff.1 hinsert
      refine ih hsorted' fun x hx => ?_
      have hne : ¬ (e.currency = x.currency ∧ e.token = x.token) := (hfirst x hx).not_holds
      rw [lookup_updated, if_neg hne, hout' x hx]

/-- The sum of two bundles expresses the sums of their quantities. -/
theorem expresses_union (ha : a.Canonical) (hb : b.Canonical) :
    Expresses (fun c t => a.lookup c t + b.lookup c t) (a.union b) := by
  have hunion : a.union b = a.insertAll (b.entries.map a.raised) :=
    foldlM_add_eq_insertAll hb.sorted_entries fun _ _ => rfl
  rw [hunion]
  refine expresses_insertAll ha (List.pairwise_map.2 hb.sorted_entries) ?_ ?_ ?_
  · refine List.forall_mem_map.2 fun e he => ?_
    exact ⟨(hb.fits he).currency, (hb.fits he).token⟩
  · refine List.forall_mem_map.2 fun e he => ?_
    show a.lookup e.currency e.token + b.lookup e.currency e.token = _
    rw [(hb.mem_entries_iff.1 he).1]
    rfl
  · intro c t hnone
    have hzero : b.lookup c t = 0 :=
      lookup_eq_zero fun e he => hnone (a.raised e) (List.mem_map_of_mem he)
    show a.lookup c t + b.lookup c t = a.lookup c t
    rw [hzero, Int.add_zero]

theorem lookup_union (ha : a.Canonical) (hb : b.Canonical) (h : a.union b = .ok w) (c t : Bytes) :
    w.lookup c t = a.lookup c t + b.lookup c t := by
  have hexpresses := expresses_union ha hb
  rw [h] at hexpresses
  exact hexpresses.2 c t

/-! ### Multiples -/

/-- The entry with its quantity multiplied. -/
def multiplied (n : Int) (e : AssetEntry) : AssetEntry := { e with quantity := e.quantity * n }

/-- A multiple of a bundle expresses the multiples of its quantities. -/
theorem expresses_scale (ha : a.Canonical) (n : Int) :
    Expresses (fun c t => n * a.lookup c t) (a.scale n) := by
  have hscale : a.scale n = empty.insertAll (a.entries.map (multiplied n)) := by
    rw [insertAll, List.foldlM_map]
    rfl
  rw [hscale]
  refine expresses_insertAll canonical_empty (List.pairwise_map.2 ha.sorted_entries) ?_ ?_ ?_
  · refine List.forall_mem_map.2 fun e he => ?_
    exact ⟨(ha.fits he).currency, (ha.fits he).token⟩
  · refine List.forall_mem_map.2 fun e he => ?_
    show n * a.lookup e.currency e.token = e.quantity * n
    rw [(ha.mem_entries_iff.1 he).1, Int.mul_comm]
  · intro c t hnone
    have hzero : a.lookup c t = 0 :=
      lookup_eq_zero fun e he => hnone (multiplied n e) (List.mem_map_of_mem he)
    show n * a.lookup c t = empty.lookup c t
    rw [hzero, Int.mul_zero, lookup_empty]

theorem lookup_scale (ha : a.Canonical) {n : Int} (h : a.scale n = .ok w) (c t : Bytes) :
    w.lookup c t = n * a.lookup c t := by
  have hexpresses := expresses_scale ha n
  rw [h] at hexpresses
  exact hexpresses.2 c t

/-! ### Laws -/

theorem union_swap (ha : a.Canonical) (hb : b.Canonical) : a.union b = b.union a := by
  have hsums := (expresses_union hb ha).congr fun c t => Int.add_comm (b.lookup c t) (a.lookup c t)
  exact (expresses_union ha hb).unique hsums

theorem union_regroup (ha : a.Canonical) (hb : b.Canonical) (hd : d.Canonical)
    {ab bd x y : Assets} (hab : a.union b = .ok ab) (hx : ab.union d = .ok x)
    (hbd : b.union d = .ok bd) (hy : a.union bd = .ok y) : x = y := by
  have hab' := ha.union hab
  have hbd' := hb.union hbd
  refine (hab'.union hx).eq_of_lookup (ha.union hy) fun c t => ?_
  calc x.lookup c t
      = ab.lookup c t + d.lookup c t := lookup_union hab' hd hx c t
    _ = a.lookup c t + b.lookup c t + d.lookup c t := by rw [lookup_union ha hb hab]
    _ = a.lookup c t + (b.lookup c t + d.lookup c t) := Int.add_assoc _ _ _
    _ = a.lookup c t + bd.lookup c t := by rw [lookup_union hb hd hbd]
    _ = y.lookup c t := (lookup_union ha hbd' hy c t).symm

theorem scale_zero (ha : a.Canonical) : a.scale 0 = .ok empty := by
  have hzeros := (expresses_scale ha 0).congr fun c t => Int.zero_mul (a.lookup c t)
  exact hzeros.unique canonical_empty.expresses

theorem scale_scale (ha : a.Canonical) {m n : Int} (h : a.scale n = .ok w) :
    w.scale m = a.scale (m * n) := by
  refine ((expresses_scale (canonical_scale h) m).congr fun c t => ?_).unique
    (expresses_scale ha (m * n))
  rw [lookup_scale ha h, Int.mul_assoc]

theorem scale_two (ha : a.Canonical) : a.scale 2 = a.union a := by
  have hdoubles := (expresses_scale ha 2).congr fun c t => Int.two_mul (a.lookup c t)
  exact hdoubles.unique (expresses_union ha ha)

theorem scale_distrib (ha : a.Canonical) (hb : b.Canonical) {n : Int} {ab an bn x y : Assets}
    (hab : a.union b = .ok ab) (hx : ab.scale n = .ok x) (han : a.scale n = .ok an)
    (hbn : b.scale n = .ok bn) (hy : an.union bn = .ok y) : x = y := by
  have han' := canonical_scale han
  have hbn' := canonical_scale hbn
  refine (canonical_scale hx).eq_of_lookup (han'.union hy) fun c t => ?_
  calc x.lookup c t
      = n * ab.lookup c t := lookup_scale (ha.union hab) hx c t
    _ = n * (a.lookup c t + b.lookup c t) := by rw [lookup_union ha hb hab]
    _ = n * a.lookup c t + n * b.lookup c t := Int.mul_add _ _ _
    _ = an.lookup c t + bn.lookup c t := by rw [lookup_scale ha han, lookup_scale hb hbn]
    _ = y.lookup c t := (lookup_union han' hbn' hy c t).symm

/-- **Adding and scaling bundles is exact partial arithmetic.**  Two bundles have a sum exactly if
the sum of their quantities is in range for every token, and a bundle has a multiple exactly if all
multiples of its quantities are; the lookups are then these sums and multiples, and otherwise the
failure reports one that is out of range.  Sums do not depend on the order of the bundles, failures
included, nor on how three of them are grouped; the empty bundle adds nothing.  A multiple of a
multiple is the multiple by the product, twice a bundle is its sum with itself, failures included,
and a multiple of a sum is the sum of the multiples. -/
theorem union_scale_exact (ha : a.Canonical) (hb : b.Canonical) (hd : d.Canonical) (m n : Int) :
    ((∃ w, a.union b = .ok w) ↔ ∀ c t, InRange (a.lookup c t + b.lookup c t)) ∧
    (∀ w, a.union b = .ok w → ∀ c t, w.lookup c t = a.lookup c t + b.lookup c t) ∧
    (∀ err, a.union b = .error err → ∃ c t, ¬ InRange (a.lookup c t + b.lookup c t) ∧
      err = .quantityOutOfRange (a.lookup c t + b.lookup c t)) ∧
    a.union b = b.union a ∧
    (a.union empty = .ok a ∧ empty.union a = .ok a) ∧
    (∀ ab bd x y, a.union b = .ok ab → ab.union d = .ok x → b.union d = .ok bd →
      a.union bd = .ok y → x = y) ∧
    ((∃ w, a.scale n = .ok w) ↔ ∀ c t, InRange (n * a.lookup c t)) ∧
    (∀ w, a.scale n = .ok w → ∀ c t, w.lookup c t = n * a.lookup c t) ∧
    a.scale 0 = .ok empty ∧
    (∀ w, a.scale n = .ok w → w.scale m = a.scale (m * n)) ∧
    a.scale 2 = a.union a ∧
    ∀ ab an bn x y, a.union b = .ok ab → ab.scale n = .ok x → a.scale n = .ok an →
      b.scale n = .ok bn → an.union bn = .ok y → x = y := by
  have hsum := expresses_union ha hb
  refine ⟨hsum.ok_iff, fun w hw => lookup_union ha hb hw, fun err herr => hsum.error_eq herr,
    union_swap ha hb, ⟨rfl, union_swap canonical_empty ha⟩, ?_, (expresses_scale ha n).ok_iff,
    fun w hw => lookup_scale ha hw, scale_zero ha, fun w hw => scale_scale ha hw, scale_two ha, ?_⟩
  · exact fun ab bd x y hab hx hbd hy => union_regroup ha hb hd hab hx hbd hy
  · exact fun ab an bn x y hab hx han hbn hy => scale_distrib ha hb hab hx han hbn hy

/-- Two bundles that together hold too much of one token, in either order. -/
theorem union_scale_exact_overdone :
    let a : Assets := ⟨⟨[([1], ⟨[([2], 2 ^ 127 - 1)]⟩), ([3], ⟨[([], -4)]⟩)]⟩⟩
    let b : Assets := ⟨⟨[([], ⟨[([], 6)]⟩), ([1], ⟨[([2], 1)]⟩)]⟩⟩
    (a.Canonical ∧ b.Canonical ∧ empty.Canonical) ∧
      a.union b = b.union a ∧ ¬ (∃ w, a.union b = .ok w) ∧ a.scale 2 = a.union a ∧
      b.scale (-1) = .ok ⟨⟨[([], ⟨[([], -6)]⟩), ([1], ⟨[([2], -1)]⟩)]⟩⟩ ∧
      scale ⟨⟨[([], ⟨[([], -6)]⟩), ([1], ⟨[([2], -1)]⟩)]⟩⟩ 3 = b.scale (3 * -1) := by
  intro a b
  have ha : a.Canonical :=
    (canonical_empty.inserted (c := [1]) (t := [2]) (q := 2 ^ 127 - 1) rfl).inserted
      (c := [3]) (t := []) (q := -4) rfl
  have hb : b.Canonical :=
    (canonical_empty.inserted (c := []) (t := []) (q := 6) rfl).inserted
      (c := [1]) (t := [2]) (q := 1) rfl
  obtain ⟨hok, -, -, hswap, -, -, -, -, -, -, htwo, -⟩ :=
    union_scale_exact ha hb canonical_empty 3 (-1)
  obtain ⟨-, -, -, -, -, -, -, -, -, hscale, -, -⟩ :=
    union_scale_exact hb ha canonical_empty 3 (-1)
  have hnegated : b.scale (-1) = .ok ⟨⟨[([], ⟨[([], -6)]⟩), ([1], ⟨[([2], -1)]⟩)]⟩⟩ := rfl
  refine ⟨⟨ha, hb, canonical_empty⟩, hswap, fun h => ?_, htwo, hnegated, hscale _ hnegated⟩
  have hrange := hok.1 h [1] [2]
  exact absurd hrange.2 (by decide)

end PlutusCek.Assets
