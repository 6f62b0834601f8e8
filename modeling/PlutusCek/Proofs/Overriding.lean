import Mathlib.Data.String.Basic
import PlutusCek.Proofs.Descent
import PlutusCek.Proofs.Naming

/-!
# Proofs.Overriding — overriding parameters by name is an exact update

Overrides apply to a model exactly if each of them names a parameter of the model with templates for
the builtins it names and that have no costs yet, and every parameter of such a builtin is named
(`CostModel.applyNamed_eq_ok_iff`).  Then the named parameters read as their overrides, and all
others as before.  Overriding twice is overriding once, by the union in which the later ones win.
-/

namespace PlutusCek

/-! ### Overrides as maps -/

namespace Overrides

theorem lookup_cons_of_ne {name other : String} (h : name ≠ other) {v : Amount}
    (l : List (String × Amount)) : ((other, v) :: l).lookup name = l.lookup name := by
  rw [List.lookup_cons, beq_false_of_ne h]

theorem lookup_place_self (name : String) (v : Amount) (l : List (String × Amount)) :
    (place name v l).lookup name = some v := by
  induction l with
  | nil => simp [place]
  | cons e rest ih =>
    simp only [place]
    split
    · exact List.lookup_cons_self
    · split
      · rename_i hlt
        rw [lookup_cons_of_ne (ne_of_gt hlt), ih]
      · exact List.lookup_cons_self

theorem lookup_place_of_ne {name other : String} (h : other ≠ name) (v : Amount)
    (l : List (String × Amount)) : (place name v l).lookup other = l.lookup other := by
  induction l with
  | nil => exact lookup_cons_of_ne h []
  | cons e rest ih =>
    simp only [place]
    split
    · exact lookup_cons_of_ne h _
    · split
      · by_cases he : other = e.1
        · rw [he, List.lookup_cons_self, List.lookup_cons_self]
        · rw [lookup_cons_of_ne he, lookup_cons_of_ne he, ih]
      · -- neither name comes before the other, so the entry replaced has this very name
        rename_i hge hle
        have heq : name = e.1 := le_antisymm (not_lt.1 hle) (not_lt.1 hge)
        rw [lookup_cons_of_ne h, lookup_cons_of_ne (heq ▸ h)]

/-- The names come in order, each one once. -/
def Sorted (o : Overrides) : Prop := o.entries.Pairwise fun e e' => e.1 < e'.1

theorem pairwise_place (name : String) (v : Amount) {l : List (String × Amount)}
    (h : l.Pairwise fun e e' => e.1 < e'.1) :
    (place name v l).Pairwise fun e e' => e.1 < e'.1 := by
  induction l with
  | nil => exact List.pairwise_singleton _ _
  | cons e rest ih =>
    obtain ⟨hfirst, hrest⟩ := List.pairwise_cons.1 h
    simp only [place]
    split
    · rename_i hlt
      refine List.pairwise_cons.2 ⟨List.forall_mem_cons.2 ⟨hlt, fun e' he' => ?_⟩, h⟩
      exact lt_trans hlt (hfirst e' he')
    · split
      · rename_i hlt
        have hplace := forall_mem_place (P := fun e' => e.1 < e'.1) (v := v) hlt hfirst
        exact List.pairwise_cons.2 ⟨hplace, ih hrest⟩
      · rename_i hge hle
        have heq : name = e.1 := le_antisymm (not_lt.1 hle) (not_lt.1 hge)
        refine List.pairwise_cons.2 ⟨fun e' he' => ?_, hrest⟩
        rw [heq]
        exact hfirst e' he'

/-- The overrides of two sets; where both have a name, the second wins. -/
def union (p q : Overrides) : Overrides :=
  ⟨q.entries.foldr (fun e out => place e.1 e.2 out) p.entries⟩

theorem get?_union (p q : Overrides) (name : String) :
    (p.union q).get? name = (q.get? name).or (p.get? name) := by
  simp only [get?, union]
  induction q.entries with
  | nil => rfl
  | cons e rest ih =>
    rw [List.foldr_cons]
    by_cases h : name = e.1
    · rw [h, lookup_place_self, List.lookup_cons_self]
      rfl
    · rw [lookup_place_of_ne h, ih, lookup_cons_of_ne h]

theorem sorted_union {p : Overrides} (h : p.Sorted) (q : Overrides) : (p.union q).Sorted := by
  simp only [Sorted, union]
  induction q.entries with
  | nil => exact h
  | cons e rest ih => exact pairwise_place e.1 e.2 ih

theorem mem_names_iff {o : Overrides} {name : String} :
    name ∈ o.names ↔ (o.get? name).isSome = true := by
  simp only [names, get?]
  induction o.entries with
  | nil => simp
  | cons e rest ih =>
    by_cases h : name = e.1
    · simp [h]
    · rw [lookup_cons_of_ne h, ← ih, List.map_cons, List.mem_cons, or_iff_right h]

theorem get?_eq_none {o : Overrides} {name : String} (h : name ∉ o.names) : o.get? name = none := by
  rw [mem_names_iff, Bool.not_eq_true, Option.isSome_eq_false_iff] at h
  exact Option.isNone_iff_eq_none.1 h

theorem mem_names_union {p q : Overrides} {name : String} :
    name ∈ (p.union q).names ↔ name ∈ p.names ∨ name ∈ q.names := by
  simp only [mem_names_iff, get?_union, Option.isSome_or, Bool.or_eq_true]
  exact or_comm

/-- A parameter gets its override, or keeps its value. -/
def assignment (o : Overrides) : CostFunction.Assignment :=
  fun name old => (o.get? name).getD old

theorem assignment_union (p q : Overrides) (name : String) (old : Amount) :
    (p.union q).assignment name old = q.assignment name (p.assignment name old) := by
  simp only [assignment, get?_union]
  cases q.get? name <;> rfl

end Overrides

/-- The costs with all parameters zero. -/
def BuiltinCost.shape (c : BuiltinCost) : BuiltinCost := ⟨c.mem.shape, c.cpu.shape⟩

/-! ### Builtins by name -/

theorem Builtin.name_injective {f g : Builtin} (h : f.name = g.name) : f = g := by
  have hsection : CostModel.Section.builtin f = .builtin g := CostModel.Section.stem_injective h
  cases hsection
  rfl

theorem Builtin.ofName?_eq_some_iff {f : Builtin} {name : String} :
    ofName? name = some f ↔ f.name = name := by
  constructor
  · intro h
    have hname := List.find?_some h
    exact beq_iff_eq.1 hname
  · rintro rfl
    cases hfind : ofName? f.name with
    | none =>
      have hnone := List.find?_eq_none.1 hfind f f.mem_all
      simp at hnone
    | some g =>
      have hname := List.find?_some hfind
      rw [name_injective (beq_iff_eq.1 hname)]

theorem BuiltinTable.eq_of_get {α : Type} {t u : BuiltinTable α} (h : ∀ f, t.get f = u.get f) :
    t = u := by
  have htag : ∀ i, (builtinAt i).tag = i.val := by decide +kernel
  obtain ⟨ts⟩ := t
  obtain ⟨us⟩ := u
  refine congrArg BuiltinTable.mk (Vector.ext fun i hi => ?_)
  have hi' := h (builtinAt ⟨i, hi⟩)
  simpa only [get, htag] using hi'

namespace CostModel

variable {m m' : CostModel} {names : List String} {name : String} {f : Builtin}

theorem eq_of_builtinCost? (hstartup : m.startup = m'.startup) (hsteps : m.steps = m'.steps)
    (hbuiltins : ∀ f, m.builtinCost? f = m'.builtinCost? f) : m = m' := by
  have htable : m.builtins = m'.builtins := BuiltinTable.eq_of_get hbuiltins
  obtain ⟨startup, steps, builtins⟩ := m
  obtain ⟨startup', steps', builtins'⟩ := m'
  cases hstartup
  cases hsteps
  cases htable
  rfl

theorem ownerBuiltin?_eq_some_iff {s : Section} {p : String × Amount}
    (h : p ∈ m.sectionParameters s) : ownerBuiltin? p.1 = some f ↔ s = .builtin f := by
  rw [ownerBuiltin?, owner?_of_mem h, Option.bind_some, Builtin.ofName?_eq_some_iff]
  refine ⟨fun hname => Section.stem_injective hname.symm, ?_⟩
  rintro rfl
  rfl

theorem mem_names_iff : name ∈ m.names ↔ ∃ s, ∃ p ∈ m.sectionParameters s, p.1 = name := by
  rw [CostModel.names, parameters_eq, List.map_flatMap]
  simp only [List.mem_flatMap, List.mem_map]
  constructor
  · rintro ⟨s, -, p, hp⟩
    exact ⟨s, p, hp⟩
  · rintro ⟨s, p, hp⟩
    exact ⟨s, s.mem_all, p, hp⟩

/-! ### Templates -/

/-- The model with templates for the builtins without costs that some name mentions. -/
def extendedBy (m : CostModel) (names : List String) : CostModel where
  startup := m.startup
  steps := m.steps
  builtins := .ofFn fun f => (m.builtinCost? f).or
    (if ∃ name ∈ names, ownerBuiltin? name = some f then template? f else none)

/-- The names mention a builtin that has no costs but a template. -/
structure Adds (m : CostModel) (names : List String) (f : Builtin) : Prop where
  uncosted : m.builtinCost? f = none
  template : (template? f).isSome = true
  named : ∃ name ∈ names, ownerBuiltin? name = some f

theorem builtinCost?_extendedBy (m : CostModel) (names : List String) (f : Builtin) :
    (m.extendedBy names).builtinCost? f = (m.builtinCost? f).or
      (if ∃ name ∈ names, ownerBuiltin? name = some f then template? f else none) := by
  rw [builtinCost?, extendedBy, BuiltinTable.get_ofFn]

theorem builtinCost?_of_adds (h : m.Adds names f) :
    (m.extendedBy names).builtinCost? f = template? f := by
  rw [builtinCost?_extendedBy, h.uncosted, if_pos h.named, Option.none_or]

theorem builtinCost?_of_not_adds (h : ¬ m.Adds names f) :
    (m.extendedBy names).builtinCost? f = m.builtinCost? f := by
  rw [builtinCost?_extendedBy]
  cases hf : m.builtinCost? f with
  | some c => rfl
  | none =>
    rw [Option.none_or]
    split
    · rename_i hnamed
      cases hc : template? f with
      | none => rfl
      | some c => exact absurd ⟨hf, by rw [hc]; rfl, hnamed⟩ h
    · rfl

theorem builtinParameters_of_uncosted (h : m.builtinCost? f = none) :
    m.builtinParameters f = [] := by
  rw [builtinParameters, h]

theorem builtinParameters_congr (h : m.builtinCost? f = m'.builtinCost? f) :
    m.builtinParameters f = m'.builtinParameters f := by
  rw [builtinParameters, h, builtinParameters]

/-- The parameters of a section are as they were unless it is a builtin that is added. -/
theorem sectionParameters_extendedBy {s : Section}
    (h : ∀ f, s = .builtin f → ¬ m.Adds names f) :
    (m.extendedBy names).sectionParameters s = m.sectionParameters s := by
  cases s with
  | startup => simp only [sectionParameters, extendedBy]
  | step k => simp only [sectionParameters, stepCost, extendedBy]
  | builtin f =>
    simp only [sectionParameters]
    rw [builtinParameters_congr (builtinCost?_of_not_adds (h f rfl))]

theorem mem_names_extendedBy (h : name ∈ m.names) : name ∈ (m.extendedBy names).names := by
  obtain ⟨s, p, hp, rfl⟩ := mem_names_iff.1 h
  refine mem_names_iff.2 ⟨s, p, ?_, rfl⟩
  rw [sectionParameters_extendedBy]
  · exact hp
  · rintro f rfl hadds
    simp only [sectionParameters, builtinParameters_of_uncosted hadds.uncosted] at hp
    cases hp

theorem builtinCost?_setBuiltin_self (m : CostModel) (f : Builtin) (c : BuiltinCost) :
    (m.setBuiltin f c).builtinCost? f = some c :=
  BuiltinTable.get_set_self _ f _

theorem builtinCost?_setBuiltin_of_ne (m : CostModel) {f g : Builtin} (c : BuiltinCost)
    (h : f ≠ g) : (m.setBuiltin f c).builtinCost? g = m.builtinCost? g :=
  BuiltinTable.get_set_ne _ _ h

theorem extendedBy_nil (m : CostModel) : m.extendedBy [] = m := by
  refine eq_of_builtinCost? (by rw [extendedBy]) (by rw [extendedBy]) fun f => ?_
  rw [builtinCost?_extendedBy]
  simp

/-- A name that mentions no builtin without costs adds nothing. -/
theorem named_cons_iff (hname : ∀ g, ownerBuiltin? name = some g → m.builtinCost? g ≠ none)
    (hf : m.builtinCost? f = none) :
    (∃ n ∈ name :: names, ownerBuiltin? n = some f) ↔ ∃ n ∈ names, ownerBuiltin? n = some f := by
  rw [List.exists_mem_cons_iff]
  exact or_iff_right fun h => hname f h hf

theorem extendedBy_skip (hname : ∀ g, ownerBuiltin? name = some g → m.builtinCost? g ≠ none) :
    m.extendedBy (name :: names) = m.extendedBy names := by
  refine eq_of_builtinCost? rfl rfl fun f => ?_
  rw [builtinCost?_extendedBy, builtinCost?_extendedBy]
  cases hf : m.builtinCost? f with
  | some c => rfl
  | none => simp only [named_cons_iff hname hf]

theorem adds_skip (hname : ∀ g, ownerBuiltin? name = some g → m.builtinCost? g ≠ none) :
    m.Adds (name :: names) f ↔ m.Adds names f := by
  constructor
  · rintro ⟨hf, ht, hn⟩
    exact ⟨hf, ht, (named_cons_iff hname hf).1 hn⟩
  · rintro ⟨hf, ht, hn⟩
    exact ⟨hf, ht, (named_cons_iff hname hf).2 hn⟩

section Template

variable {c : BuiltinCost} (hname : ownerBuiltin? name = some f) (hf : m.builtinCost? f = none)
  (hc : template? f = some c)
include hname hf hc

/-- A name that mentions a builtin without costs adds its template. -/
theorem extendedBy_setBuiltin :
    (m.setBuiltin f c).extendedBy names = m.extendedBy (name :: names) := by
  refine eq_of_builtinCost? rfl rfl fun g => ?_
  rw [builtinCost?_extendedBy, builtinCost?_extendedBy]
  by_cases hg : f = g
  · subst hg
    have hnamed : ∃ n ∈ name :: names, ownerBuiltin? n = some f := ⟨name, List.mem_cons_self, hname⟩
    rw [builtinCost?_setBuiltin_self, hf, if_pos hnamed, hc]
    rfl
  · rw [builtinCost?_setBuiltin_of_ne m c hg]
    have hother : ownerBuiltin? name ≠ some g := by
      rw [hname]
      exact fun h => hg (Option.some.inj h)
    simp only [List.exists_mem_cons_iff, hother, false_or]

theorem adds_cons_iff {g : Builtin} :
    m.Adds (name :: names) g ↔ g = f ∨ (m.setBuiltin f c).Adds names g := by
  by_cases hg : f = g
  · subst hg
    refine iff_of_true ⟨hf, by rw [hc]; rfl, name, List.mem_cons_self, hname⟩ (.inl rfl)
  · have hother : ownerBuiltin? name ≠ some g := by
      rw [hname]
      exact fun h => hg (Option.some.inj h)
    rw [or_iff_right (Ne.symm hg)]
    constructor
    · rintro ⟨hcost, ht, hn⟩
      rw [List.exists_mem_cons_iff, or_iff_right hother] at hn
      exact ⟨by rw [builtinCost?_setBuiltin_of_ne m c hg, hcost], ht, hn⟩
    · rintro ⟨hcost, ht, hn⟩
      rw [builtinCost?_setBuiltin_of_ne m c hg] at hcost
      exact ⟨hcost, ht, (List.exists_mem_cons_iff _ _ _).2 (.inr hn)⟩

end Template

/-- A parameter of a builtin is known only if the builtin has costs. -/
theorem builtinCost?_of_mem_names (hname : name ∈ m.names) (hf : ownerBuiltin? name = some f) :
    m.builtinCost? f ≠ none := by
  obtain ⟨s, p, hp, rfl⟩ := mem_names_iff.1 hname
  cases (ownerBuiltin?_eq_some_iff hp).1 hf
  intro hnone
  simp only [sectionParameters, builtinParameters, hnone] at hp
  cases hp

/-- What comes of putting in the templates: the extended model and the builtins added to others, or
an error and a name that is not known in the extended model. -/
inductive Instantiated (m : CostModel) (added : List Builtin) (names : List String) :
    Except ParameterError (CostModel × List Builtin) → Prop
  | ok {added' : List Builtin} (h : ∀ f, f ∈ added' ↔ f ∈ added ∨ m.Adds names f) :
    Instantiated m added names (.ok (m.extendedBy names, added'))
  | error {e : ParameterError} {unknown : String} (hname : unknown ∈ names)
    (h : unknown ∉ (m.extendedBy names).names) : Instantiated m added names (.error e)

theorem instantiated_nil (m : CostModel) (added : List Builtin) :
    Instantiated m added [] (.ok (m, added)) := by
  have h : Instantiated m added [] (.ok (m.extendedBy [], added)) := by
    refine .ok fun f => (or_iff_left ?_).symm
    rintro ⟨-, -, name, hmem, -⟩
    cases hmem
  rwa [extendedBy_nil] at h

/-- A name that adds nothing leaves it to the others. -/
theorem Instantiated.skip {added : List Builtin}
    {x : Except ParameterError (CostModel × List Builtin)} (h : Instantiated m added names x)
    (hname : ∀ g, ownerBuiltin? name = some g → m.builtinCost? g ≠ none) :
    Instantiated m added (name :: names) x := by
  cases h with
  | ok hadded =>
    rw [← extendedBy_skip hname]
    refine .ok fun f => ?_
    rw [hadded, adds_skip hname]
  | error hmem hunknown =>
    rw [← extendedBy_skip hname] at hunknown
    exact .error (List.mem_cons_of_mem _ hmem) hunknown

/-- A name that adds a builtin leaves the rest to the others, on the model with the template. -/
theorem Instantiated.add {added : List Builtin} {c : BuiltinCost}
    {x : Except ParameterError (CostModel × List Builtin)}
    (h : Instantiated (m.setBuiltin f c) (f :: added) names x)
    (hname : ownerBuiltin? name = some f) (hf : m.builtinCost? f = none)
    (hc : template? f = some c) : Instantiated m added (name :: names) x := by
  cases h with
  | ok hadded =>
    rw [extendedBy_setBuiltin hname hf hc]
    refine .ok fun g => ?_
    rw [hadded, List.mem_cons, adds_cons_iff hname hf hc, or_left_comm, or_assoc]
  | error hmem hunknown =>
    rw [extendedBy_setBuiltin hname hf hc] at hunknown
    exact .error (List.mem_cons_of_mem _ hmem) hunknown

theorem instantiated_instantiate (m : CostModel) (added : List Builtin) (names : List String) :
    Instantiated m added names (m.instantiate added names) := by
  induction names generalizing m added with
  | nil => exact instantiated_nil m added
  | cons name rest ih =>
    simp only [instantiate]
    cases howner : owner? name with
    | none =>
      -- a parameter has a hyphen in its name
      refine .error List.mem_cons_self fun hknown => ?_
      obtain ⟨s, p, hp, rfl⟩ := mem_names_iff.1 hknown
      rw [owner?_of_mem hp] at howner
      cases howner
    | some stem =>
      have hbuiltin : ownerBuiltin? name = Builtin.ofName? stem := by
        rw [ownerBuiltin?, howner, Option.bind_some]
      dsimp only
      cases hstem : Builtin.ofName? stem with
      | none =>
        refine (ih m added).skip fun g hg => ?_
        rw [hbuiltin, hstem] at hg
        cases hg
      | some f =>
        rw [hstem] at hbuiltin
        dsimp only
        cases hf : m.builtinCost? f with
        | some c =>
          refine (ih m added).skip fun g hg => ?_
          rw [hbuiltin] at hg
          cases hg
          rw [hf]
          exact Option.some_ne_none c
        | none =>
          dsimp only
          cases hc : template? f with
          | none =>
            refine .error List.mem_cons_self fun hknown => ?_
            refine builtinCost?_of_mem_names hknown hbuiltin ?_
            rw [builtinCost?_extendedBy, hf, hc, ite_self, Option.or_none]
          | some c => exact (ih (m.setBuiltin f c) (f :: added)).add hbuiltin hf hc

/-! ### Reading and assigning -/

/-- The value of a parameter. -/
def parameter? (m : CostModel) (name : String) : Option Amount :=
  m.parameters.lookup name

theorem lookup_flatMap {σ : Type} (name : String) (l : List σ) (g : σ → List (String × Amount)) :
    (l.flatMap g).lookup name = l.findSome? fun x => (g x).lookup name := by
  induction l with
  | nil => rfl
  | cons x l ih =>
    rw [List.flatMap_cons, List.lookup_append, ih, List.findSome?_cons]
    cases (g x).lookup name <;> rfl

theorem lookup_assign (g : CostFunction.Assignment) (name : String)
    (l : List (String × Amount)) :
    (l.map fun p => (p.1, g p.1 p.2)).lookup name = (l.lookup name).map (g name) := by
  induction l with
  | nil => rfl
  | cons p l ih =>
    rw [List.map_cons]
    by_cases h : name = p.1
    · rw [h, List.lookup_cons_self, List.lookup_cons_self, Option.map_some]
    · rw [Overrides.lookup_cons_of_ne h, Overrides.lookup_cons_of_ne h, ih]

theorem parameter?_eq (m : CostModel) (name : String) :
    m.parameter? name = Section.all.findSome? fun s => (m.sectionParameters s).lookup name := by
  rw [parameter?, parameters_eq, lookup_flatMap]

theorem isSome_parameter? (h : name ∈ m.names) : (m.parameter? name).isSome = true :=
  Overrides.mem_names_iff.1 (show name ∈ Overrides.names ⟨m.parameters⟩ from h)

variable (g : CostFunction.Assignment)

theorem builtinCost?_assign (m : CostModel) (f : Builtin) :
    (m.assign g).builtinCost? f = (m.builtinCost? f).map (assignBuiltin g f) := by
  rw [builtinCost?, assign, BuiltinTable.get_ofFn]

theorem sectionParameters_assign (m : CostModel) (s : Section) :
    (m.assign g).sectionParameters s = (m.sectionParameters s).map fun p => (p.1, g p.1 p.2) := by
  cases s with
  | startup => rfl
  | step k =>
    have hstep : (m.assign g).stepCost k = assignBudget g k.parameterStem (m.stepCost k) := by
      rw [stepCost, assign, PerStep.get_mapWithKind, stepCost]
    rw [sectionParameters, hstep]
    rfl
  | builtin f =>
    simp only [sectionParameters, builtinParameters, builtinCost?_assign]
    cases m.builtinCost? f with
    | none => rfl
    | some c =>
      simp only [Option.map_some, assignBuiltin, CostFunction.parameters_assign, List.map_append]

theorem parameters_assign (m : CostModel) :
    (m.assign g).parameters = m.parameters.map fun p => (p.1, g p.1 p.2) := by
  rw [parameters_eq, parameters_eq, List.map_flatMap]
  exact List.flatMap_congr fun s _ => sectionParameters_assign g m s

theorem names_assign (m : CostModel) : (m.assign g).names = m.names := by
  rw [CostModel.names, parameters_assign, List.map_map]
  rfl

theorem parameter?_assign (m : CostModel) (name : String) :
    (m.assign g).parameter? name = (m.parameter? name).map (g name) := by
  rw [parameter?, parameters_assign, lookup_assign, parameter?]

/-! ### Overriding -/

variable {o : Overrides}

/-- The model with templates for the builtins that are named, and the values put in. -/
abbrev overridden (m : CostModel) (o : Overrides) : CostModel :=
  (m.extendedBy o.names).assign o.assignment

/-- The overrides are for known parameters, and name all parameters of the builtins they add. -/
structure Accepts (m : CostModel) (o : Overrides) : Prop where
  known : ∀ name ∈ o.names, name ∈ (m.extendedBy o.names).names
  complete : ∀ f, m.Adds o.names f →
    ∀ p ∈ (m.extendedBy o.names).builtinParameters f, p.1 ∈ o.names

theorem firstMissing?_eq_none_iff {added : List Builtin} :
    firstMissing? added o names = none ↔
      ∀ name ∈ names, name ∉ o.names → ∀ f, ownerBuiltin? name = some f → f ∉ added := by
  rw [firstMissing?, List.findSome?_eq_none_iff]
  refine forall₂_congr fun name _ => ?_
  rw [Overrides.mem_names_iff]
  cases o.get? name with
  | some v => simp
  | none =>
    cases ownerBuiltin? name with
    | none => simp
    | some f => simp

/-- Only the parameters of a builtin that was added can be missing. -/
theorem complete_iff {added : List Builtin} (hadded : ∀ f, f ∈ added ↔ m.Adds o.names f) :
    firstMissing? added o (m.extendedBy o.names).names = none ↔
      ∀ f, m.Adds o.names f → ∀ p ∈ (m.extendedBy o.names).builtinParameters f, p.1 ∈ o.names := by
  rw [firstMissing?_eq_none_iff]
  constructor
  · intro h f hf p hp
    by_contra hmissing
    have hsection : p ∈ (m.extendedBy o.names).sectionParameters (.builtin f) := hp
    refine h p.1 (mem_names_iff.2 ⟨_, p, hsection, rfl⟩) hmissing f ?_ ((hadded f).2 hf)
    exact (ownerBuiltin?_eq_some_iff hsection).2 rfl
  · intro h name hname hmissing f hf hmem
    obtain ⟨s, p, hp, rfl⟩ := mem_names_iff.1 hname
    cases (ownerBuiltin?_eq_some_iff hp).1 hf
    exact hmissing (h f ((hadded f).1 hmem) p hp)

/-- Overrides change the model if it accepts them, and else they leave it as it was. -/
theorem overrideNamed_cases (m : CostModel) (o : Overrides) :
    m.Accepts o ∧ (overrideNamed o).apply m = (.ok (), m.overridden o) ∨
      ¬ m.Accepts o ∧ ∃ e, (overrideNamed o).apply m = (.error e, m) := by
  have hinst := instantiated_instantiate m [] o.names
  cases hres : m.instantiate [] o.names with
  | error e =>
    rw [hres] at hinst
    cases hinst with
    | error hname hunknown =>
      exact .inr ⟨fun h => hunknown (h.known _ hname), e, overrideNamed_of_error hres⟩
  | ok x =>
    rw [hres] at hinst
    obtain ⟨full, added⟩ := x
    cases hinst with
    | ok hadded =>
      have hmissing := complete_iff fun f => (hadded f).trans (or_iff_right List.not_mem_nil)
      have hknown : (o.names.find? fun name => !(m.extendedBy o.names).names.contains name) = none ↔
          ∀ name ∈ o.names, name ∈ (m.extendedBy o.names).names := by simp
      rcases overrideNamed_of_ok hres with ⟨⟨hfind, hfirst⟩, hok⟩ | ⟨hclean, herror⟩
      · exact .inl ⟨⟨hknown.1 hfind, hmissing.1 hfirst⟩, hok⟩
      · exact .inr ⟨fun h => hclean ⟨hknown.2 h.known, hmissing.2 h.complete⟩, herror⟩

/-- When overrides apply, and what they give. -/
theorem applyNamed_eq_ok_iff :
    m.applyNamed o = .ok m' ↔ m.Accepts o ∧ m' = m.overridden o := by
  rw [applyNamed, Update.result_eq_ok_iff]
  rcases overrideNamed_cases m o with ⟨haccepts, hok⟩ | ⟨hrefused, e, herror⟩
  · rw [hok, Prod.mk.injEq, and_iff_right rfl, and_iff_right haccepts]
    exact eq_comm
  · rw [herror]
    exact iff_of_false (fun h => by cases h) fun h => hrefused h.1

/-! ### What overriding keeps and changes -/

theorem parameter?_overridden (h : m.Accepts o) (name : String) :
    (m.overridden o).parameter? name = (o.get? name).or (m.parameter? name) := by
  rw [parameter?_assign]
  by_cases hkey : name ∈ o.names
  · obtain ⟨old, hold⟩ := Option.isSome_iff_exists.1 (isSome_parameter? (h.known name hkey))
    obtain ⟨v, hv⟩ := Option.isSome_iff_exists.1 (Overrides.mem_names_iff.1 hkey)
    simp only [hold, hv, Overrides.assignment, Option.map_some, Option.getD_some, Option.some_or]
  · have hget := Overrides.get?_eq_none hkey
    have hassign : o.assignment name = id := by
      funext old
      simp only [Overrides.assignment, hget, Option.getD_none, id]
    rw [hassign, Option.map_id, id, hget, Option.none_or, parameter?_eq, parameter?_eq]
    refine congrArg (Section.all.findSome? ·) (funext fun s => ?_)
    by_cases hs : ∃ f, s = .builtin f ∧ m.Adds o.names f
    · obtain ⟨f, rfl, hadds⟩ := hs
      simp only [sectionParameters]
      rw [builtinParameters_of_uncosted hadds.uncosted, List.lookup_nil, List.lookup_eq_none_iff]
      intro p hp
      refine bne_iff_ne.2 ?_
      rintro rfl
      exact hkey (h.complete f hadds p hp)
    · rw [sectionParameters_extendedBy fun f hf hadds => hs ⟨f, hf, hadds⟩]

theorem shape_assignBuiltin (f : Builtin) (c : BuiltinCost) :
    (assignBuiltin g f c).shape = c.shape := by
  simp only [assignBuiltin, BuiltinCost.shape, CostFunction.shape_assign]

/-- The builtins with costs are those that had them and those that are added. -/
theorem isSome_builtinCost?_overridden :
    ((m.overridden o).builtinCost? f).isSome = true ↔
      (m.builtinCost? f).isSome = true ∨ m.Adds o.names f := by
  rw [builtinCost?_assign, Option.isSome_map]
  by_cases h : m.Adds o.names f
  · rw [builtinCost?_of_adds h]
    exact iff_of_true h.template (.inr h)
  · rw [builtinCost?_of_not_adds h]
    exact (or_iff_left h).symm

theorem builtinCost?_overridden_eq_none :
    (m.overridden o).builtinCost? f = none ↔ m.builtinCost? f = none ∧ ¬ m.Adds o.names f := by
  rw [← Option.not_isSome_iff_eq_none, isSome_builtinCost?_overridden, not_or,
    Option.not_isSome_iff_eq_none]

/-- Costs that were there keep their shape. -/
theorem shape_overridden {c : BuiltinCost} (h : m.builtinCost? f = some c) :
    ∃ c', (m.overridden o).builtinCost? f = some c' ∧ c'.shape = c.shape := by
  have hnot : ¬ m.Adds o.names f := fun hadds => by
    rw [hadds.uncosted] at h
    cases h
  refine ⟨assignBuiltin o.assignment f c, ?_, shape_assignBuiltin _ f c⟩
  rw [builtinCost?_assign, builtinCost?_of_not_adds hnot, h, Option.map_some]

/-! ### Overriding twice -/

section Twice

variable {p q : Overrides}

theorem assignBuiltin_union (f : Builtin) (c : BuiltinCost) :
    assignBuiltin q.assignment f (assignBuiltin p.assignment f c) =
      assignBuiltin (p.union q).assignment f c := by
  simp only [assignBuiltin, CostFunction.assign_assign, ← Overrides.assignment_union]

/-- Where the second overrides name every parameter, the first ones do not matter. -/
theorem assignBuiltin_of_complete {c : BuiltinCost} (hf : m.builtinCost? f = some c)
    (h : ∀ x ∈ m.builtinParameters f, x.1 ∈ q.names) :
    assignBuiltin q.assignment f c = assignBuiltin (p.union q).assignment f c := by
  have hsame : ∀ x ∈ m.builtinParameters f,
      q.assignment x.1 x.2 = (p.union q).assignment x.1 x.2 := by
    intro x hx
    obtain ⟨v, hv⟩ := Option.isSome_iff_exists.1 (Overrides.mem_names_iff.1 (h x hx))
    rw [Overrides.assignment_union]
    simp only [Overrides.assignment, hv, Option.getD_some]
  rw [builtinParameters, hf] at hsame
  have hcpu := CostFunction.assign_congr fun x hx => hsame x (List.mem_append_left _ hx)
  have hmem := CostFunction.assign_congr fun x hx => hsame x (List.mem_append_right _ hx)
  rw [assignBuiltin, hcpu, hmem, assignBuiltin]

theorem adds_union_iff : m.Adds (p.union q).names f ↔
    m.Adds p.names f ∨ (m.overridden p).Adds q.names f := by
  constructor
  · rintro ⟨hf, ht, name, hname, howner⟩
    by_cases hadds : m.Adds p.names f
    · exact .inl hadds
    · rcases Overrides.mem_names_union.1 hname with hp | hq
      · exact absurd ⟨hf, ht, name, hp, howner⟩ hadds
      · exact .inr ⟨builtinCost?_overridden_eq_none.2 ⟨hf, hadds⟩, ht, name, hq, howner⟩
  · rintro (⟨hf, ht, name, hname, howner⟩ | ⟨hf, ht, name, hname, howner⟩)
    · exact ⟨hf, ht, name, Overrides.mem_names_union.2 (.inl hname), howner⟩
    · obtain ⟨hf, -⟩ := builtinCost?_overridden_eq_none.1 hf
      exact ⟨hf, ht, name, Overrides.mem_names_union.2 (.inr hname), howner⟩

theorem builtinCost?_union (hq : (m.overridden p).Accepts q) (f : Builtin) :
    ((m.overridden p).overridden q).builtinCost? f =
      (m.overridden (p.union q)).builtinCost? f := by
  rw [builtinCost?_assign, builtinCost?_assign]
  by_cases hadds : (m.overridden p).Adds q.names f
  · -- the second overrides add the builtin, so they name all of its parameters
    have hcost := builtinCost?_of_adds hadds
    rw [hcost, builtinCost?_of_adds (adds_union_iff.2 (.inr hadds))]
    cases hc : template? f with
    | none => rfl
    | some c =>
      rw [hc] at hcost
      exact congrArg some (assignBuiltin_of_complete hcost (hq.complete f hadds))
  · -- the builtin has costs before the second overrides, if it has any
    have hsame : (m.extendedBy (p.union q).names).builtinCost? f =
        (m.extendedBy p.names).builtinCost? f := by
      by_cases hp : m.Adds p.names f
      · rw [builtinCost?_of_adds hp, builtinCost?_of_adds (adds_union_iff.2 (.inl hp))]
      · have hnot : ¬ m.Adds (p.union q).names f := fun h =>
          (adds_union_iff.1 h).elim hp hadds
        rw [builtinCost?_of_not_adds hp, builtinCost?_of_not_adds hnot]
    rw [builtinCost?_of_not_adds hadds, builtinCost?_assign, hsame, Option.map_map]
    exact congrArg (Option.map · _) (funext fun c => assignBuiltin_union f c)

/-- Overriding by one set and then by another comes to overriding by their union. -/
theorem overridden_union (hq : (m.overridden p).Accepts q) :
    (m.overridden p).overridden q = m.overridden (p.union q) := by
  refine eq_of_builtinCost? ?_ ?_ (builtinCost?_union hq)
  · simp only [assign, extendedBy, assignBudget, Overrides.assignment_union]
  · simp only [assign, extendedBy, assignBudget, Overrides.assignment_union]
    rfl

theorem accepts_union (hp : m.Accepts p) (hq : (m.overridden p).Accepts q) :
    m.Accepts (p.union q) where
  known name hname := by
    have hnames := congrArg CostModel.names (overridden_union hq)
    rw [names_assign, names_assign] at hnames
    rw [← hnames]
    rcases Overrides.mem_names_union.1 hname with h | h
    · refine mem_names_extendedBy ?_
      rw [names_assign]
      exact hp.known name h
    · exact hq.known name h
  complete f hadds x hx := by
    have hcost := builtinCost?_of_adds hadds
    refine Overrides.mem_names_union.2 ((adds_union_iff.1 hadds).imp (fun h => ?_) fun h => ?_)
    · refine hp.complete f h x ?_
      rwa [builtinParameters_congr ((builtinCost?_of_adds h).trans hcost.symm)]
    · refine hq.complete f h x ?_
      rwa [builtinParameters_congr ((builtinCost?_of_adds h).trans hcost.symm)]

end Twice

/-- **Overriding by name is an atomic and exact update** of any model.  The names of its parameters
are pairwise distinct.  Overrides apply if and only if each of them is for a parameter of the model
extended by the templates of the builtins that are named and have no costs, and every parameter of a
builtin added like this is named.  If they apply, a parameter that is named reads as its override
and any other one as before, the costs that were there keep their shapes, and exactly the builtins
added get costs; if not, the model stays.  Overrides that apply one after the other come to their
union, in which the later ones win. -/
theorem applyNamed_exact (m : CostModel) (o : Overrides) :
    m.names.Nodup ∧
    ((∃ m', m.applyNamed o = .ok m') ↔
      (∀ name ∈ o.names, name ∈ (m.extendedBy o.names).names) ∧
        ∀ f, m.Adds o.names f → ∀ p ∈ (m.extendedBy o.names).builtinParameters f, p.1 ∈ o.names) ∧
    (∀ m', m.applyNamed o = .ok m' →
      (overrideNamed o).apply m = (.ok (), m') ∧
      (∀ name, m'.parameter? name = (o.get? name).or (m.parameter? name)) ∧
      (∀ f c, m.builtinCost? f = some c →
        ∃ c', m'.builtinCost? f = some c' ∧ c'.shape = c.shape) ∧
      ∀ f, (m'.builtinCost? f).isSome = true ↔
        (m.builtinCost? f).isSome = true ∨ m.Adds o.names f) ∧
    (∀ e, m.applyNamed o = .error e → (overrideNamed o).apply m = (.error e, m)) ∧
    ∀ q m' m'', m.applyNamed o = .ok m' → m'.applyNamed q = .ok m'' →
      (o.Sorted → (o.union q).Sorted) ∧
        (∀ name, (o.union q).get? name = (q.get? name).or (o.get? name)) ∧
        m.applyNamed (o.union q) = .ok m'' := by
  refine ⟨m.nodup_names, ⟨?_, ?_⟩, fun m' h => ?_, fun e h => ?_, fun q m' m'' h h' => ?_⟩
  · rintro ⟨m', h⟩
    obtain ⟨haccepts, -⟩ := applyNamed_eq_ok_iff.1 h
    exact ⟨haccepts.known, haccepts.complete⟩
  · rintro ⟨hknown, hcomplete⟩
    exact ⟨_, applyNamed_eq_ok_iff.2 ⟨⟨hknown, hcomplete⟩, rfl⟩⟩
  · obtain ⟨haccepts, rfl⟩ := applyNamed_eq_ok_iff.1 h
    exact ⟨Update.result_eq_ok_iff.1 h, parameter?_overridden haccepts,
      fun f c hc => shape_overridden hc, fun f => isSome_builtinCost?_overridden⟩
  · have hfailed := Update.result_eq_error_iff.1 h
    rcases overrideNamed_cases m o with ⟨-, hok⟩ | ⟨-, e', herror⟩
    · rw [hok] at hfailed
      cases hfailed
    · rw [herror] at hfailed ⊢
      cases hfailed
      rfl
  · obtain ⟨hp, rfl⟩ := applyNamed_eq_ok_iff.1 h
    obtain ⟨hq, rfl⟩ := applyNamed_eq_ok_iff.1 h'
    refine ⟨fun ho => Overrides.sorted_union ho q, Overrides.get?_union o q, ?_⟩
    exact applyNamed_eq_ok_iff.2 ⟨accepts_union hp hq, overridden_union hq⟩

/-- A model without costs for any builtin. -/
def bare : CostModel := ⟨.zero, .uniform .zero, .ofFn fun _ => none⟩

/-- All parameters of a builtin that has no default costs. -/
def coinPrices : Overrides :=
  .ofList [("insertCoin-cpu-arguments-intercept", 5), ("insertCoin-cpu-arguments-slope", 6),
    ("insertCoin-memory-arguments-intercept", 7), ("insertCoin-memory-arguments-slope", 8)]

theorem applyNamed_exact_insertCoin : ∃ m', bare.applyNamed coinPrices = .ok m' ∧
    m'.parameter? "insertCoin-cpu-arguments-slope" = some 6 ∧
    (m'.builtinCost? .insertCoin).isSome = true := by
  have howner : ∀ name ∈ coinPrices.names, ownerBuiltin? name = some .insertCoin := by
    decide +kernel
  have huncosted : bare.builtinCost? .insertCoin = none := by
    rw [builtinCost?, bare, BuiltinTable.get_ofFn]
  have hadds : bare.Adds coinPrices.names .insertCoin :=
    ⟨huncosted, rfl, "insertCoin-cpu-arguments-slope", by decide +kernel, by decide +kernel⟩
  have hparameters : ((bare.extendedBy coinPrices.names).builtinParameters .insertCoin).map
      Prod.fst = coinPrices.names := by
    rw [builtinParameters, builtinCost?_of_adds hadds]
    decide +kernel
  have hknown : ∀ name ∈ coinPrices.names, name ∈ (bare.extendedBy coinPrices.names).names := by
    intro name hname
    rw [← hparameters] at hname
    obtain ⟨p, hp, hpname⟩ := List.mem_map.1 hname
    have hsection :
        p ∈ (bare.extendedBy coinPrices.names).sectionParameters (.builtin .insertCoin) := by
      rw [sectionParameters]
      exact hp
    exact mem_names_iff.2 ⟨.builtin .insertCoin, p, hsection, hpname⟩
  have hcomplete : ∀ f, bare.Adds coinPrices.names f →
      ∀ p ∈ (bare.extendedBy coinPrices.names).builtinParameters f, p.1 ∈ coinPrices.names := by
    rintro f ⟨-, -, name, hname, hf⟩ p hp
    cases (howner name hname).symm.trans hf
    rw [← hparameters]
    exact List.mem_map_of_mem hp
  obtain ⟨-, happlies, hexact, -⟩ := applyNamed_exact bare coinPrices
  obtain ⟨m', hm'⟩ := happlies.2 ⟨hknown, hcomplete⟩
  obtain ⟨-, hread, -, hcosted⟩ := hexact m' hm'
  refine ⟨m', hm', ?_, (hcosted .insertCoin).2 (.inr hadds)⟩
  have hget : coinPrices.get? "insertCoin-cpu-arguments-slope" = some 6 := by decide +kernel
  rw [hread, hget, Option.some_or]

end CostModel

end PlutusCek
