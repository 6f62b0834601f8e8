import PlutusCek.Proofs.Overriding

/-!
# Proofs.Positions — overriding parameters by position

Sorted, the names of a model's parameters are strictly increasing, so each value given by position
is for a parameter of its own (`CostModel.get?_positional`).  None of these names mentions a builtin
without costs, hence overriding by position fails only for want of names
(`CostModel.applyOrdered_of_le`) and keeps the names and the shapes.  A model is its shapes and its
parameters (`CostModel.eq_of_parameters`): its own values change nothing, and a value for each
position leaves nothing of the values before.
-/

namespace PlutusCek

/-! ### Models as shapes with parameters -/

namespace CostFunction

theorem assign_id (stem : String) (f : CostFunction) : f.assign (fun _ old => old) stem = f := by
  induction f generalizing stem with
  | constAboveDiagonal c model ih | constBelowDiagonal c model ih => simp only [assign, ih]
  | _ => rfl

theorem assign_self {g : Assignment} {stem : String} {f : CostFunction}
    (h : ∀ p ∈ f.parameters stem, g p.1 p.2 = p.2) : f.assign g stem = f := by
  rw [assign_congr (h := fun _ old => old) h, assign_id]

/-- Zeros do not depend on the names. -/
theorem shape_eq (stem : String) (f : CostFunction) : f.shape = f.assign (fun _ _ => 0) stem := by
  have hzero : ∀ s t, f.assign (fun _ _ => 0) s = f.assign (fun _ _ => 0) t := by
    induction f with
    | constAboveDiagonal c model ih | constBelowDiagonal c model ih =>
      intro s t
      simp only [assign]
      rw [ih]
    | _ => exact fun _ _ => rfl
  exact hzero "" stem

end CostFunction

theorem PerStep.eq_of_get {α : Type} {t u : PerStep α} (h : ∀ k, t.get k = u.get k) : t = u := by
  obtain ⟨⟩ := t
  obtain ⟨⟩ := u
  simp only [mk.injEq]
  exact ⟨h .constant, h .var, h .lambda, h .apply, h .delay, h .force, h .builtin, h .constr,
    h .case⟩

namespace CostModel

variable {m m' : CostModel} {g : CostFunction.Assignment} {name : String}

theorem mem_parameters {s : Section} {p : String × Amount} (h : p ∈ m.sectionParameters s) :
    p ∈ m.parameters := by
  rw [parameters_eq]
  exact List.mem_flatMap.2 ⟨s, s.mem_all, h⟩

theorem assignBudget_self {stem : String} {b : Budget}
    (h : ∀ p ∈ budgetParameters stem b, g p.1 p.2 = p.2) : assignBudget g stem b = b := by
  obtain ⟨hcpu, hrest⟩ := List.forall_mem_cons.1 h
  have hmem := List.forall_mem_singleton.1 hrest
  simp only [assignBudget, hcpu, hmem]

/-- Assigning its own values to the parameters of a model. -/
theorem assign_self (h : ∀ p ∈ m.parameters, g p.1 p.2 = p.2) : m.assign g = m := by
  have hsection : ∀ s, ∀ p ∈ m.sectionParameters s, g p.1 p.2 = p.2 :=
    fun s p hp => h p (mem_parameters hp)
  refine eq_of_builtinCost? (assignBudget_self (hsection .startup)) ?_ fun f => ?_
  · refine PerStep.eq_of_get fun k => ?_
    rw [assign, PerStep.get_mapWithKind]
    exact assignBudget_self (hsection (.step k))
  · have hbuiltin := hsection (.builtin f)
    rw [builtinCost?_assign]
    simp only [sectionParameters, builtinParameters] at hbuiltin
    cases hf : m.builtinCost? f with
    | none => rfl
    | some c =>
      rw [hf] at hbuiltin
      obtain ⟨hcpu, hmem⟩ := List.forall_mem_append.1 hbuiltin
      rw [Option.map_some, assignBuiltin, CostFunction.assign_self hcpu,
        CostFunction.assign_self hmem]

theorem assign_assign (g h : CostFunction.Assignment) (m : CostModel) :
    (m.assign g).assign h = m.assign fun name old => h name (g name old) := by
  refine eq_of_builtinCost? rfl rfl fun f => ?_
  rw [builtinCost?_assign, builtinCost?_assign, builtinCost?_assign, Option.map_map]
  refine congrArg (Option.map · _) (funext fun c => ?_)
  simp only [Function.comp, assignBuiltin, CostFunction.assign_assign]

/-- The same builtins have costs, and these have the same shapes. -/
def SameShapes (m m' : CostModel) : Prop :=
  ∀ f, (m.builtinCost? f).map BuiltinCost.shape = (m'.builtinCost? f).map BuiltinCost.shape

theorem sameShapes_assign (g : CostFunction.Assignment) (m : CostModel) :
    (m.assign g).SameShapes m := by
  intro f
  rw [builtinCost?_assign, Option.map_map]
  exact congrArg (Option.map · _) (funext fun c => shape_assignBuiltin g f c)

/-- Models of the same shapes differ in their parameters only. -/
theorem SameShapes.assign_zero (h : m.SameShapes m') :
    m.assign (fun _ _ => 0) = m'.assign fun _ _ => 0 := by
  have hshape : ∀ f, assignBuiltin (fun _ _ => 0) f = BuiltinCost.shape := by
    intro f
    funext c
    rw [assignBuiltin, BuiltinCost.shape, ← CostFunction.shape_eq, ← CostFunction.shape_eq]
  refine eq_of_builtinCost? rfl rfl fun f => ?_
  rw [builtinCost?_assign, builtinCost?_assign, hshape, h f]

theorem SameShapes.names_eq (h : m.SameShapes m') : m.names = m'.names := by
  rw [← names_assign (fun _ _ => 0) m, h.assign_zero, names_assign]

theorem lookup_of_mem {l : List (String × Amount)} (h : (l.map Prod.fst).Nodup)
    {p : String × Amount} (hp : p ∈ l) : l.lookup p.1 = some p.2 := by
  induction l with
  | nil => cases hp
  | cons q l ih =>
    rw [List.map_cons, List.nodup_cons] at h
    rcases List.mem_cons.1 hp with rfl | hmem
    · exact List.lookup_cons_self
    · have hne : p.1 ≠ q.1 := fun heq => h.1 (heq ▸ List.mem_map_of_mem hmem)
      rw [Overrides.lookup_cons_of_ne hne, ih h.2 hmem]

theorem parameter?_of_mem {p : String × Amount} (h : p ∈ m.parameters) :
    m.parameter? p.1 = some p.2 :=
  lookup_of_mem m.nodup_names h

theorem parameter?_eq_none (h : name ∉ m.names) : m.parameter? name = none :=
  Overrides.get?_eq_none (o := ⟨m.parameters⟩) h

/-- A model is what comes of filling its values into its shapes. -/
theorem assign_zero_assign (h : ∀ name, m.parameter? name = m'.parameter? name) :
    (m.assign fun _ _ => 0).assign (fun name _ => (m'.parameter? name).getD 0) = m := by
  rw [assign_assign]
  refine assign_self fun p hp => ?_
  rw [← h, parameter?_of_mem hp, Option.getD_some]

/-- **A model is determined by its shapes and its parameters.** -/
theorem eq_of_parameters (hshapes : m.SameShapes m')
    (h : ∀ name, m.parameter? name = m'.parameter? name) : m = m' := calc
  m = (m.assign fun _ _ => 0).assign (fun name _ => (m'.parameter? name).getD 0) :=
    (assign_zero_assign h).symm
  _ = (m'.assign fun _ _ => 0).assign (fun name _ => (m'.parameter? name).getD 0) := by
    rw [hshapes.assign_zero]
  _ = m' := assign_zero_assign fun _ => rfl

/-! ### The sorted names -/

theorem perm_parameterNames (m : CostModel) : m.parameterNames.Perm m.names :=
  List.mergeSort_perm _ _

theorem nodup_parameterNames (m : CostModel) : m.parameterNames.Nodup :=
  m.perm_parameterNames.nodup_iff.2 m.nodup_names

/-- The sorted names are strictly increasing. -/
theorem sorted_parameterNames (m : CostModel) : m.parameterNames.Pairwise (· < ·) := by
  have hle : m.parameterNames.Pairwise fun a b => (!decide (b < a)) = true := by
    refine List.pairwise_mergeSort ?_ ?_ _
    · intro a b c hab hbc
      simp only [Bool.not_eq_true', decide_eq_false_iff_not, not_lt] at hab hbc ⊢
      exact le_trans hab hbc
    · intro a b
      simp only [Bool.or_eq_true, Bool.not_eq_true', decide_eq_false_iff_not, not_lt]
      exact le_total a b
  refine (hle.and m.nodup_parameterNames).imp ?_
  rintro a b ⟨hab, hne⟩
  simp only [Bool.not_eq_true', decide_eq_false_iff_not, not_lt] at hab
  exact lt_of_le_of_ne hab hne

/-- There is no other way to arrange the names. -/
theorem parameterNames_eq_of_perm {l : List String} (hperm : m.names.Perm l)
    (hsorted : l.Pairwise (· < ·)) : m.parameterNames = l :=
  (m.perm_parameterNames.trans hperm).eq_of_pairwise
    (fun _ _ _ _ hab hba => absurd hba (lt_asymm hab)) m.sorted_parameterNames hsorted

theorem SameShapes.parameterNames_eq (h : m.SameShapes m') :
    m.parameterNames = m'.parameterNames := by
  have hnames := h.names_eq
  unfold names at hnames
  rw [parameterNames, hnames, parameterNames]

/-! ### Values by position -/

/-- The overrides that give values to the first of the sorted names. -/
def positional (m : CostModel) (values : List Amount) : Overrides :=
  .ofList (m.parameterNames.zip values)

theorem get?_ofList {pairs : List (String × Amount)} (h : (pairs.map Prod.fst).Nodup)
    (name : String) : (Overrides.ofList pairs).get? name = pairs.lookup name := by
  -- the pairs still to come are placed over those that are there
  have hfold : ∀ out : List (String × Amount),
      (pairs.foldl (fun out p => Overrides.place p.1 p.2 out) out).lookup name =
        (pairs.lookup name).or (out.lookup name) := by
    induction pairs with
    | nil => exact fun _ => rfl
    | cons p pairs ih =>
      intro out
      rw [List.map_cons, List.nodup_cons] at h
      rw [List.foldl_cons, ih h.2]
      by_cases hname : name = p.1
      · have hnone : pairs.lookup p.1 = none := by
          refine List.lookup_eq_none_iff.2 fun q hq => bne_iff_ne.2 fun heq => h.1 ?_
          exact heq ▸ List.mem_map_of_mem hq
        rw [hname, hnone, Overrides.lookup_place_self, List.lookup_cons_self]
        rfl
      · rw [Overrides.lookup_place_of_ne hname, Overrides.lookup_cons_of_ne hname]
  have h' := hfold []
  rwa [List.lookup_nil, Option.or_none] at h'

theorem nodup_zip (m : CostModel) (values : List Amount) :
    ((m.parameterNames.zip values).map Prod.fst).Nodup := by
  rw [List.zip_eq_zip_take_min, List.map_fst_zip (by simp)]
  exact m.nodup_parameterNames.sublist (List.take_sublist _ _)

/-- A value is for the name at its position. -/
theorem get?_positional {values : List Amount} {i : Nat} {v : Amount}
    (hname : m.parameterNames[i]? = some name) (hv : values[i]? = some v) :
    (m.positional values).get? name = some v := by
  rw [positional, get?_ofList (m.nodup_zip values)]
  have hmem : (name, v) ∈ m.parameterNames.zip values :=
    List.mem_of_getElem? (List.getElem?_zip_eq_some.2 ⟨hname, hv⟩)
  exact lookup_of_mem (m.nodup_zip values) hmem

theorem get?_positional_eq_none {values : List Amount}
    (h : name ∉ m.parameterNames.take values.length) : (m.positional values).get? name = none := by
  rw [positional, get?_ofList (m.nodup_zip values)]
  refine List.lookup_eq_none_iff.2 fun p hp => bne_iff_ne.2 ?_
  rintro rfl
  obtain ⟨i, hi⟩ := List.mem_iff_getElem?.1 hp
  obtain ⟨hname, hv⟩ := List.getElem?_zip_eq_some.1 hi
  obtain ⟨hlt, -⟩ := List.getElem?_eq_some_iff.1 hv
  exact h (List.mem_of_getElem? (List.getElem?_take_of_lt hlt ▸ hname))

theorem mem_names_of_positional {values : List Amount} (h : name ∈ (m.positional values).names) :
    name ∈ m.names := by
  rw [← m.perm_parameterNames.mem_iff]
  by_contra hnot
  have hnone : (m.positional values).get? name = none :=
    get?_positional_eq_none fun hmem => hnot (List.mem_of_mem_take hmem)
  rw [Overrides.mem_names_iff, hnone] at h
  cases h

/-- Names of parameters mention no builtin without costs. -/
theorem not_adds_of_known {names : List String} (h : ∀ name ∈ names, name ∈ m.names) (f : Builtin) :
    ¬ m.Adds names f := by
  rintro ⟨huncosted, -, name, hname, howner⟩
  exact builtinCost?_of_mem_names (h name hname) howner huncosted

theorem extendedBy_of_known {names : List String} (h : ∀ name ∈ names, name ∈ m.names) :
    m.extendedBy names = m :=
  eq_of_builtinCost? (by rw [extendedBy]) (by rw [extendedBy])
    fun f => builtinCost?_of_not_adds (not_adds_of_known h f)

theorem accepts_positional (m : CostModel) (values : List Amount) :
    m.Accepts (m.positional values) where
  known name hname := by
    rw [extendedBy_of_known fun _ => mem_names_of_positional]
    exact mem_names_of_positional hname
  complete f hadds := absurd hadds (not_adds_of_known (fun _ => mem_names_of_positional) f)

/-- The model with the first of its parameters set. -/
abbrev reassigned (m : CostModel) (values : List Amount) : CostModel :=
  m.assign (m.positional values).assignment

theorem overridden_positional (m : CostModel) (values : List Amount) :
    m.overridden (m.positional values) = m.reassigned values := by
  rw [overridden, extendedBy_of_known fun _ => mem_names_of_positional]

/-- With enough names there is nothing to fail. -/
theorem applyOrdered_of_le {values : List Amount}
    (h : values.length ≤ m.parameterNames.length) :
    m.applyOrdered values = .ok (m.reassigned values) := by
  have hnamed : m.applyNamed (m.positional values) = .ok (m.reassigned values) :=
    applyNamed_eq_ok_iff.2 ⟨m.accepts_positional values, (m.overridden_positional values).symm⟩
  rw [applyOrdered, Update.result_eq_ok_iff, overrideOrdered_of_le h]
  exact Update.result_eq_ok_iff.1 hnamed

theorem applyOrdered_of_lt {values : List Amount}
    (h : m.parameterNames.length < values.length) :
    m.applyOrdered values = .error (.tooMany m.parameterNames.length values.length) :=
  Update.result_of_error (overrideOrdered_of_lt h)

theorem parameter?_reassigned (m : CostModel) (values : List Amount) (name : String) :
    (m.reassigned values).parameter? name =
      ((m.positional values).get? name).or (m.parameter? name) := by
  rw [← overridden_positional, parameter?_overridden (m.accepts_positional values)]

theorem parameterNames_reassigned (m : CostModel) (values : List Amount) :
    (m.reassigned values).parameterNames = m.parameterNames :=
  (sameShapes_assign _ m).parameterNames_eq

/-! ### What overriding by position does -/

/-- The values of the parameters, in the order of the sorted names. -/
def parameterValues (m : CostModel) : List Amount := m.parameterNames.filterMap m.parameter?

theorem exists_parameter? (h : name ∈ m.parameterNames) : ∃ v, m.parameter? name = some v :=
  Option.isSome_iff_exists.1 (isSome_parameter? (m.perm_parameterNames.mem_iff.1 h))

theorem parameterValues_eq (m : CostModel) :
    m.parameterValues = m.parameterNames.map fun name => (m.parameter? name).getD 0 := by
  rw [parameterValues, ← List.filterMap_eq_map]
  refine List.filterMap_congr fun name hname => ?_
  obtain ⟨v, hv⟩ := exists_parameter? hname
  rw [hv, Function.comp, hv, Option.getD_some]

/-- A model's own values change nothing. -/
theorem reassigned_parameterValues (m : CostModel) : m.reassigned m.parameterValues = m := by
  refine eq_of_parameters (sameShapes_assign _ m) fun name => ?_
  rw [parameter?_reassigned]
  by_cases hname : name ∈ m.parameterNames
  · obtain ⟨i, hi⟩ := List.mem_iff_getElem?.1 hname
    obtain ⟨v, hv⟩ := exists_parameter? hname
    have hvalue : m.parameterValues[i]? = some v := by
      rw [parameterValues_eq, List.getElem?_map, hi, Option.map_some, hv, Option.getD_some]
    rw [get?_positional hi hvalue, hv, Option.some_or]
  · have hnone : (m.positional m.parameterValues).get? name = none :=
      get?_positional_eq_none fun hmem => hname (List.mem_of_mem_take hmem)
    rw [hnone, Option.none_or]

/-- A value for each position leaves nothing but the shapes. -/
theorem SameShapes.reassigned_eq (h : m.SameShapes m') {values : List Amount}
    (hlength : values.length = m.parameterNames.length) :
    m.reassigned values = m'.reassigned values := by
  have hnames := h.parameterNames_eq
  have hpositional : m.positional values = m'.positional values := by
    rw [positional, hnames, positional]
  have hshapes : (m.reassigned values).SameShapes (m'.reassigned values) := fun f => by
    rw [sameShapes_assign _ m f, sameShapes_assign _ m' f, h f]
  refine eq_of_parameters hshapes fun name => ?_
  rw [parameter?_reassigned, parameter?_reassigned, ← hpositional]
  by_cases hname : name ∈ m.parameterNames
  · obtain ⟨i, hi⟩ := List.mem_iff_getElem?.1 hname
    obtain ⟨hlt, -⟩ := List.getElem?_eq_some_iff.1 hi
    have hv : values[i]? = some values[i] := List.getElem?_eq_getElem (by omega)
    rw [get?_positional hi hv, Option.some_or, Option.some_or]
  · have hnone : name ∉ m.names := fun hmem => hname (m.perm_parameterNames.mem_iff.2 hmem)
    rw [parameter?_eq_none hnone, parameter?_eq_none (h.names_eq ▸ hnone)]

/-- **Overriding by position sets the first parameters in the order of their names**, for any model.
The sorted names are strictly increasing and are the names of all parameters.  There can only be
more values than names, and then the model stays.  Else the parameter with the name at a position
reads as the value at that position, all other parameters read as before, and the sorted names are
the same as before.  A model's own values, read in the order of the names, give the model itself,
and a value for each name gives the same model from any two whose costs have the same shapes. -/
theorem applyOrdered_exact (m : CostModel) (values : List Amount) :
    (m.parameterNames.Pairwise (· < ·) ∧ m.parameterNames.Perm m.names) ∧
    ((∃ e, m.applyOrdered values = .error e) ↔ m.parameterNames.length < values.length) ∧
    (∀ e, m.applyOrdered values = .error e →
      e = .tooMany m.parameterNames.length values.length ∧
        (overrideOrdered values).apply m = (.error e, m)) ∧
    (∀ m', m.applyOrdered values = .ok m' →
      (overrideOrdered values).apply m = (.ok (), m') ∧
      (∀ (i : Nat) name v, m.parameterNames[i]? = some name → values[i]? = some v →
        m'.parameter? name = some v) ∧
      (∀ name, name ∉ m.parameterNames.take values.length →
        m'.parameter? name = m.parameter? name) ∧
      m'.parameterNames = m.parameterNames) ∧
    m.applyOrdered m.parameterValues = .ok m ∧
    ∀ m', m.SameShapes m' → values.length = m.parameterNames.length →
      ∃ out, m.applyOrdered values = .ok out ∧ m'.applyOrdered values = .ok out := by
  refine ⟨⟨m.sorted_parameterNames, m.perm_parameterNames⟩, ?_, ?_, ?_, ?_, ?_⟩
  · rcases Nat.lt_or_ge m.parameterNames.length values.length with h | h
    · exact iff_of_true ⟨_, applyOrdered_of_lt h⟩ h
    · rw [applyOrdered_of_le h]
      exact iff_of_false (fun ⟨e, he⟩ => by cases he) (Nat.not_lt.2 h)
  · intro e he
    rcases Nat.lt_or_ge m.parameterNames.length values.length with h | h
    · rw [applyOrdered_of_lt h] at he
      cases he
      exact ⟨rfl, overrideOrdered_of_lt h⟩
    · rw [applyOrdered_of_le h] at he
      cases he
  · intro m' hm'
    have hle : values.length ≤ m.parameterNames.length := by
      by_contra hlt
      rw [applyOrdered_of_lt (Nat.not_le.1 hlt)] at hm'
      cases hm'
    have happly := Update.result_eq_ok_iff.1 hm'
    rw [applyOrdered_of_le hle] at hm'
    cases hm'
    refine ⟨happly, fun i name v hname hv => ?_, fun name hname => ?_,
      m.parameterNames_reassigned values⟩
    · rw [parameter?_reassigned, get?_positional hname hv, Option.some_or]
    · rw [parameter?_reassigned, get?_positional_eq_none hname, Option.none_or]
  · have hlength : m.parameterValues.length = m.parameterNames.length := by
      rw [parameterValues_eq, List.length_map]
    rw [applyOrdered_of_le hlength.le, reassigned_parameterValues]
  · intro m' hshapes hlength
    have hlength' : values.length ≤ m'.parameterNames.length := by
      rw [← hshapes.parameterNames_eq]
      exact hlength.le
    refine ⟨m.reassigned values, applyOrdered_of_le hlength.le, ?_⟩
    rw [applyOrdered_of_le hlength', hshapes.reassigned_eq hlength]

/-- The sorted names of a model without costs for any builtin. -/
def bareNames : List String :=
  ["cekApplyCost", "cekBuiltinCost", "cekCaseCost", "cekConstCost", "cekConstrCost", "cekDelayCost",
    "cekForceCost", "cekLamCost", "cekStartupCost", "cekVarCost"].flatMap fun stem =>
      [stem ++ "-exBudgetCPU", stem ++ "-exBudgetMemory"]

/-- Two values are for the two costs of an application, and twenty leave nothing of the values
before. -/
theorem applyOrdered_exact_bare :
    (∃ m', bare.applyOrdered [5, 6] = .ok m' ∧
      m'.parameter? "cekApplyCost-exBudgetMemory" = some 6 ∧
      m'.parameter? "cekVarCost-exBudgetCPU" = some 0) ∧
    ∃ out, bare.applyOrdered (List.replicate 20 7) = .ok out ∧
      { bare with startup := .max }.applyOrdered (List.replicate 20 7) = .ok out := by
  have hnames : bare.parameterNames = bareNames :=
    parameterNames_eq_of_perm (by decide +kernel) (by decide +kernel)
  have hzero : bare.parameter? "cekVarCost-exBudgetCPU" = some 0 := by decide +kernel
  obtain ⟨-, hfails, -, hok, -⟩ := applyOrdered_exact bare [5, 6]
  obtain ⟨-, -, -, -, -, hfull⟩ := applyOrdered_exact bare (List.replicate 20 7)
  rw [hnames] at hfails hok hfull
  refine ⟨?_, hfull _ (fun _ => rfl) (by decide)⟩
  cases happly : bare.applyOrdered [5, 6] with
  | error e => exact absurd (hfails.1 ⟨e, happly⟩) (by decide)
  | ok m' =>
    obtain ⟨-, hset, hkept, -⟩ := hok m' happly
    refine ⟨m', rfl, hset 1 _ 6 (by decide +kernel) rfl, ?_⟩
    rw [hkept _ (by decide +kernel), hzero]

end CostModel

end PlutusCek
