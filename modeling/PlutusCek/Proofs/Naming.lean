import Mathlib.Data.List.Nodup
import PlutusCek.Cost.Parameters

/-!
# Proofs.Naming — the names of cost parameters

The parameters of a model come in sections: one for the startup cost, one for each kind of step and
one for each builtin.  The stem of a section has no hyphen and all of its names go on with one, so
the part of a name before its first hyphen tells the section (`Section.owner?_of_mem`).  Inside a
cost function a nested function puts a part of its own in front of its names.  Hence no two
parameters of a model have the same name, however deep its functions are nested
(`CostModel.nodup_names`).
-/

namespace PlutusCek

/-! ### Cost functions -/

namespace CostFunction

/-- What the names of the parameters have after the stem. -/
def suffixes : CostFunction → List String
  | .constant _ => [""]
  | .subtractedSizes _ _ => ["-intercept", "-slope", "-minimum"]
  | .linearOnDiagonal _ _ => ["-constant", "-intercept", "-slope"]
  | .constAboveDiagonal _ model => "-constant" :: model.suffixes.map ("-model-arguments" ++ ·)
  | .constBelowDiagonal _ model => "-constant" :: model.suffixes.map ("-model-arguments" ++ ·)
  | .quadraticInY _ => ["-c0", "-c1", "-c2"]
  | .quadraticInZ _ => ["-c0", "-c1", "-c2"]
  | .quadraticInXY _ => ["-minimum", "-c00", "-c10", "-c01", "-c20", "-c11", "-c02"]
  | .linearInYZ _ => ["-intercept", "-slope1", "-slope2"]
  | .power _ => ["-coefficient00", "-coefficient11", "-coefficient12"]
  | _ => ["-intercept", "-slope"]

theorem names_parameters (stem : String) (f : CostFunction) :
    (f.parameters stem).map Prod.fst = f.suffixes.map (stem ++ ·) := by
  induction f generalizing stem with
  | constant c => simp [parameters, suffixes]
  | constAboveDiagonal c model ih | constBelowDiagonal c model ih =>
    rw [parameters, suffixes, List.map_cons, List.map_cons, List.map_map, ih]
    simp only [Function.comp_def, String.append_assoc]
  | _ => rfl

theorem nodup_suffixes (f : CostFunction) : f.suffixes.Nodup := by
  induction f with
  | constAboveDiagonal c model ih | constBelowDiagonal c model ih =>
    have hinj : Function.Injective ("-model-arguments" ++ ·) :=
      fun s t h => (String.append_right_inj "-model-arguments").1 h
    refine List.nodup_cons.2 ⟨fun hmem => ?_, ih.map hinj⟩
    obtain ⟨s, -, hs⟩ := List.mem_map.1 hmem
    have hchars := congrArg String.toList hs
    simp at hchars
  | _ => simp [suffixes]

/-! ### Assigning parameters -/

variable {g h : Assignment}

/-- Assigning keeps the names and changes the values. -/
theorem parameters_assign (g : Assignment) (stem : String) (f : CostFunction) :
    (f.assign g stem).parameters stem = (f.parameters stem).map fun p => (p.1, g p.1 p.2) := by
  induction f generalizing stem with
  | constAboveDiagonal c model ih | constBelowDiagonal c model ih =>
    simp only [assign, parameters, List.map_cons, ih]
  | _ => rfl

/-- Assigning twice. -/
theorem assign_assign (g h : Assignment) (stem : String) (f : CostFunction) :
    (f.assign g stem).assign h stem = f.assign (fun name old => h name (g name old)) stem := by
  induction f generalizing stem with
  | constAboveDiagonal c model ih | constBelowDiagonal c model ih => simp only [assign, ih]
  | _ => rfl

/-- What is assigned to other names does not matter. -/
theorem assign_congr {stem : String} {f : CostFunction}
    (heq : ∀ p ∈ f.parameters stem, g p.1 p.2 = h p.1 p.2) : f.assign g stem = f.assign h stem := by
  induction f generalizing stem with
  | constAboveDiagonal c model ih | constBelowDiagonal c model ih =>
    obtain ⟨hc, hmodel⟩ := List.forall_mem_cons.1 heq
    simp only [assign, ih hmodel, hc]
  | _ =>
    simp only [parameters, linearParameters, List.forall_mem_cons, List.mem_append, or_imp,
      forall_and, List.not_mem_nil, false_imp_iff, implies_true, and_true] at heq
    simp only [assign, assignLinear, assignQuadratic, heq]

/-- The function with all parameters zero. -/
def shape (f : CostFunction) : CostFunction := f.assign (fun _ _ => 0) ""

theorem shape_assign (g : Assignment) (stem : String) (f : CostFunction) :
    (f.assign g stem).shape = f.shape := by
  -- zeros do not depend on the names, so the stems of the nested functions are left open
  have hzero : ∀ s t, (f.assign g stem).assign (fun _ _ => 0) s = f.assign (fun _ _ => 0) t := by
    induction f generalizing stem with
    | constAboveDiagonal c model ih | constBelowDiagonal c model ih =>
      intro s t
      simp only [assign]
      rw [ih]
    | _ => exact fun _ _ => rfl
  exact hzero "" ""

end CostFunction

namespace CostModel

/-! ### Sections -/

/-- The part of a name before its first hyphen, where the hyphen starts the rest. -/
theorem owner?_append {stem rest : String} {cs : List Char} (hstem : '-' ∉ stem.toList)
    (hrest : rest.toList = '-' :: cs) : owner? (stem ++ rest) = some stem := by
  have hhyphen : (stem.toList ++ '-' :: cs).contains '-' = true := by simp
  have htake : (stem.toList ++ '-' :: cs).takeWhile (· != '-') = stem.toList := by
    rw [List.takeWhile_append_of_pos]
    · simp
    · intro c hc
      simp only [bne_iff_ne]
      rintro rfl
      exact hstem hc
  rw [owner?, String.toList_append, hrest, if_pos hhyphen, htake, String.ofList_toList]

/-- What has parameters of its own: the startup, a kind of step or a builtin. -/
inductive Section where
  | startup
  | step (k : StepKind)
  | builtin (f : Builtin)
deriving DecidableEq

namespace Section

/-- Every section, in the order of the parameters. -/
def all : List Section := .startup :: (StepKind.all.map .step ++ Builtin.all.map .builtin)

/-- What the names of the parameters start with. -/
def stem : Section → String
  | .startup => startupStem
  | .step k => k.parameterStem
  | .builtin f => f.name

theorem mem_all (s : Section) : s ∈ all := by
  cases s with
  | startup => exact List.mem_cons_self
  | step k =>
    exact List.mem_cons_of_mem _ (List.mem_append_left _ (List.mem_map_of_mem (StepKind.mem_all k)))
  | builtin f =>
    exact List.mem_cons_of_mem _ (List.mem_append_right _ (List.mem_map_of_mem (Builtin.mem_all f)))

theorem nodup_stems : (all.map stem).Nodup := by decide +kernel

theorem hyphen_not_mem_ofList {cs : List Char} (h : '-' ∉ cs) :
    '-' ∉ (String.ofList cs).toList := by
  rwa [String.toList_ofList]

theorem hyphen_not_mem_stem (s : Section) : '-' ∉ s.stem.toList := by
  cases s with
  | startup => exact hyphen_not_mem_ofList (by decide)
  | step k => cases k <;> exact hyphen_not_mem_ofList (by decide)
  | builtin f => cases f <;> exact hyphen_not_mem_ofList (by decide)

theorem stem_injective {s t : Section} (h : s.stem = t.stem) : s = t :=
  List.inj_on_of_nodup_map nodup_stems (mem_all s) (mem_all t) h

end Section

variable (m : CostModel)

/-- The parameters of a section. -/
def sectionParameters : Section → List (String × Amount)
  | .startup => budgetParameters startupStem m.startup
  | .step k => budgetParameters k.parameterStem (m.stepCost k)
  | .builtin f => m.builtinParameters f

theorem parameters_eq : m.parameters = Section.all.flatMap m.sectionParameters := by
  simp only [parameters, Section.all, List.flatMap_cons, List.flatMap_append, List.flatMap_map,
    List.append_assoc]
  rfl

/-- The names of the parameters. -/
def names : List String := m.parameters.map Prod.fst

/-- What the names of a section have after the stem. -/
def sectionSuffixes : Section → List String
  | .startup => ["-exBudgetCPU", "-exBudgetMemory"]
  | .step _ => ["-exBudgetCPU", "-exBudgetMemory"]
  | .builtin f =>
    match m.builtinCost? f with
    | some c =>
      c.cpu.suffixes.map ("-cpu-arguments" ++ ·) ++ c.mem.suffixes.map ("-memory-arguments" ++ ·)
    | none => []

theorem names_sectionParameters (s : Section) :
    (m.sectionParameters s).map Prod.fst = (m.sectionSuffixes s).map (s.stem ++ ·) := by
  cases s with
  | startup => rfl
  | step k => rfl
  | builtin f =>
    simp only [sectionParameters, builtinParameters, sectionSuffixes]
    cases m.builtinCost? f with
    | none => rfl
    | some c =>
      simp only [List.map_append, CostFunction.names_parameters, List.map_map, Function.comp_def,
        cpuStem, memStem, Section.stem, String.append_assoc]

theorem nodup_sectionSuffixes (s : Section) : (m.sectionSuffixes s).Nodup := by
  cases s with
  | startup => simp [sectionSuffixes]
  | step k => simp [sectionSuffixes]
  | builtin f =>
    simp only [sectionSuffixes]
    cases m.builtinCost? f with
    | none => exact List.nodup_nil
    | some c =>
      refine List.Nodup.append ?_ ?_ ?_
      · exact c.cpu.nodup_suffixes.map fun s t h => (String.append_right_inj _).1 h
      · exact c.mem.nodup_suffixes.map fun s t h => (String.append_right_inj _).1 h
      · intro name hcpu hmem
        obtain ⟨s, -, rfl⟩ := List.mem_map.1 hcpu
        obtain ⟨t, -, ht⟩ := List.mem_map.1 hmem
        have hchars := congrArg String.toList ht
        simp at hchars

/-- The rest of a name after the stem of its section starts with a hyphen. -/
theorem hyphen_of_mem_sectionSuffixes {s : Section} {rest : String}
    (h : rest ∈ m.sectionSuffixes s) : ∃ cs, rest.toList = '-' :: cs := by
  have hbudget : ∀ t ∈ ["-exBudgetCPU", "-exBudgetMemory"], ∃ cs, t.toList = '-' :: cs := by
    simp
  cases s with
  | startup => exact hbudget rest h
  | step k => exact hbudget rest h
  | builtin f =>
    simp only [sectionSuffixes] at h
    split at h
    · rcases List.mem_append.1 h with h | h
      · obtain ⟨t, -, rfl⟩ := List.mem_map.1 h
        simp
      · obtain ⟨t, -, rfl⟩ := List.mem_map.1 h
        simp
    · cases h

variable {m}

/-- The name of a parameter tells its section. -/
theorem owner?_of_mem {s : Section} {p : String × Amount} (h : p ∈ m.sectionParameters s) :
    owner? p.1 = some s.stem := by
  have hname : p.1 ∈ (m.sectionSuffixes s).map (s.stem ++ ·) := by
    rw [← names_sectionParameters]
    exact List.mem_map_of_mem h
  obtain ⟨rest, hrest, hp⟩ := List.mem_map.1 hname
  obtain ⟨cs, hcs⟩ := m.hyphen_of_mem_sectionSuffixes hrest
  rw [← hp]
  exact owner?_append s.hyphen_not_mem_stem hcs

variable (m)

/-- **No two parameters of a model have the same name**, whatever its cost functions are. -/
theorem nodup_names : m.names.Nodup := by
  rw [names, parameters_eq, List.map_flatMap, List.nodup_flatMap]
  refine ⟨fun s _ => ?_, ?_⟩
  · rw [names_sectionParameters]
    exact (m.nodup_sectionSuffixes s).map fun s t h => (String.append_right_inj _).1 h
  · refine (List.Nodup.of_map _ Section.nodup_stems).imp fun {s t} hne name hs ht => hne ?_
    obtain ⟨p, hp, rfl⟩ := List.mem_map.1 hs
    obtain ⟨q, hq, hpq⟩ := List.mem_map.1 ht
    have hstem := owner?_of_mem hq
    rw [hpq, owner?_of_mem hp] at hstem
    exact Section.stem_injective (Option.some.inj hstem)

end CostModel

end PlutusCek
