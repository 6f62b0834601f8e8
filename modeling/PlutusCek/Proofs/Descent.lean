import PlutusCek.Cost.Parameters
import PlutusCek.Proofs.Halting

/-!
# Proofs.Descent — the budget never grows

Overriding parameters with values that are not negative keeps every cost from being negative: a
parameter keeps its value or gets one that is not negative, and a builtin that had no costs gets a
template of zeros first (`CostModel.isNonneg_applyNamed`).  So on a machine whose costs come from
the default ones of a language by overriding, no charge is negative, whatever a builtin is called
on, and neither component of the budget grows from one state of a run to the next
(`Machine.budget_descends`).
-/

namespace PlutusCek

/-- None of the values is negative. -/
def Overrides.IsNonneg (o : Overrides) : Prop := ∀ p ∈ o.entries, 0 ≤ p.2.toInt

/-- No cost of the model can be negative. -/
structure CostModel.IsNonneg (c : CostModel) : Prop where
  startup : ∀ r, 0 ≤ c.startup.units r
  step : ∀ k r, 0 ≤ (c.stepCost k).units r
  builtin : ∀ fn, (c.builtinCost? fn).all BuiltinCost.isNonneg = true

/-- The cost models that come from the default one of a language by overriding parameters, any
number of times, with values that are not negative. -/
inductive CostModel.Overridden (language : Language) : CostModel → Prop
  | default : Overridden language (ofLanguage language)
  | named {c c' : CostModel} {o : Overrides} (hc : Overridden language c) (ho : o.IsNonneg)
    (h : c.applyNamed o = .ok c') : Overridden language c'
  | ordered {c c' : CostModel} {values : List Amount} (hc : Overridden language c)
    (hvalues : ∀ v ∈ values, 0 ≤ v.toInt) (h : c.applyOrdered values = .ok c') :
    Overridden language c'

/-! ### Overrides -/

namespace Overrides

theorem forall_mem_place {P : String × Amount → Prop} {name : String} {v : Amount}
    {l : List (String × Amount)} (hv : P (name, v)) (hl : ∀ p ∈ l, P p) :
    ∀ p ∈ place name v l, P p := by
  induction l with
  | nil => exact List.forall_mem_singleton.2 hv
  | cons q rest ih =>
    obtain ⟨hq, hrest⟩ := List.forall_mem_cons.1 hl
    simp only [place]
    split
    · exact List.forall_mem_cons.2 ⟨hv, hl⟩
    · split
      · exact List.forall_mem_cons.2 ⟨hq, ih hrest⟩
      · exact List.forall_mem_cons.2 ⟨hv, hrest⟩

theorem isNonneg_ofList {pairs : List (String × Amount)} (h : ∀ p ∈ pairs, 0 ≤ p.2.toInt) :
    (ofList pairs).IsNonneg := by
  -- what has been placed so far is not negative
  have hfold : ∀ out : List (String × Amount), (∀ p ∈ out, 0 ≤ p.2.toInt) →
      ∀ p ∈ pairs.foldl (fun out p => place p.1 p.2 out) out, 0 ≤ p.2.toInt := by
    induction pairs with
    | nil => exact fun _ hout => hout
    | cons q rest ih =>
      obtain ⟨hq, hrest⟩ := List.forall_mem_cons.1 h
      exact fun out hout => ih hrest _ (forall_mem_place hq hout)
  exact hfold [] fun p hp => by cases hp

/-- A parameter gets a value that is not negative, or keeps its own. -/
theorem IsNonneg.getD {o : Overrides} (ho : o.IsNonneg) (name : String) {old : Amount}
    (hold : 0 ≤ old.toInt) : 0 ≤ ((o.get? name).getD old).toInt := by
  cases hget : o.get? name with
  | none => exact hold
  | some v =>
    obtain ⟨before, after, hentries, -⟩ := List.lookup_eq_some_iff.1 hget
    refine ho (name, v) ?_
    rw [hentries]
    exact List.mem_append_right _ List.mem_cons_self

end Overrides

/-! ### Assigning parameters -/

section Assign

variable {g : CostFunction.Assignment} (hg : ∀ name v, 0 ≤ v.toInt → 0 ≤ (g name v).toInt)
include hg

theorem CostFunction.isNonneg_assignLinear (stem : String) {l : Linear}
    (h : l.isNonneg = true) : (assignLinear g stem l).isNonneg = true := by
  simp only [Linear.isNonneg, Bool.and_eq_true, decide_eq_true_eq] at h ⊢
  exact ⟨hg _ _ h.1, hg _ _ h.2⟩

theorem CostFunction.isNonneg_assignQuadratic (stem : String) {q : Quadratic}
    (h : q.isNonneg = true) : (assignQuadratic g stem q).isNonneg = true := by
  simp only [Quadratic.isNonneg, Bool.and_eq_true, decide_eq_true_eq] at h ⊢
  exact ⟨⟨hg _ _ h.1.1, hg _ _ h.1.2⟩, hg _ _ h.2⟩

theorem CostFunction.isNonneg_assign (stem : String) {f : CostFunction}
    (h : f.isNonneg = true) : (f.assign g stem).isNonneg = true := by
  have hlinear : ∀ {l : Linear}, l.isNonneg = true → (assignLinear g stem l).isNonneg = true :=
    isNonneg_assignLinear hg stem
  induction f generalizing stem with
  | constant c =>
    simp only [assign, isNonneg, decide_eq_true_eq] at h ⊢
    exact hg _ _ h
  | linearInX l => exact hlinear h
  | linearInY l => exact hlinear h
  | linearInZ l => exact hlinear h
  | linearInU l => exact hlinear h
  | addedSizes l => exact hlinear h
  | subtractedSizes l minimum =>
    simp only [assign, isNonneg, Bool.and_eq_true, decide_eq_true_eq] at h ⊢
    exact ⟨hlinear h.1, hg _ _ h.2⟩
  | multipliedSizes l => exact hlinear h
  | minSize l => exact hlinear h
  | maxSize l => exact hlinear h
  | linearOnDiagonal c l =>
    simp only [assign, isNonneg, Bool.and_eq_true, decide_eq_true_eq] at h ⊢
    exact ⟨hg _ _ h.1, hlinear h.2⟩
  | constAboveDiagonal c model ih =>
    simp only [assign, isNonneg, Bool.and_eq_true, decide_eq_true_eq] at h ⊢
    exact ⟨hg _ _ h.1, ih _ h.2 (isNonneg_assignLinear hg _)⟩
  | constBelowDiagonal c model ih =>
    simp only [assign, isNonneg, Bool.and_eq_true, decide_eq_true_eq] at h ⊢
    exact ⟨hg _ _ h.1, ih _ h.2 (isNonneg_assignLinear hg _)⟩
  | quadraticInY q => exact isNonneg_assignQuadratic hg stem h
  | quadraticInZ q => exact isNonneg_assignQuadratic hg stem h
  | quadraticInXY q =>
    -- a coefficient may be negative, and stay so
    simp only [assign, isNonneg, decide_eq_true_eq] at h ⊢
    exact hg _ _ h
  | linearInYZ l =>
    simp only [assign, isNonneg, Bool.and_eq_true, decide_eq_true_eq] at h ⊢
    exact ⟨⟨hg _ _ h.1.1, hg _ _ h.1.2⟩, hg _ _ h.2⟩
  | linearInMaxYZ l => exact hlinear h
  | literalInYOrLinearInZ l => exact hlinear h
  | power c =>
    simp only [assign, isNonneg, Bool.and_eq_true, decide_eq_true_eq] at h ⊢
    exact ⟨⟨hg _ _ h.1.1, hg _ _ h.1.2⟩, hg _ _ h.2⟩

namespace CostModel

theorem assignBudget_nonneg (stem : String) {b : Budget} (h : ∀ r, 0 ≤ b.units r) (r : Resource) :
    0 ≤ (assignBudget g stem b).units r := by
  cases r with
  | mem => exact hg _ _ (h .mem)
  | cpu => exact hg _ _ (h .cpu)

theorem isNonneg_assign {c : CostModel} (hc : c.IsNonneg) : (c.assign g).IsNonneg where
  startup := assignBudget_nonneg hg _ hc.startup
  step k := by
    have hk : (c.assign g).stepCost k = assignBudget g k.parameterStem (c.stepCost k) :=
      PerStep.get_mapWithKind _ _ _
    rw [hk]
    exact assignBudget_nonneg hg _ (hc.step k)
  builtin fn := by
    have hfn : (c.assign g).builtinCost? fn = (c.builtinCost? fn).map (assignBuiltin g fn) := by
      simp only [assign, builtinCost?, BuiltinTable.get_ofFn]
    have hold := hc.builtin fn
    rw [hfn]
    cases hcost : c.builtinCost? fn with
    | none => rfl
    | some cost =>
      simp only [hcost, Option.all_some, Option.map_some, BuiltinCost.isNonneg,
        Bool.and_eq_true] at hold ⊢
      exact ⟨CostFunction.isNonneg_assign hg _ hold.1, CostFunction.isNonneg_assign hg _ hold.2⟩

end CostModel

end Assign

/-! ### Overriding -/

namespace CostModel

theorem isNonneg_template? (fn : Builtin) :
    (template? fn).all BuiltinCost.isNonneg = true := by
  cases fn <;> decide

theorem IsNonneg.setBuiltin {c : CostModel} (hc : c.IsNonneg) {fn : Builtin} {cost : BuiltinCost}
    (hcost : cost.isNonneg = true) : (c.setBuiltin fn cost).IsNonneg where
  startup := hc.startup
  step := hc.step
  builtin f := by
    by_cases hf : fn = f
    · subst hf
      have hget : (c.setBuiltin fn cost).builtinCost? fn = some cost :=
        BuiltinTable.get_set_self _ _ _
      rw [hget]
      exact hcost
    · have hget : (c.setBuiltin fn cost).builtinCost? f = c.builtinCost? f :=
        BuiltinTable.get_set_ne _ _ hf
      rw [hget]
      exact hc.builtin f

/-- Templates for builtins without costs add no cost that can be negative. -/
theorem isNonneg_instantiate {names : List String} {c c' : CostModel} {added added' : List Builtin}
    (hc : c.IsNonneg) (h : c.instantiate added names = .ok (c', added')) : c'.IsNonneg := by
  induction names generalizing c added with
  | nil =>
    cases h
    exact hc
  | cons name rest ih =>
    simp only [instantiate] at h
    cases howner : owner? name with
    | none =>
      rw [howner] at h
      cases h
    | some stem =>
      simp only [howner] at h
      cases hfn : Builtin.ofName? stem with
      | none =>
        simp only [hfn] at h
        exact ih hc h
      | some fn =>
        simp only [hfn] at h
        cases hcost : c.builtinCost? fn with
        | some cost =>
          simp only [hcost] at h
          exact ih hc h
        | none =>
          simp only [hcost] at h
          cases htemplate : template? fn with
          | none =>
            rw [htemplate] at h
            cases h
          | some cost =>
            simp only [htemplate] at h
            have hnonneg := isNonneg_template? fn
            rw [htemplate] at hnonneg
            exact ih (hc.setBuiltin hnonneg) h

/-- Without the templates nothing is changed. -/
theorem overrideNamed_of_error {c : CostModel} {o : Overrides} {e : ParameterError}
    (hinst : c.instantiate [] o.names = .error e) :
    (overrideNamed o).apply c = (.error e, c) := by
  rw [overrideNamed, Update.apply_get_bind, Update.apply_lift_bind, hinst]

/-- With the templates, the values are put in if no name is unknown and none is missing, and else
nothing is changed. -/
theorem overrideNamed_of_ok {c full : CostModel} {o : Overrides} {added : List Builtin}
    (hinst : c.instantiate [] o.names = .ok (full, added)) :
    let names := full.parameters.map Prod.fst
    let clean := (o.names.find? fun name => !names.contains name) = none ∧
      firstMissing? added o names = none
    clean ∧ (overrideNamed o).apply c =
        (.ok (), full.assign fun name old => (o.get? name).getD old) ∨
      ¬ clean ∧ ∃ e, (overrideNamed o).apply c = (.error e, c) := by
  dsimp only
  rw [overrideNamed, Update.apply_get_bind, Update.apply_lift_bind, hinst]
  dsimp only
  cases hunknown : o.names.find? fun name => !(full.parameters.map Prod.fst).contains name with
  | some name => exact .inr ⟨fun h => (by cases h.1), _, rfl⟩
  | none =>
    cases hmissing : firstMissing? added o (full.parameters.map Prod.fst) with
    | some missing => exact .inr ⟨fun h => (by cases h.2), _, rfl⟩
    | none => exact .inl ⟨⟨rfl, rfl⟩, rfl⟩

/-- What overriding by name comes to: templates for the builtins that are named and have no costs,
and then the values. -/
theorem applyNamed_ok {c c' : CostModel} {o : Overrides} (h : c.applyNamed o = .ok c') :
    ∃ full added, c.instantiate [] o.names = .ok (full, added) ∧
      c' = full.assign fun name old => (o.get? name).getD old := by
  have happly := Update.result_eq_ok_iff.1 h
  cases hinst : c.instantiate [] o.names with
  | error e =>
    rw [overrideNamed_of_error hinst] at happly
    cases happly
  | ok y =>
    obtain ⟨full, added⟩ := y
    rcases overrideNamed_of_ok hinst with ⟨-, hok⟩ | ⟨-, e, herror⟩
    · rw [hok] at happly
      cases happly
      exact ⟨full, added, rfl, rfl⟩
    · rw [herror] at happly
      cases happly

/-- Overrides of known parameters that need no template apply. -/
theorem applyNamed_of_known {c full : CostModel} {o : Overrides}
    (hinst : c.instantiate [] o.names = .ok (full, []))
    (hknown : o.names.all (full.parameters.map Prod.fst).contains = true) :
    c.applyNamed o = .ok (full.assign fun name old => (o.get? name).getD old) := by
  have hfind : (o.names.find? fun name =>
      !(full.parameters.map Prod.fst).contains name) = none := by
    refine List.find?_eq_none.2 fun name hname => ?_
    rw [List.all_eq_true.1 hknown name hname]
    decide
  have hmissing : firstMissing? [] o (full.parameters.map Prod.fst) = none := by
    refine List.findSome?_eq_none_iff.2 fun name _ => ?_
    cases o.get? name with
    | some v => rfl
    | none => cases ownerBuiltin? name <;> rfl
  have hok := (overrideNamed_of_ok hinst).resolve_right fun h => h.1 ⟨hfind, hmissing⟩
  exact Update.result_of_ok hok.2

theorem isNonneg_applyNamed {c c' : CostModel} {o : Overrides} (hc : c.IsNonneg)
    (ho : o.IsNonneg) (h : c.applyNamed o = .ok c') : c'.IsNonneg := by
  obtain ⟨full, added, hinst, rfl⟩ := applyNamed_ok h
  exact isNonneg_assign (fun name _ hv => ho.getD name hv) (isNonneg_instantiate hc hinst)

/-- With more values than names nothing is changed. -/
theorem overrideOrdered_of_lt {c : CostModel} {values : List Amount}
    (h : c.parameterNames.length < values.length) :
    (overrideOrdered values).apply c =
      (.error (.tooMany c.parameterNames.length values.length), c) := by
  rw [overrideOrdered, Update.apply_get_bind]
  dsimp only
  rw [if_pos h, Update.apply_throw]

/-- Otherwise the values are overrides of the first names. -/
theorem overrideOrdered_of_le {c : CostModel} {values : List Amount}
    (h : values.length ≤ c.parameterNames.length) :
    (overrideOrdered values).apply c =
      (overrideNamed (.ofList (c.parameterNames.zip values))).apply c := by
  rw [overrideOrdered, Update.apply_get_bind]
  dsimp only
  rw [if_neg (Nat.not_lt.2 h)]

theorem isNonneg_applyOrdered {c c' : CostModel} {values : List Amount} (hc : c.IsNonneg)
    (hvalues : ∀ v ∈ values, 0 ≤ v.toInt) (h : c.applyOrdered values = .ok c') : c'.IsNonneg := by
  have happly := Update.result_eq_ok_iff.1 h
  rcases Nat.lt_or_ge c.parameterNames.length values.length with hlt | hle
  · rw [overrideOrdered_of_lt hlt] at happly
    cases happly
  · rw [overrideOrdered_of_le hle] at happly
    refine isNonneg_applyNamed hc (Overrides.isNonneg_ofList fun p hp => ?_)
      (Update.result_of_ok happly)
    exact hvalues p.2 (List.of_mem_zip hp).2

theorem Overridden.isNonneg {language : Language} {c : CostModel} (h : Overridden language c) :
    c.IsNonneg := by
  induction h with
  | default =>
    refine ⟨startup_ofLanguage_nonneg language, fun k r => ?_, isNonneg_ofLanguage language⟩
    have hone := one_le_stepCost_ofLanguage language k r
    omega
  | named _ ho happly hc => exact isNonneg_applyNamed hc ho happly
  | ordered _ hvalues happly hc => exact isNonneg_applyOrdered hc hvalues happly

end CostModel

/-! ### Charges -/

theorem Budget.sub_le {a cost : Budget} (h : ∀ r, 0 ≤ cost.units r) : a - cost ≤ a := by
  refine le_iff_units.2 fun r => ?_
  have hcost := h r
  have hleast := a.least_le_units r
  rw [units_sub]
  omega

theorem Budget.le_refl (a : Budget) : a ≤ a := le_iff_units.2 fun _ => Int.le_refl _

theorem Budget.le_trans {a b c : Budget} (hab : a ≤ b) (hbc : b ≤ c) : a ≤ c :=
  le_iff_units.2 fun r => Int.le_trans (le_iff_units.1 hab r) (le_iff_units.1 hbc r)

namespace Machine

variable {m : Machine} {a b : Account}

theorem nonnegCosts_of_costs (h : m.costs.IsNonneg) : m.NonnegCosts :=
  ⟨h.startup, h.step, fun fn args r => price_nonneg (h.builtin fn) args r⟩

section Nonneg

variable (hm : m.NonnegCosts)
include hm

theorem pay_le {e : Event} (h : m.pay a e = .ok b) : b.remaining ≤ a.remaining := by
  rcases pay_ok h with ⟨-, rfl⟩ | ⟨cost, hdue, rfl, -⟩
  · rw [carry_remaining]
    exact Budget.le_refl _
  · exact Budget.sub_le (due_nonneg hm hdue)

theorem pay_error_le {e : Event} {f : Failure} (h : m.pay a e = .error (f, b)) :
    b.remaining ≤ a.remaining := by
  obtain ⟨cost, hdue, rfl, -, -⟩ := pay_error h
  exact Budget.sub_le (due_nonneg hm hdue)

theorem payAll_le {es : List Event} (h : m.payAll a es = .ok b) : b.remaining ≤ a.remaining := by
  induction es generalizing a with
  | nil =>
    cases h
    exact Budget.le_refl _
  | cons e es ih =>
    obtain ⟨c, hpay, hrest⟩ := payAll_cons_ok h
    exact Budget.le_trans (ih hrest) (pay_le hm hpay)

theorem payAll_error_le {es : List Event} {e : MachineError} (h : m.payAll a es = .error (e, b)) :
    b.remaining ≤ a.remaining := by
  obtain ⟨es₁, ev, es₂, c, f, -, hpaid, hlast, -⟩ := payAll_error_split h
  exact Budget.le_trans (pay_error_le hm hlast) (payAll_le hm hpaid)

/-! ### Steps and runs -/

theorem step_more_le {s s' : RunState} (h : m.step s = .more s') :
    s'.account.remaining ≤ s.account.remaining :=
  payAll_le hm (step_going h).2

theorem step_stop_le {s : RunState} {x : Except MachineError Term} {fs : List Frame}
    (h : m.step s = .stop x fs b) : b.remaining ≤ s.account.remaining := by
  rcases step_stopped h with ⟨-, hpay⟩ | ⟨e, -, hpay⟩
  · exact payAll_le hm hpay
  · exact payAll_error_le hm hpay

theorem trail_le (fuel : Nat) (s : RunState) :
    ∀ s' ∈ m.trail fuel s, s'.account.remaining ≤ s.account.remaining := by
  refine trail_induction (fun hs hstep => ?_) (Budget.le_refl _)
  exact Budget.le_trans (step_more_le hm hstep) hs

theorem trail_pairwise (fuel : Nat) (s : RunState) :
    (m.trail fuel s).Pairwise fun s₁ s₂ => s₂.account.remaining ≤ s₁.account.remaining := by
  induction fuel generalizing s with
  | zero => exact .nil
  | succ fuel ih =>
    simp only [trail]
    cases hstep : m.step s with
    | stop x fs b => exact List.pairwise_singleton _ _
    | more s' =>
      refine .cons (fun s'' hmem => ?_) (ih s')
      exact Budget.le_trans (trail_le hm fuel s' s'' hmem) (step_more_le hm hstep)

theorem states_pairwise (t : Term) (a : Account) (fuel : Nat) :
    (m.states fuel t a).Pairwise fun s₁ s₂ => s₂.account.remaining ≤ s₁.account.remaining := by
  unfold states
  cases a.settle.spend m.costs.startup with
  | ok b => exact trail_pairwise hm fuel _
  | error y => exact .nil

theorem run_le {t : Term} {fuel : Nat} {x : Except MachineError Term}
    (h : m.run fuel t a = some (x, b)) : b.remaining ≤ a.remaining := by
  rcases run_cases h with ⟨-, hpay⟩ | ⟨e, -, hpay⟩
  · exact payAll_le hm hpay
  · exact payAll_error_le hm hpay

end Nonneg

/-- **The budget never grows.**  Take a machine of any language, protocol version and slippage whose
costs come from the default ones of some language by any overrides with values that are not
negative.  What a builtin is charged is never negative, whatever it is called on.  No step of a run
adds to either component of the budget left, not even one that fails; the states of a run have less
and less of it, and the run leaves no more than it was given. -/
theorem budget_descends {language : Language} {m : Machine} (hm : m.costs.Overridden language) :
    (∀ fn args, .zero ≤ m.price fn args) ∧
    ∀ (t : Term) (a : Account) (fuel : Nat),
      (∀ s ∈ m.states fuel t a,
        (∀ s', m.step s = .more s' → s'.account.remaining ≤ s.account.remaining) ∧
        ∀ x fs b, m.step s = .stop x fs b → b.remaining ≤ s.account.remaining) ∧
      ((m.states fuel t a).Pairwise fun s₁ s₂ => s₂.account.remaining ≤ s₁.account.remaining) ∧
      ∀ x b, m.run fuel t a = some (x, b) → b.remaining ≤ a.remaining := by
  have hcosts : m.NonnegCosts := nonnegCosts_of_costs hm.isNonneg
  refine ⟨fun fn args => Budget.le_iff_units.2 fun r => ?_, fun t a fuel => ⟨fun s _ => ?_, ?_, ?_⟩⟩
  · rw [Budget.units_zero]
    exact hcosts.call fn args r
  · exact ⟨fun s' => step_more_le hcosts, fun x fs b => step_stop_le hcosts⟩
  · exact states_pairwise hcosts t a fuel
  · exact fun x b => run_le hcosts

/-- Overrides that take the negative coefficient out of the cost of a division. -/
def evenDivision : Overrides :=
  .ofList [("divideInteger-cpu-arguments-model-arguments-c02", 0)]

/-- A program that divides. -/
def division : Term :=
  .apply (.apply (.builtin .divideInteger) (.constant (.integer 7))) (.constant (.integer 2))

theorem budget_descends_division :
    ∃ costs, (CostModel.ofLanguage .v3).applyNamed evenDivision = .ok costs ∧
      costs.Overridden .v3 ∧
      ∃ x b, (new .v2 ⟨10, 0⟩ costs).run 20 division (.ofBudget .max) = some (x, b) ∧
        b.remaining ≤ .max := by
  have howner : CostModel.owner? "divideInteger-cpu-arguments-model-arguments-c02" =
      some "divideInteger" := by decide +kernel
  have hfn : Builtin.ofName? "divideInteger" = some .divideInteger := by decide +kernel
  have hcosted : (CostModel.ofLanguage .v3).builtinCost? .divideInteger =
      some ⟨.subtractedSizes ⟨0, 1⟩ 1, CostModel.divisionV3⟩ := by decide +kernel
  have hinst : (CostModel.ofLanguage .v3).instantiate [] evenDivision.names =
      .ok (CostModel.ofLanguage .v3, []) := by
    show CostModel.instantiate _ _ ["divideInteger-cpu-arguments-model-arguments-c02"] = _
    simp only [CostModel.instantiate, howner, hfn, hcosted]
  have happly := CostModel.applyNamed_of_known hinst (by decide +kernel)
  have hnonneg : evenDivision.IsNonneg := Overrides.isNonneg_ofList (by decide)
  have hover : CostModel.Overridden .v3 _ := .named .default hnonneg happly
  obtain ⟨⟨x, b⟩, hrun⟩ := Option.isSome_iff_exists.1 (show ((new .v2 ⟨10, 0⟩
    ((CostModel.ofLanguage .v3).assign fun name old => (evenDivision.get? name).getD old)).run 20
      division (.ofBudget .max)).isSome = true by decide +kernel)
  obtain ⟨-, hruns⟩ := budget_descends (m := new .v2 ⟨10, 0⟩ _) hover
  obtain ⟨-, -, hle⟩ := hruns division (.ofBudget .max) 20
  exact ⟨_, happly, hover, x, b, hrun, hle x b hrun⟩

end Machine

end PlutusCek
