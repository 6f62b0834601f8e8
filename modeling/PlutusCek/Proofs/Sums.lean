import PlutusCek.Proofs.Accounting
import PlutusCek.Proofs.Heredity
import PlutusCek.Proofs.Lockstep

/-!
# Proofs.Sums — programs without constructors and cases

Visiting the parts of a term one after the other finds a constructor or a case exactly if one occurs
by recursion over the term (`Term.usesSums_eq`).  A term without any evaluates without any: no state
of its run holds a constructor, puts one together or selects a branch (`RunState.SumFree`), and the
term it returns has none either.  Such a run counts no step of those two kinds, so it does not
matter what they cost (`Machine.run_sumFree`).
-/

namespace PlutusCek

/-- The frame waits for a field of a constructor, or for what selects a branch. -/
def Frame.isSum : Frame → Bool
  | .field _ _ _ _ => true
  | .branches _ _ => true
  | _ => false

/-- The kind of a step that computes a constructor or a case. -/
def StepKind.isSum : StepKind → Bool
  | .constr => true
  | .case => true
  | _ => false

/-- The failure of selecting a branch. -/
def Failure.isSelection : Failure → Bool
  | .missingBranch _ _ => true
  | .tagTooLarge _ => true
  | .notConstr _ => true
  | _ => false

namespace Term

/-- A constructor or a case occurs in the term, by recursion over it. -/
def hasSums : Term → Bool
  | .var _ => false
  | .lambda body => body.hasSums
  | .apply f a => f.hasSums || a.hasSums
  | .delay body => body.hasSums
  | .force body => body.hasSums
  | .constant _ => false
  | .error => false
  | .builtin _ => false
  | .constr _ _ => true
  | .case _ _ => true

/-- The visit finds what occurs in one of the terms still to visit. -/
theorem anyUsesSums_eq (pending : List Term) : anyUsesSums pending = pending.any hasSums := by
  fun_induction anyUsesSums pending with
  | case1 => rfl
  | case2 => rfl
  | case3 => rfl
  | case4 pending body ih => exact ih
  | case5 pending body ih => exact ih
  | case6 pending body ih => exact ih
  | case7 pending f a ih =>
    rw [ih, List.any_cons, List.any_cons, List.any_cons, hasSums, ← Bool.or_assoc,
      Bool.or_comm a.hasSums]
  | case8 pending i ih => exact ih
  | case9 pending c ih => exact ih
  | case10 pending ih => exact ih
  | case11 pending fn ih => exact ih

theorem usesSums_eq (t : Term) : t.usesSums = t.hasSums := by
  rw [usesSums, anyUsesSums_eq, List.any_cons, List.any_nil, Bool.or_false]

end Term

/-- The shape of the values of programs without constructors and cases. -/
def Shape.sumFree : Shape where
  constant _ := True
  body _ t := t.hasSums = false
  builtin _ _ _ _ := True
  constr := False

theorem Shape.hereditary_sumFree : Shape.sumFree.Hereditary where
  lambda h := h
  apply h := Bool.or_eq_false_iff.1 h
  delay h := h
  force h := h
  constant _ := trivial
  fields h := by cases h
  branches h := by cases h
  constructs h := by cases h
  builtin _ := trivial
  forced _ _ := trivial
  applied _ _ _ := trivial
  reply _ _ := trivial

/-- No constructor, and no term with a constructor or a case, is in the state, and no frame waits
for a field or selects a branch. -/
structure RunState.SumFree (s : RunState) : Prop extends RunState.Meets .sumFree s where
  waits : ∀ f ∈ s.frames, f.isSum = false

/-! ### Terms -/

/-- Putting terms without sums for variables keeps a term without sums. -/
theorem Term.hasSums_substitute {replace : Nat → Option Term}
    (hreplace : ∀ i u, replace i = some u → u.hasSums = false) {t : Term}
    (ht : t.hasSums = false) (d : Nat) : (t.substitute replace d).hasSums = false := by
  induction t using Term.ind generalizing d with
  | var i =>
    simp only [substitute]
    split
    · rfl
    · cases h : replace (i - d - 1) with
      | some u => exact hreplace _ u h
      | none => rfl
  | lambda body ih => exact ih ht (d + 1)
  | apply f a ihf iha =>
    obtain ⟨hf, ha⟩ := Bool.or_eq_false_iff.1 ht
    exact Bool.or_eq_false_iff.2 ⟨ihf hf d, iha ha d⟩
  | delay body ih => exact ih ht d
  | force body ih => exact ih ht d
  | constant c => rfl
  | error => rfl
  | builtin fn => rfl
  | constr tag fields _ => cases ht
  | case s branches _ _ => cases ht

/-- The term of a value without sums has none. -/
theorem Value.hasSums_toTerm {v : Value} (h : v.Meets .sumFree) : v.toTerm.hasSums = false := by
  refine h.toTerm (P := fun t => t.hasSums = false) (fun c _ => rfl)
    (fun body env hbody henv => ?_) (fun body env hbody henv => ?_) (fun fn => rfl)
    (fun t ht => ht) (fun f a hf ha => Bool.or_eq_false_iff.2 ⟨hf, ha⟩)
    (fun tag fields hconstr _ => ?_)
  · exact Term.hasSums_substitute (forall_resolve henv) hbody 0
  · exact Term.hasSums_substitute (forall_resolve henv) hbody 1
  · exact False.elim hconstr

/-! ### Frames -/

namespace Move

/-- The frames a move goes on with. -/
def frames : Move → List Frame
  | .next _ fs => fs
  | .call _ _ fs => fs
  | .halt _ => []
  | .stuck _ => []

variable {rest : List Frame} {f : Frame}

theorem frames_ofBuiltin (fn : Builtin) (forces count : Nat) (args : List Value) :
    (ofBuiltin fn forces count args rest).frames = rest := by
  unfold ofBuiltin
  split <;> rfl

/-- An application adds no frame. -/
theorem mem_frames_apply {g a : Value} (h : f ∈ (apply g a rest).frames) : f ∈ rest := by
  cases g with
  | lambda body env => exact h
  | builtin fn forces count args =>
    rw [apply_builtin] at h
    split at h
    · cases h
    · split at h
      · cases h
      · rwa [frames_ofBuiltin] at h
  | _ => cases h

/-- Nor does a force. -/
theorem mem_frames_force {v : Value} (h : f ∈ (force v rest).frames) : f ∈ rest := by
  cases v with
  | delay body env => exact h
  | builtin fn forces count args =>
    rw [force_builtin] at h
    split at h
    · rwa [frames_ofBuiltin] at h
    · cases h
  | _ => cases h

end Move

/-- Only a state that selects a branch fails to. -/
theorem RunState.Stuck.selects {s : RunState} {f : Failure} (h : s.Stuck f)
    (hf : f.isSelection = true) : s.Selects := by
  cases h with
  | tagTooLarge hselects => exact hselects
  | missingBranch hselects => exact hselects
  | notConstr hselects => exact hselects
  | _ => cases hf

/-- A call that fails selects none. -/
theorem Machine.CallFails.isSelection_eq_false {m : Machine} {fn : Builtin} {args : List Value}
    {f : Failure} (h : m.CallFails fn args f) : f.isSelection = false := by
  cases h <;> rfl

namespace RunState.SumFree

variable {s : RunState}

theorem not_selects (hs : s.SumFree) : ¬ s.Selects := by
  rintro ⟨env, terms, rest, hframes⟩
  have hsum := hs.waits (.branches env terms) (hframes ▸ List.mem_cons_self)
  cases hsum

/-- A state without sums hands that on to its move. -/
theorem meets_move (hs : s.SumFree) : s.move.Meets .sumFree := by
  refine hs.toMeets.move_of_fields Shape.hereditary_sumFree fun env tag ts vs hmem => ?_
  have hsum := hs.waits _ hmem
  cases hsum

/-- The frames it goes on with wait for no field and select no branch. -/
theorem waits_move (hs : s.SumFree) : ∀ f ∈ s.move.frames, f.isSum = false := by
  obtain ⟨⟨hcontrol, -⟩, hwaits⟩ := hs
  obtain ⟨control, frames, account⟩ := s
  cases control with
  | compute t env =>
    have ht : t.hasSums = false := hcontrol.1
    cases t with
    | var i =>
      simp only [move, Move.compute]
      cases env.lookup? i with
      | some v => exact hwaits
      | none => exact fun f hf => by cases hf
    | apply g a => exact List.forall_mem_cons.2 ⟨rfl, hwaits⟩
    | force body => exact List.forall_mem_cons.2 ⟨rfl, hwaits⟩
    | error => exact fun f hf => by cases hf
    | constr tag ts => cases ht
    | case u ts => cases ht
    | _ => exact hwaits
  | answer v =>
    cases frames with
    | nil => exact fun f hf => by cases hf
    | cons f rest =>
      obtain ⟨hf, hrest⟩ := List.forall_mem_cons.1 hwaits
      cases f with
      | argumentTerm env a => exact List.forall_mem_cons.2 ⟨rfl, hrest⟩
      | argumentOf g => exact fun f hf => hrest f (Move.mem_frames_apply hf)
      | argumentValue a => exact fun f hf => hrest f (Move.mem_frames_apply hf)
      | force => exact fun f hf => hrest f (Move.mem_frames_force hf)
      | field env tag ts vs => cases hf
      | branches env terms => cases hf

/-- It computes no constructor and no case. -/
theorem isSum_kind (hs : s.SumFree) {k : StepKind} (hk : s.kind? = some k) : k.isSum = false := by
  obtain ⟨⟨hcontrol, -⟩, -⟩ := hs
  obtain ⟨control, frames, account⟩ := s
  cases control with
  | compute t env =>
    have ht : t.hasSums = false := hcontrol.1
    cases t with
    | constr tag ts => cases ht
    | case u ts => cases ht
    | _ => cases hk <;> rfl
  | answer v => cases hk

end RunState.SumFree

namespace Machine

variable {m : Machine} {s s' : RunState} {t : Term} {a b : Account} {fuel : Nat}

/-- One step keeps a state without sums. -/
theorem sumFree_step (hs : s.SumFree) (h : m.step s = .more s') : s'.SumFree where
  toMeets := meets_step_of_move Shape.hereditary_sumFree hs.meets_move h
  waits := by
    have hwaits := hs.waits_move
    rcases step_more h with hnext | ⟨fn, args, v, hcall, -, -⟩
    · rw [hnext] at hwaits
      exact hwaits
    · rw [hcall] at hwaits
      exact hwaits

theorem sumFree_start (ht : t.hasSums = false) (b : Account) :
    (⟨.compute t [], [], b⟩ : RunState).SumFree where
  control := ⟨ht, trivial⟩
  frames _ hf := by cases hf
  waits _ hf := by cases hf

/-- No state of the run of a term without sums has any. -/
theorem sumFree_states (ht : t.hasSums = false) : ∀ s ∈ m.states fuel t a, s.SumFree :=
  states_induction (sumFree_start ht) sumFree_step

/-- A failure of such a run is not one of selecting a branch. -/
theorem run_error_sumFree (ht : t.hasSums = false) {e : MachineError}
    (h : m.run fuel t a = some (.error e, b)) : e.cause.isSelection = false := by
  rcases run_error_cases h with ⟨rest, hrest⟩ | ⟨s, hmem, hstuck | ⟨fn, args, frames, -, hperf⟩⟩
  · rw [hrest]
    rfl
  · by_contra hselection
    have hselects : s.Selects :=
      (RunState.stuck hstuck).selects (Bool.eq_true_of_not_eq_false hselection)
    exact (sumFree_states ht s hmem).not_selects hselects
  · exact (perform_error hperf).isSelection_eq_false

theorem run_ok_sumFree (ht : t.hasSums = false) {r : Term}
    (h : m.run fuel t a = some (.ok r, b)) : r.hasSums = false := by
  obtain ⟨s, hmem, v, hhalt, rfl⟩ := run_ok_cases h
  have hmove := (sumFree_states ht s hmem).meets_move
  rw [hhalt] at hmove
  exact Value.hasSums_toTerm hmove

end Machine

/-! ### Costs of steps that are not taken -/

theorem Budget.occurrences_zero (b : Budget) : b.occurrences 0 = .zero := by
  have hzero : ∀ x : Amount, x * Amount.clamp 0 = 0 := by
    intro x
    refine Amount.ext ?_
    rw [Amount.toInt_mul]
    show Max.max Amount.least (min (x.toInt * 0) Amount.greatest) = 0
    rw [Int.mul_zero]
    decide
  unfold occurrences scale zero
  rw [Int.natCast_zero, hzero, hzero]

namespace Account

/-- No step that computes a constructor or a case is pending. -/
def SumFree (a : Account) : Prop := ∀ k, k.isSum = true → a.pending.get k = 0

theorem sumFree_settle (a : Account) : a.settle.SumFree := fun k _ => PerStep.get_uniform 0 k

variable {a : Account}

theorem SumFree.count (ha : a.SumFree) {k : StepKind} (hk : k.isSum = false) :
    (a.count k).SumFree := by
  intro j hj
  have hne : k ≠ j := by
    rintro rfl
    rw [hk] at hj
    cases hj
  show (a.pending.modify k _).get j = 0
  rw [PerStep.get_modify_ne _ _ hne]
  exact ha j hj

/-- The cost of pending steps does not depend on the cost of kinds that are not among them. -/
theorem pendingCost_congr {costs costs' : CostModel} {pending : PerStep Nat}
    (h : ∀ k, costs'.stepCost k = costs.stepCost k ∨ pending.get k = 0) :
    pendingCost costs' pending = pendingCost costs pending := by
  have hsame : ∀ k, (costs'.stepCost k).occurrences (pending.get k) =
      (costs.stepCost k).occurrences (pending.get k) := by
    intro k
    rcases h k with hcost | hnone
    · rw [hcost]
    · rw [hnone, Budget.occurrences_zero, Budget.occurrences_zero]
  simp only [pendingCost, hsame]

end Account

namespace Machine

variable {m : Machine} {s s' : RunState} {t : Term} {a b : Account}

/-- The machine with other costs for the steps that compute constructors and cases. -/
def withSumCosts (m : Machine) (constr case : Budget) : Machine :=
  { m with costs := (m.costs.setStep .constr constr).setStep .case case }

variable (constr case : Budget)

theorem stepCost_withSumCosts {k : StepKind} (hk : k.isSum = false) :
    (m.withSumCosts constr case).costs.stepCost k = m.costs.stepCost k := by
  cases k with
  | constr => cases hk
  | case => cases hk
  | _ => rfl

theorem agrees_withSumCosts (m : Machine) : Agrees (m.withSumCosts constr case) m :=
  ⟨rfl, rfl, rfl, fun _ => rfl⟩

theorem pendingCost_withSumCosts (ha : a.SumFree) :
    Account.pendingCost (m.withSumCosts constr case).costs a.pending =
      Account.pendingCost m.costs a.pending := by
  refine Account.pendingCost_congr fun k => ?_
  cases hk : k.isSum with
  | false => exact .inl (stepCost_withSumCosts constr case hk)
  | true => exact .inr (ha k hk)

/-- What is due at an event of another kind does not depend on them. -/
theorem due_withSumCosts (ha : a.SumFree) {e : Event}
    (he : ∀ k, e.kind? = some k → k.isSum = false) :
    (m.withSumCosts constr case).due a e = m.due a e := by
  cases e with
  | step k =>
    have hcost := pendingCost_withSumCosts (m := m) constr case (ha.count (he k rfl))
    simp only [due, hcost]
    rfl
  | finish =>
    have hcost := pendingCost_withSumCosts (m := m) constr case ha
    simp only [due, hcost]
  | _ => rfl

theorem sumFree_carry (ha : a.SumFree) {e : Event}
    (he : ∀ k, e.kind? = some k → k.isSum = false) : (m.carry a e).SumFree := by
  cases e with
  | step k =>
    simp only [carry]
    split
    · exact Account.sumFree_settle _
    · exact ha.count (he k rfl)
  | start => exact Account.sumFree_settle a
  | finish => exact Account.sumFree_settle a
  | _ => exact ha

theorem sumFree_pay (ha : a.SumFree) {e : Event} (he : ∀ k, e.kind? = some k → k.isSum = false)
    (h : m.pay a e = .ok b) : b.SumFree := by
  rcases pay_ok h with ⟨-, rfl⟩ | ⟨cost, -, rfl, -⟩
  · exact sumFree_carry ha he
  · exact sumFree_carry (m := m) ha he

variable {es : List Event} (hes : ∀ e ∈ es, ∀ k, e.kind? = some k → k.isSum = false)
include hes

theorem sumFree_payAll (ha : a.SumFree) (h : m.payAll a es = .ok b) : b.SumFree := by
  induction es generalizing a with
  | nil =>
    cases h
    exact ha
  | cons e es ih =>
    obtain ⟨he, hrest⟩ := List.forall_mem_cons.1 hes
    obtain ⟨c, hpay, h⟩ := payAll_cons_ok h
    exact ih hrest (sumFree_pay ha he hpay) h

/-- Nor does what is paid for a list of them. -/
theorem payAll_withSumCosts (ha : a.SumFree) :
    (m.withSumCosts constr case).payAll a es = m.payAll a es := by
  induction es generalizing a with
  | nil => rfl
  | cons e es ih =>
    obtain ⟨he, hrest⟩ := List.forall_mem_cons.1 hes
    have hpay : (m.withSumCosts constr case).pay a e = m.pay a e := by
      simp only [pay, due_withSumCosts constr case ha he]
      rfl
    simp only [payAll, hpay]
    cases hnext : m.pay a e with
    | error y => rfl
    | ok c => exact ih hrest (sumFree_pay ha he hnext)

omit hes

/-- A state without sums counts no step of those kinds. -/
theorem isSum_events (hs : s.SumFree) {e : Event} (he : e ∈ m.events s) {k : StepKind}
    (hk : e.kind? = some k) : k.isSum = false := by
  have hmem : k ∈ (m.events s).filterMap Event.kind? := List.mem_filterMap.2 ⟨e, he, hk⟩
  rw [kinds_events] at hmem
  exact hs.isSum_kind (Option.mem_toList.1 hmem)

/-- The two machines go through states without sums in lockstep. -/
theorem lockstep_withSumCosts (m : Machine) :
    Lockstep (fun s => s.SumFree ∧ s.account.SumFree) (fun _ => False) m
      (m.withSumCosts constr case) where
  startup := rfl
  fits := by
    rintro s s' ⟨hs, ha⟩ hstep
    refine ⟨sumFree_step hs hstep, ?_⟩
    exact sumFree_payAll (fun e he k hk => isSum_events hs he hk) ha (step_going hstep).2
  step := by
    rintro s ⟨hs, ha⟩
    refine .inl ?_
    have hpay : (m.withSumCosts constr case).payAll s.account (m.events s) =
        m.payAll s.account (m.events s) :=
      payAll_withSumCosts constr case (fun e he k hk => isSum_events hs he hk) ha
    unfold events at hpay
    rw [step_conclude, step_conclude, (agrees_withSumCosts constr case m).advance, hpay]

omit constr case

/-- **Programs without sums evaluate without sums.**  Take a term in which no constructor and no
case occurs, any machine, any account and any number of steps.  No state of the run holds a
constructor, waits for a field of one or selects a branch.  The run does not fail to select a
branch, and the term it returns has no constructor and no case.  Result, budget left and log are the
same whatever the machine charges for the steps that compute constructors and cases. -/
theorem run_sumFree (m : Machine) {t : Term} (ht : t.usesSums = false) (a : Account) (fuel : Nat) :
    (∀ s ∈ m.states fuel t a, s.SumFree) ∧
    (∀ e b, m.run fuel t a = some (.error e, b) →
      (∀ tag n, e.cause ≠ .missingBranch tag n) ∧ (∀ tag, e.cause ≠ .tagTooLarge tag) ∧
        ∀ u, e.cause ≠ .notConstr u) ∧
    (∀ r b, m.run fuel t a = some (.ok r, b) → r.usesSums = false) ∧
    ∀ constr case, (m.withSumCosts constr case).run fuel t a = m.run fuel t a := by
  rw [Term.usesSums_eq] at ht
  refine ⟨sumFree_states ht, fun e b h => ?_, fun r b h => ?_, fun constr case => ?_⟩
  · have hselection := run_error_sumFree ht h
    refine ⟨fun tag n he => ?_, fun tag he => ?_, fun u he => ?_⟩ <;>
    · rw [he] at hselection
      cases hselection
  · rw [Term.usesSums_eq]
    exact run_ok_sumFree ht h
  · have hstart : ∀ b, a.settle.spend m.costs.startup = .ok b →
        (⟨.compute t [], [], b⟩ : RunState).SumFree ∧ b.SumFree := by
      intro b hb
      obtain ⟨rfl, -⟩ := Account.spend_ok hb
      exact ⟨sumFree_start ht _, Account.sumFree_settle a⟩
    rcases (lockstep_withSumCosts constr case m).run hstart fuel with hsame | ⟨_, _, -, hfalse⟩
    · exact hsame
    · exact hfalse.elim

/-- A program that returns a closure which adds a captured number to its argument. -/
def adder : Term :=
  .apply (.lambda (.lambda (.apply (.apply (.builtin .addInteger) (.var 1)) (.var 2))))
    (.constant (.integer 3))

/-- What the program returns. -/
def adderResult : Term :=
  .lambda (.apply (.apply (.builtin .addInteger) (.var 1)) (.constant (.integer 3)))

set_option maxRecDepth 1000 in
theorem run_sumFree_adder : adder.usesSums = false ∧ adderResult.usesSums = false ∧ ∃ b : Account,
    (flat ⟨1, 1⟩ ⟨1, 2⟩ ⟨3, 4⟩).run 40 adder (.ofBudget ⟨100, 100⟩) = some (.ok adderResult, b) ∧
    ((flat ⟨1, 1⟩ ⟨1, 2⟩ ⟨3, 4⟩).withSumCosts ⟨1000, 1000⟩ ⟨-5, 0⟩).run 40 adder
      (.ofBudget ⟨100, 100⟩) = some (.ok adderResult, b) := by
  have hfree : adder.usesSums = false := by
    rw [Term.usesSums_eq]
    rfl
  obtain ⟨b, hrun⟩ : ∃ b, (flat ⟨1, 1⟩ ⟨1, 2⟩ ⟨3, 4⟩).run 40 adder (.ofBudget ⟨100, 100⟩) =
      some (.ok adderResult, b) := ⟨_, rfl⟩
  obtain ⟨-, -, hresult, hcosts⟩ :=
    run_sumFree (flat ⟨1, 1⟩ ⟨1, 2⟩ ⟨3, 4⟩) hfree (.ofBudget ⟨100, 100⟩) 40
  exact ⟨hfree, hresult _ b hrun, b, hrun, (hcosts _ _).trans hrun⟩

end Machine

end PlutusCek
