import PlutusCek.Proofs.Balance
import PlutusCek.Proofs.Conformance
import PlutusCek.Proofs.States

/-!
# Proofs.Halting — every evaluation halts

Take a machine on which every step costs at least one unit of some resource and nothing else earns
any.  The credit of an account is what is left of that resource, with room for one batch of steps
that are counted but not charged for yet.  Every step that is charged for lowers the credit, at once
or when its batch is charged (`pay_credit`), and the credit of an account that is not overdrawn is
positive; that bounds the number of such steps (`trail_countP_le`).  Between two of them the frames
get fewer (`rank_lt`), so the run comes to an end.  The default machines are of this kind
(`drains_ofLanguage`), and so every program halts on them, whatever its budget (`run_halts`).
-/

namespace PlutusCek

/-- Every step uses up the resource, and nothing earns any. -/
structure Machine.Drains (m : Machine) (r : Resource) : Prop where
  startup : 0 ≤ m.costs.startup.units r
  step : ∀ k, 1 ≤ (m.costs.stepCost k).units r
  call : ∀ fn args, 0 ≤ (m.price fn args).units r

/-! ### Default costs -/

theorem CostModel.startup_ofLanguage_nonneg (language : Language) (r : Resource) :
    0 ≤ (ofLanguage language).startup.units r := by
  cases language <;> cases r <;> decide

theorem CostModel.one_le_stepCost_ofLanguage (language : Language) (k : StepKind) (r : Resource) :
    1 ≤ ((ofLanguage language).stepCost k).units r := by
  cases language <;> cases k <;> cases r <;> decide

namespace Machine

theorem price_nonneg {m : Machine} {fn : Builtin}
    (h : (m.costs.builtinCost? fn).all BuiltinCost.isNonneg = true) (args : List Value)
    (r : Resource) : 0 ≤ (m.price fn args).units r := by
  have hzero : 0 ≤ Budget.zero.units r := by rw [Budget.units_zero]
  unfold price
  cases hprep : fn.prepare m.semantics args with
  | error f => exact hzero
  | ok call =>
    have hsize := ((fn.contract m.semantics).of_ok hprep).2.size
    cases hcost : m.costs.builtinCost? fn with
    | none => exact hzero
    | some c =>
      rw [hcost] at h
      simp only [Option.all_some, BuiltinCost.isNonneg, Bool.and_eq_true] at h
      cases r with
      | mem => exact CostFunction.cost_nonneg hsize h.1
      | cpu => exact CostFunction.cost_nonneg hsize h.2

/-- The default machines use up both resources. -/
theorem drains_ofLanguage (language : Language) (slippage : Fin 4294967296) (r : Resource) :
    Drains { ofLanguage language with slippage := slippage } r where
  startup := CostModel.startup_ofLanguage_nonneg language r
  step k := CostModel.one_le_stepCost_ofLanguage language k r
  call fn args := price_nonneg (CostModel.isNonneg_ofLanguage language fn) args r

end Machine

/-! ### Credit -/

namespace Account

variable {m : Machine} {r : Resource} {a b : Account}

/-- The account is not overdrawn in the resource, and each pending step will use up some of it. -/
structure Solvent (m : Machine) (r : Resource) (a : Account) : Prop where
  regular : a.Regular m.slippage.val
  covered : (a.pendingTotal : Int) ≤ pendingUnits m.costs a.pending r
  nonneg : 0 ≤ a.remaining.units r

/-- What is left of the resource and of the batch. -/
def credit (m : Machine) (r : Resource) (a : Account) : Int :=
  a.remaining.units r + max (m.slippage.val : Int) 1 - a.pendingTotal

theorem Solvent.credit_pos (ha : a.Solvent m r) : 1 ≤ a.credit m r := by
  have htotal := ha.regular.total
  have hnonneg := ha.nonneg
  unfold credit
  omega

/-- A batch costs at least as many units as it has steps. -/
theorem pendingTotal_le_cost (hm : m.Drains r)
    (hcovered : (a.pendingTotal : Int) ≤ pendingUnits m.costs a.pending r)
    (htotal : a.pendingTotal ≤ maxCount) :
    (a.pendingTotal : Int) ≤ (pendingCost m.costs a.pending).units r := by
  have hcosts : ∀ k, 0 ≤ (m.costs.stepCost k).units r := by
    intro k
    have := hm.step k
    omega
  rw [units_pendingCost hcosts]
  unfold maxCount at htotal
  unfold Amount.greatest
  omega

/-- An account with nothing pending is solvent if it is not overdrawn. -/
theorem solvent_settled (a : Account) {rest : Budget} (hrest : rest.isExhausted = false) :
    ({ a.settle with remaining := rest } : Account).Solvent m r where
  regular :=
    have h := regular_settle m.slippage.val a
    ⟨h.total, h.kind⟩
  covered := by
    show ((0 : Nat) : Int) ≤ pendingUnits m.costs (.uniform 0) r
    rw [pendingUnits_uniform_zero]
    omega
  nonneg := Budget.not_isExhausted_iff.1 hrest r

theorem credit_settled (a : Account) (rest : Budget) :
    ({ a.settle with remaining := rest } : Account).credit m r =
      rest.units r + max (m.slippage.val : Int) 1 :=
  Int.sub_zero _

/-- An account that pays for its batch stays solvent, and no credit is gained. -/
theorem flush_credit (hm : m.Drains r) (hnonneg : 0 ≤ a.remaining.units r)
    (hcovered : (a.pendingTotal : Int) ≤ pendingUnits m.costs a.pending r)
    (htotal : a.pendingTotal ≤ maxCount) (h : a.flush m.costs = .ok b) :
    b.Solvent m r ∧ b.credit m r ≤ a.credit m r := by
  obtain ⟨rfl, hex⟩ := spend_ok h
  have hcost := pendingTotal_le_cost hm hcovered htotal
  have hpaid : 0 ≤ (pendingCost m.costs a.pending).units r := by omega
  have hsub := Budget.units_sub_of_nonneg hnonneg hpaid
  refine ⟨solvent_settled a hex, ?_⟩
  show ({ a.settle with remaining := a.remaining - _ } : Account).credit m r ≤ _
  rw [credit_settled, hsub]
  unfold credit
  omega

end Account

namespace Event

/-- The event counts a step. -/
def isStep (e : Event) : Bool := e.kind?.isSome

theorem countP_ofKind (kind : Option StepKind) :
    (ofKind kind).countP isStep = kind.isSome.toNat := by
  cases kind <;> rfl

end Event

namespace Machine

variable {m : Machine} {r : Resource} {a b : Account}

/-- A step is counted, and the batch is charged for if that completes it. -/
theorem pay_step_credit (hm : m.Drains r) (ha : a.Solvent m r) {k : StepKind}
    (h : m.pay a (.step k) = .ok b) : b.Solvent m r ∧ b.credit m r + 1 ≤ a.credit m r := by
  have hslippage := m.slippage_le
  have hcount := ha.regular.pendingTotal_count hslippage k
  have hcovered : ((a.count k).pendingTotal : Int) ≤
      Account.pendingUnits m.costs (a.count k).pending r := by
    have hunits := Account.pendingUnits_count ha.regular hslippage m.costs k r
    have hstep := hm.step k
    have hold := ha.covered
    omega
  have hcredit : (a.count k).credit m r + 1 = a.credit m r := by
    show a.remaining.units r + _ - ((a.count k).pendingTotal : Int) + 1 = _
    unfold Account.credit
    omega
  by_cases hk : m.slippage.val ≤ (a.count k).pendingTotal
  · simp only [pay, due, carry, if_pos hk] at h
    have hnonneg : 0 ≤ (a.count k).remaining.units r := ha.nonneg
    have hle : (a.count k).pendingTotal ≤ Account.maxCount := Nat.min_le_right _ _
    obtain ⟨hsolvent, hcredit'⟩ := Account.flush_credit hm hnonneg hcovered hle h
    exact ⟨hsolvent, by omega⟩
  · simp only [pay, due, carry, if_neg hk] at h
    cases h
    refine ⟨⟨Account.regular_count ha.regular hslippage hk, hcovered, ha.nonneg⟩, ?_⟩
    omega

/-- **Each step that is paid for lowers the credit**, and no other event raises it. -/
theorem pay_credit (hm : m.Drains r) (ha : a.Solvent m r) {e : Event} (he : e ≠ .start)
    (h : m.pay a e = .ok b) : b.Solvent m r ∧ b.credit m r + e.isStep.toNat ≤ a.credit m r := by
  have htotal := ha.regular.total
  cases e with
  | start => exact absurd rfl he
  | step k => exact pay_step_credit hm ha h
  | call fn args =>
    obtain ⟨rfl, hex⟩ := Account.spend_ok h
    have hcall := hm.call fn args
    have hsub := Budget.units_sub_of_nonneg ha.nonneg hcall
    refine ⟨⟨⟨htotal, ha.regular.kind⟩, ha.covered, Budget.not_isExhausted_iff.1 hex r⟩, ?_⟩
    show (a.remaining - m.price fn args).units r + max (m.slippage.val : Int) 1 -
      (a.pendingTotal : Int) + 0 ≤ a.credit m r
    unfold Account.credit
    omega
  | note s =>
    cases h
    exact ⟨⟨⟨htotal, ha.regular.kind⟩, ha.covered, ha.nonneg⟩, Int.le_of_eq (Int.add_zero _)⟩
  | finish =>
    have hslippage := m.slippage_le
    have hle : a.pendingTotal ≤ Account.maxCount := by
      unfold Account.maxCount at *
      omega
    obtain ⟨hsolvent, hcredit⟩ := Account.flush_credit hm ha.nonneg ha.covered hle h
    refine ⟨hsolvent, ?_⟩
    show b.credit m r + 0 ≤ a.credit m r
    omega

theorem payAll_credit (hm : m.Drains r) (ha : a.Solvent m r) {es : List Event}
    (hstart : Event.start ∉ es) (h : m.payAll a es = .ok b) :
    b.Solvent m r ∧ b.credit m r + es.countP Event.isStep ≤ a.credit m r := by
  induction es generalizing a with
  | nil =>
    cases h
    exact ⟨ha, by simp⟩
  | cons e es ih =>
    obtain ⟨c, hpay, hrest⟩ := payAll_cons_ok h
    have he : e ≠ .start := fun heq => hstart (heq ▸ List.mem_cons_self)
    obtain ⟨hc, hle⟩ := pay_credit hm ha he hpay
    obtain ⟨hb, hle'⟩ := ih hc (fun hmem => hstart (List.mem_cons_of_mem _ hmem)) hrest
    refine ⟨hb, ?_⟩
    rw [List.countP_cons]
    cases hstep : e.isStep with
    | true =>
      rw [hstep, Bool.toNat_true] at hle
      rw [if_pos rfl]
      omega
    | false =>
      rw [hstep, Bool.toNat_false] at hle
      rw [if_neg Bool.false_ne_true]
      omega

end Machine

/-! ### Steps -/

/-- The move computes a term, or leaves at most `n` frames, or is the last one. -/
def Move.Shortens (n : Nat) : Move → Prop
  | .next (.answer _) frames => frames.length ≤ n
  | .call _ _ frames => frames.length ≤ n
  | _ => True

namespace Move

variable {rest : List Frame}

theorem shortens_ofBuiltin {fn : Builtin} {forces count : Nat} {args : List Value} :
    (ofBuiltin fn forces count args rest).Shortens rest.length := by
  unfold ofBuiltin
  split <;> exact Nat.le_refl _

theorem shortens_apply {f a : Value} : (apply f a rest).Shortens rest.length := by
  cases f with
  | builtin fn forces count args =>
    rw [apply_builtin]
    split
    · trivial
    · split
      · trivial
      · exact shortens_ofBuiltin
  | _ => trivial

theorem shortens_force {v : Value} : (force v rest).Shortens rest.length := by
  cases v with
  | builtin fn forces count args =>
    rw [force_builtin]
    split
    · exact shortens_ofBuiltin
    · trivial
  | _ => trivial

theorem shortens_select {env : Env} {terms : List Term} {v : Value} :
    (select env terms v rest).Shortens rest.length := by
  cases v with
  | constr tag fields =>
    simp only [select]
    split
    · trivial
    · split <;> trivial
  | _ => trivial

/-- An answer goes on to compute a term, or takes a frame away. -/
theorem shortens_answer {v : Value} {f : Frame} : (answer v (f :: rest)).Shortens rest.length := by
  cases f with
  | argumentTerm env a => trivial
  | argumentOf g => exact shortens_apply
  | argumentValue a => exact shortens_apply
  | force => exact shortens_force
  | field env tag remaining done =>
    cases remaining with
    | nil => exact Nat.le_refl _
    | cons t ts => trivial
  | branches env terms => exact shortens_select

end Move

namespace RunState

/-- The state computes a term that is charged for. -/
def isCharged (s : RunState) : Bool := s.kind?.isSome

/-- How many answers there can be before the next term is computed. -/
def rank (s : RunState) : Nat :=
  match s.control with
  | .compute _ _ => 0
  | .answer _ => s.frames.length + 1

end RunState

namespace Machine

variable {m : Machine} {r : Resource} {s s' : RunState}

/-- A step that is charged for lowers the credit, and no step raises it. -/
theorem step_credit (hm : m.Drains r) (hs : s.account.Solvent m r) (h : m.step s = .more s') :
    s'.account.Solvent m r ∧
      s'.account.credit m r + s.isCharged.toNat ≤ s.account.credit m r := by
  obtain ⟨-, hpay⟩ := step_going h
  obtain ⟨hs', hle⟩ := payAll_credit hm hs (start_not_mem_advance _ _) hpay
  refine ⟨hs', ?_⟩
  have hevents : (m.advance s.frames s.control).1 =
      Event.ofKind s.kind? ++ (m.carryOut s.kind? s.move).1 := by
    rw [advance_eq]
    rfl
  rw [hevents, List.countP_append, Event.countP_ofKind] at hle
  unfold RunState.isCharged
  omega

/-- Unless it is charged for, a step lowers the rank. -/
theorem rank_lt (h : m.step s = .more s') (hfree : s.isCharged = false) : s'.rank < s.rank := by
  obtain ⟨control, frames, account⟩ := s
  cases control with
  | compute t env =>
    -- only the error term is free, and it stops the run
    cases t with
    | error =>
      rcases step_more h with hnext | ⟨_, _, _, hcall, -, -⟩
      · cases hnext
      · cases hcall
    | _ => cases hfree
  | answer v =>
    cases frames with
    | nil =>
      rcases step_more h with hnext | ⟨_, _, _, hcall, -, -⟩
      · cases hnext
      · cases hcall
    | cons f rest =>
      have hshort : (Move.answer v (f :: rest)).Shortens rest.length := Move.shortens_answer
      obtain ⟨control', frames', account'⟩ := s'
      rcases step_more h with hnext | ⟨fn, args, w, hcall, -, hcontrol⟩
      · have hnext : Move.answer v (f :: rest) = .next control' frames' := hnext
        rw [hnext] at hshort
        cases control' with
        | compute t env => exact Nat.succ_pos _
        | answer w => exact Nat.succ_lt_succ (Nat.lt_succ_of_le hshort)
      · have hcall : Move.answer v (f :: rest) = .call fn args frames' := hcall
        rw [hcall] at hshort
        cases hcontrol
        exact Nat.succ_lt_succ (Nat.lt_succ_of_le hshort)

/-! ### Runs -/

/-- **A run has no more charged steps than credit.** -/
theorem trail_countP_le (hm : m.Drains r) (hs : s.account.Solvent m r) (fuel : Nat) :
    ((m.trail fuel s).countP RunState.isCharged : Int) ≤ s.account.credit m r := by
  induction fuel generalizing s with
  | zero =>
    have hpos := hs.credit_pos
    simp only [trail, List.countP_nil]
    omega
  | succ fuel ih =>
    have hpos := hs.credit_pos
    have hcharge : (if s.isCharged then 1 else 0) = s.isCharged.toNat := by
      cases s.isCharged <;> rfl
    have hle : s.isCharged.toNat ≤ 1 := Bool.toNat_le _
    simp only [trail, List.countP_cons, hcharge]
    cases hstep : m.step s with
    | stop x fs b =>
      simp only [List.countP_nil]
      omega
    | more s' =>
      obtain ⟨hs', hcredit⟩ := step_credit hm hs hstep
      have hrest := ih hs'
      simp only
      omega

/-- **A run halts**: each step lowers the credit, or keeps it and lowers the rank. -/
theorem resume_halts (hm : m.Drains r) (s : RunState) (hs : s.account.Solvent m r) :
    ∃ fuel x b, m.resume fuel s = some (x, b) := by
  cases hstep : m.step s with
  | stop x fs b => exact ⟨1, x, b, by rw [resume_succ, hstep]⟩
  | more s' =>
    obtain ⟨hs', hcredit⟩ := step_credit hm hs hstep
    have hpos := hs'.credit_pos
    obtain ⟨fuel, x, b, hrun⟩ := resume_halts hm s' hs'
    exact ⟨fuel + 1, x, b, by simp only [resume_succ, hstep, hrun]⟩
termination_by ((s.account.credit m r).toNat, s.rank)
decreasing_by
  cases hcharged : s.isCharged with
  | true =>
    rw [hcharged, Bool.toNat_true] at hcredit
    exact Prod.Lex.left _ _ (by omega)
  | false =>
    rw [hcharged, Bool.toNat_false] at hcredit
    exact Prod.Lex.right' _ (by omega) (rank_lt hstep hcharged)

/-- The startup cost leaves no more credit than the budget and one batch. -/
theorem startup_credit (hm : m.Drains r) {a b : Account}
    (h : a.settle.spend m.costs.startup = .ok b) :
    b.Solvent m r ∧
      b.credit m r ≤ max (a.remaining.units r) 0 + max (m.slippage.val : Int) 1 := by
  obtain ⟨rfl, hex⟩ := Account.spend_ok h
  refine ⟨Account.solvent_settled a hex, ?_⟩
  have hstartup := hm.startup
  have hleast : Amount.least ≤ 0 := by decide
  show ({ a.settle with remaining := a.remaining - m.costs.startup } : Account).credit m r ≤ _
  rw [Account.credit_settled, Budget.units_sub]
  omega

theorem states_countP_le (hm : m.Drains r) (fuel : Nat) (t : Term) (a : Account) :
    ((m.states fuel t a).countP RunState.isCharged : Int) ≤
      max (a.remaining.units r) 0 + max (m.slippage.val : Int) 1 := by
  unfold states
  cases hspend : a.settle.spend m.costs.startup with
  | error y =>
    simp only [List.countP_nil]
    omega
  | ok b =>
    obtain ⟨hb, hcredit⟩ := startup_credit hm hspend
    exact Int.le_trans (trail_countP_le hm hb fuel) hcredit

theorem exists_run (hm : m.Drains r) (t : Term) (a : Account) :
    ∃ fuel x b, m.run fuel t a = some (x, b) := by
  simp only [run_eq_resume]
  cases hspend : a.settle.spend m.costs.startup with
  | error y => exact ⟨0, _, _, rfl⟩
  | ok b => exact resume_halts hm _ (startup_credit hm hspend).1

/-- **Every evaluation halts.**  The default machine of every language, with any slippage, uses up
both resources.  On a machine that uses up a resource the run of any term, closed or not, ends after
finitely many steps, whatever the budget.  The steps that are charged for are no more than the units
of that resource in the budget and one batch. -/
theorem run_halts :
    (∀ language slippage r, Drains { ofLanguage language with slippage := slippage } r) ∧
    ∀ (m : Machine) (r : Resource), m.Drains r → ∀ (t : Term) (a : Account),
      (∃ fuel x b, m.run fuel t a = some (x, b)) ∧
      ∀ fuel, ((m.states fuel t a).countP RunState.isCharged : Int) ≤
        max (a.remaining.units r) 0 + max (m.slippage.val : Int) 1 := by
  refine ⟨drains_ofLanguage, fun m r hm t a => ⟨exists_run hm t a, fun fuel => ?_⟩⟩
  exact states_countP_le hm fuel t a

/-- A program that applies itself to itself for ever. -/
def loop : Term :=
  .apply (.lambda (.apply (.var 1) (.var 1))) (.lambda (.apply (.var 1) (.var 1)))

theorem run_halts_loop : (ofLanguage .v3).Drains .cpu ∧
    ∃ fuel x b, (ofLanguage .v3).run fuel loop (.ofBudget .max) = some (x, b) := by
  have hm : (ofLanguage .v3).Drains .cpu := run_halts.1 .v3 defaultSlippage .cpu
  exact ⟨hm, (run_halts.2 _ _ hm loop (.ofBudget .max)).1⟩

end Machine

end PlutusCek
