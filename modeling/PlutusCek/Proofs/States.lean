import PlutusCek.Proofs.Payment

/-!
# Proofs.States — the states a run passes through

A run goes from state to state until a step stops it; `states` lists them in order.  The next move
of a state depends on its control and its frames only (`turn`, and `stuck` for the moves that cannot
go on), and a step either follows that move, calls the builtin it asks for, or stops (`step_more`,
`step_stop`).  So what holds of the first state and is kept by every step holds of all states of a
run (`states_induction_of_start`), and the run returns or fails with what the last of them comes to
(`run_ok_cases`, `run_error_cases`).
-/

namespace PlutusCek

namespace RunState

/-- The next move of a state. -/
def move (s : RunState) : Move :=
  match s.control with
  | .compute t env => Move.compute t env s.frames
  | .answer v => Move.answer v s.frames

/-- The kind of step a state takes, if it is charged for. -/
def kind? (s : RunState) : Option StepKind :=
  match s.control with
  | .compute t _ => StepKind.of? t
  | .answer _ => none

/-- The state is about to apply a function to an argument. -/
def Applies (s : RunState) (function argument : Value) (rest : List Frame) : Prop :=
  s.control = .answer argument ∧ s.frames = .argumentOf function :: rest ∨
    s.control = .answer function ∧ s.frames = .argumentValue argument :: rest

/-- The state is about to select a branch. -/
def Selects (s : RunState) : Prop := ∃ env terms rest, s.frames = .branches env terms :: rest

/-- What a state is about to do, by its move. -/
inductive Turn (s : RunState) : Move → Prop
  | next {control : Control} {frames : List Frame} : Turn s (.next control frames)
  | halt {v : Value} : Turn s (.halt v)
  | error : Turn s (.stuck .explicitError)
  | unbound {i : Nat} {env : Env} (hcontrol : s.control = .compute (.var i) env)
    (hnone : env.lookup? i = none) : Turn s (.stuck (.openTerm i))
  | apply {f a : Value} {rest : List Frame} {move : Move} (happlies : s.Applies f a rest)
    (h : Move.apply f a rest = move) : Turn s move
  | force {v : Value} {rest : List Frame} {move : Move} (hcontrol : s.control = .answer v)
    (h : Move.force v rest = move) : Turn s move
  | select {env : Env} {terms : List Term} {v : Value} {rest : List Frame} {move : Move}
    (hselects : s.Selects) (h : Move.select env terms v rest = move) : Turn s move

theorem turn (s : RunState) : s.Turn s.move := by
  obtain ⟨control, frames, account⟩ := s
  cases control with
  | compute t env =>
    cases t with
    | var i =>
      simp only [move, Move.compute]
      cases hv : env.lookup? i with
      | some v => exact .next
      | none => exact .unbound rfl hv
    | error => exact .error
    | constr tag ts => cases ts <;> exact .next
    | _ => exact .next
  | answer v =>
    cases frames with
    | nil => exact .halt
    | cons f rest =>
      cases f with
      | argumentTerm env a => exact .next
      | argumentOf g => exact .apply (.inl ⟨rfl, rfl⟩) rfl
      | argumentValue a => exact .apply (.inr ⟨rfl, rfl⟩) rfl
      | force => exact .force rfl rfl
      | field env tag remaining done => cases remaining <;> exact .next
      | branches env terms => exact .select ⟨env, terms, rest, rfl⟩ rfl

end RunState

/-! ### Stuck moves -/

namespace Move

variable {frames : List Frame} {f : Failure}

theorem ofBuiltin_ne_stuck {fn : Builtin} {forces count : Nat} {args : List Value} :
    ofBuiltin fn forces count args frames ≠ .stuck f := by
  unfold ofBuiltin
  split <;> simp

theorem apply_stuck {g a : Value} (h : apply g a frames = .stuck f) :
    (∃ fn, f = .forceExpected fn) ∨ f = .notFunction g.toTerm ∧
      ∀ fn forces count args, g = .builtin fn forces count args →
        Value.isSaturated fn forces count = true := by
  cases g with
  | lambda body env => cases h
  | builtin fn forces count args =>
    rw [apply_builtin] at h
    split at h
    · cases h
      exact .inl ⟨fn, rfl⟩
    · split at h
      · rename_i hsat
        cases h
        refine .inr ⟨rfl, fun _ _ _ _ heq => ?_⟩
        cases heq
        exact hsat
      · exact absurd h ofBuiltin_ne_stuck
  | _ =>
    cases h
    exact .inr ⟨rfl, fun _ _ _ _ heq => by cases heq⟩

theorem force_stuck {v : Value} (h : force v frames = .stuck f) :
    (∃ fn, f = .argumentExpected fn) ∨ f = .notForceable v.toTerm := by
  cases v with
  | delay body env => cases h
  | builtin fn forces count args =>
    rw [force_builtin] at h
    split at h
    · exact absurd h ofBuiltin_ne_stuck
    · cases h
      exact .inl ⟨fn, rfl⟩
  | _ =>
    cases h
    exact .inr rfl

theorem select_stuck {env : Env} {terms : List Term} {v : Value}
    (h : select env terms v frames = .stuck f) :
    (∃ tag, f = .tagTooLarge tag) ∨ (∃ tag n, f = .missingBranch tag n) ∨
      f = .notConstr v.toTerm := by
  cases v with
  | constr tag fields =>
    simp only [select] at h
    split at h
    · cases h
      exact .inl ⟨tag, rfl⟩
    · split at h
      · cases h
      · cases h
        exact .inr (.inl ⟨tag, _, rfl⟩)
  | _ =>
    cases h
    exact .inr (.inr rfl)

end Move

namespace RunState

/-- Why a state is stuck.  What is applied and is no function is a builtin only if it has all it
needs. -/
inductive Stuck (s : RunState) : Failure → Prop
  | error : Stuck s .explicitError
  | unbound {i : Nat} {env : Env} (hcontrol : s.control = .compute (.var i) env)
    (hnone : env.lookup? i = none) : Stuck s (.openTerm i)
  | forceExpected (fn : Builtin) : Stuck s (.forceExpected fn)
  | notFunction {f a : Value} {rest : List Frame} {u : Term} (happlies : s.Applies f a rest)
    (hu : u = f.toTerm) (hfull : ∀ fn forces count args, f = .builtin fn forces count args →
      Value.isSaturated fn forces count = true) : Stuck s (.notFunction u)
  | argumentExpected (fn : Builtin) : Stuck s (.argumentExpected fn)
  | notForceable (u : Term) : Stuck s (.notForceable u)
  | tagTooLarge (hselects : s.Selects) (tag : UInt64) : Stuck s (.tagTooLarge tag)
  | missingBranch (hselects : s.Selects) (tag : UInt64) (n : Nat) : Stuck s (.missingBranch tag n)
  | notConstr (hselects : s.Selects) (u : Term) : Stuck s (.notConstr u)

theorem stuck {s : RunState} {f : Failure} (h : s.move = .stuck f) : s.Stuck f := by
  have hturn := s.turn
  rw [h] at hturn
  cases hturn with
  | error => exact .error
  | unbound hcontrol hnone => exact .unbound hcontrol hnone
  | apply happlies h =>
    rcases Move.apply_stuck h with ⟨fn, rfl⟩ | ⟨rfl, hfull⟩
    · exact .forceExpected fn
    · exact .notFunction happlies rfl hfull
  | force _ h =>
    rcases Move.force_stuck h with ⟨fn, rfl⟩ | rfl
    · exact .argumentExpected fn
    · exact .notForceable _
  | select hselects h =>
    rcases Move.select_stuck h with ⟨tag, rfl⟩ | ⟨tag, n, rfl⟩ | rfl
    · exact .tagTooLarge hselects tag
    · exact .missingBranch hselects tag n
    · exact .notConstr hselects _

end RunState

namespace Machine

/-- The states of at most `fuel` steps, in order. -/
def trail (m : Machine) : Nat → RunState → List RunState
  | 0, _ => []
  | fuel + 1, s =>
    s :: match m.step s with
      | .more s => m.trail fuel s
      | .stop _ _ _ => []

/-- The states of a run.  There are none if the startup cost cannot be paid. -/
def states (m : Machine) (fuel : Nat) (t : Term) (a : Account) : List RunState :=
  match a.settle.spend m.costs.startup with
  | .ok a => m.trail fuel ⟨.compute t [], [], a⟩
  | .error _ => []

end Machine

/-- The states of a run in a session. -/
def Session.states (s : Session) (m : Machine) (fuel : Nat) (t : Term) : List RunState :=
  let s := s.clear
  match s.account.spend m.costs.startup with
  | .ok a => m.trail fuel ⟨.compute t [], s.frames, a⟩
  | .error _ => []

/-- A session goes through the states of a run that starts with no frames. -/
theorem Session.states_eq (s : Session) (m : Machine) (fuel : Nat) (t : Term) :
    s.states m fuel t = m.states fuel t s.account := rfl

namespace Machine

variable {m : Machine} {s s' : RunState} {x : Except MachineError Term} {fs : List Frame}
  {a b : Account}

/-! ### One step -/

theorem advance_eq (s : RunState) :
    m.advance s.frames s.control =
      (m.carryOut s.kind? s.move).map (Event.ofKind s.kind? ++ ·) id := by
  unfold RunState.kind? RunState.move
  cases s.control with
  | compute t env => rfl
  | answer v => rfl

theorem step_conclude (m : Machine) (s : RunState) :
    m.step s = conclude s.left (m.payAll s.account (m.advance s.frames s.control).1)
      (m.advance s.frames s.control).2 :=
  step_eq s.account s.control s.frames

/-- A step that goes on has paid for its events. -/
theorem step_going (h : m.step s = .more s') :
    (m.advance s.frames s.control).2 = .going s'.control s'.frames ∧
      m.payAll s.account (m.advance s.frames s.control).1 = .ok s'.account := by
  have hstep := m.step_conclude s
  rw [h] at hstep
  cases hpay : m.payAll s.account (m.advance s.frames s.control).1 with
  | error y =>
    rw [hpay] at hstep
    cases hstep
  | ok c =>
    rw [hpay] at hstep
    cases hadv : (m.advance s.frames s.control).2 with
    | going control frames =>
      rw [hadv] at hstep
      cases hstep
      exact ⟨rfl, rfl⟩
    | ended result =>
      rw [hadv] at hstep
      cases hstep

/-- **Where a step goes on**: to the state its move says, or to the reply of the builtin its move
calls. -/
theorem step_more (h : m.step s = .more s') :
    s.move = .next s'.control s'.frames ∨
      ∃ fn args v, s.move = .call fn args s'.frames ∧ (m.perform fn args).2 = .ok v ∧
        s'.control = .answer v := by
  have hgoing := (step_going h).1
  rw [advance_eq] at hgoing
  cases hmove : s.move with
  | next control frames =>
    rw [hmove] at hgoing
    cases hgoing
    exact .inl rfl
  | call fn args frames =>
    rw [hmove] at hgoing
    rcases hperf : m.perform fn args with ⟨es, r⟩
    simp only [carryOut, hperf] at hgoing
    cases r with
    | ok v =>
      injection hgoing with hcontrol hframes
      exact .inr ⟨fn, args, v, by rw [← hframes], by rw [hperf], hcontrol.symm⟩
    | error f => cases hgoing
  | halt v =>
    rw [hmove] at hgoing
    cases hgoing
  | stuck f =>
    rw [hmove] at hgoing
    cases hgoing

theorem step_more_of_next {control : Control} {frames : List Frame}
    (hmove : s.move = .next control frames) (h : m.step s = .more s') :
    s'.control = control ∧ s'.frames = frames := by
  rcases step_more h with hnext | ⟨_, _, _, hcall, -, -⟩
  · rw [hmove] at hnext
    cases hnext
    exact ⟨rfl, rfl⟩
  · rw [hmove] at hcall
    cases hcall

theorem step_ne_more_of_halt {v : Value} (hmove : s.move = .halt v) : m.step s ≠ .more s' := by
  intro h
  rcases step_more h with hnext | ⟨_, _, _, hcall, -, -⟩
  · rw [hmove] at hnext
    cases hnext
  · rw [hmove] at hcall
    cases hcall

/-- A step that stops has paid for its events, or is overdrawn. -/
theorem step_stopped (h : m.step s = .stop x fs b) :
    ((m.advance s.frames s.control).2 = .ended x ∧
      m.payAll s.account (m.advance s.frames s.control).1 = .ok b) ∨
    ∃ e, x = .error e ∧ m.payAll s.account (m.advance s.frames s.control).1 = .error (e, b) := by
  have hstep := m.step_conclude s
  rw [h] at hstep
  cases hpay : m.payAll s.account (m.advance s.frames s.control).1 with
  | error y =>
    rw [hpay] at hstep
    cases hstep
    exact .inr ⟨y.1, rfl, rfl⟩
  | ok c =>
    rw [hpay] at hstep
    cases hadv : (m.advance s.frames s.control).2 with
    | going control frames =>
      rw [hadv] at hstep
      cases hstep
    | ended result =>
      rw [hadv] at hstep
      cases hstep
      exact .inl ⟨rfl, rfl⟩

/-- A step that stops leaves the frames that were on the stack while it was taken. -/
theorem step_stop_left (h : m.step s = .stop x fs b) : fs = s.left := by
  have hstep := m.step_conclude s
  rw [h] at hstep
  cases hpay : m.payAll s.account (m.advance s.frames s.control).1 with
  | error y =>
    rw [hpay] at hstep
    cases hstep
    rfl
  | ok c =>
    rw [hpay] at hstep
    cases hadv : (m.advance s.frames s.control).2 with
    | going control frames =>
      rw [hadv] at hstep
      cases hstep
    | ended result =>
      rw [hadv] at hstep
      cases hstep
      rfl

/-- How an evaluation ends: it is complete, the move is stuck, or the builtin it calls fails. -/
theorem advance_ended (h : (m.advance s.frames s.control).2 = .ended x) :
    (∃ v, s.move = .halt v ∧ x = .ok v.toTerm) ∨
      (∃ f, s.move = .stuck f ∧ x = .error ⟨f, s.kind?⟩) ∨
      ∃ fn args frames f, s.move = .call fn args frames ∧ (m.perform fn args).2 = .error f ∧
        x = .error ⟨f, s.kind?⟩ := by
  rw [advance_eq] at h
  cases hmove : s.move with
  | next control frames =>
    rw [hmove] at h
    cases h
  | call fn args frames =>
    rw [hmove] at h
    rcases hperf : m.perform fn args with ⟨es, r⟩
    simp only [carryOut, hperf] at h
    cases r with
    | ok v => cases h
    | error f =>
      injection h with hx
      exact .inr (.inr ⟨fn, args, frames, f, rfl, by rw [hperf], hx.symm⟩)
  | halt v =>
    rw [hmove] at h
    injection h with hx
    exact .inl ⟨v, rfl, hx.symm⟩
  | stuck f =>
    rw [hmove] at h
    injection h with hx
    exact .inr (.inl ⟨f, rfl, hx.symm⟩)

/-- **How a step stops**: the budget is overdrawn, the evaluation is complete, the move is stuck, or
the builtin it calls fails. -/
theorem step_stop (h : m.step s = .stop x fs b) :
    Overdrawn x ∨ (∃ v, s.move = .halt v ∧ x = .ok v.toTerm) ∨
      (∃ f step, s.move = .stuck f ∧ x = .error ⟨f, step⟩) ∨
      ∃ fn args frames f step, s.move = .call fn args frames ∧ (m.perform fn args).2 = .error f ∧
        x = .error ⟨f, step⟩ := by
  rcases step_stopped h with ⟨hended, -⟩ | ⟨e, rfl, hpay⟩
  · rcases advance_ended hended with
      hhalt | ⟨f, hstuck, hx⟩ | ⟨fn, args, frames, f, hcall, hfail, hx⟩
    · exact .inr (.inl hhalt)
    · exact .inr (.inr (.inl ⟨f, s.kind?, hstuck, hx⟩))
    · exact .inr (.inr (.inr ⟨fn, args, frames, f, s.kind?, hcall, hfail, hx⟩))
  · exact .inl (overdrawn_of_payAll_error hpay)

/-! ### Whole runs -/

theorem trail_induction {P : RunState → Prop} (hstep : ∀ {s s'}, P s → m.step s = .more s' → P s')
    {fuel : Nat} (hs : P s) : ∀ s' ∈ m.trail fuel s, P s' := by
  induction fuel generalizing s with
  | zero =>
    intro s' hmem
    cases hmem
  | succ fuel ih =>
    intro s' hmem
    rcases List.mem_cons.1 hmem with rfl | hmem
    · exact hs
    · cases hnext : m.step s with
      | more s₁ =>
        rw [hnext] at hmem
        exact ih (hstep hs hnext) s' hmem
      | stop x fs b =>
        rw [hnext] at hmem
        cases hmem

/-- **Invariants.**  What holds of the first state, once the startup cost has been paid, and is kept
by every step holds of every state of a run. -/
theorem states_induction_of_start {P : RunState → Prop} {t : Term}
    (hstart : ∀ b, a.settle.spend m.costs.startup = .ok b → P ⟨.compute t [], [], b⟩)
    (hstep : ∀ {s s'}, P s → m.step s = .more s' → P s') {fuel : Nat} :
    ∀ s ∈ m.states fuel t a, P s := by
  unfold states
  cases hspend : a.settle.spend m.costs.startup with
  | ok b => exact trail_induction hstep (hstart b hspend)
  | error y =>
    intro s hmem
    cases hmem

/-- What holds of the first state whatever is in its account, and is kept by every step, holds of
every state of a run. -/
theorem states_induction {P : RunState → Prop} {t : Term}
    (hstart : ∀ b, P ⟨.compute t [], [], b⟩) (hstep : ∀ {s s'}, P s → m.step s = .more s' → P s')
    {fuel : Nat} : ∀ s ∈ m.states fuel t a, P s :=
  states_induction_of_start (fun b _ => hstart b) hstep

theorem proceed_last {fuel : Nat} (h : m.proceed fuel s = some (x, fs, b)) :
    ∃ s' ∈ m.trail fuel s, m.step s' = .stop x fs b := by
  induction fuel generalizing s with
  | zero => cases h
  | succ fuel ih =>
    rw [proceed] at h
    cases hnext : m.step s with
    | more s₁ =>
      rw [hnext] at h
      obtain ⟨s', hmem, hstop⟩ := ih h
      refine ⟨s', List.mem_cons_of_mem _ ?_, hstop⟩
      rw [hnext]
      exact hmem
    | stop y gs c =>
      rw [hnext] at h
      cases h
      exact ⟨s, List.mem_cons_self, hnext⟩

end Machine

/-- A run of a session stops at the startup cost, or in the last of its states, and leaves the
frames and the account that this state leaves. -/
theorem Session.run_stops {m : Machine} {session session' : Session} {t : Term} {fuel : Nat}
    {x : Except MachineError Term} (h : session.run m fuel t = some (x, session')) :
    (∃ f, session.account.settle.spend m.costs.startup = .error (f, session'.account) ∧
        x = .error ⟨f, none⟩) ∨
      ∃ s ∈ session.states m fuel t, m.step s = .stop x session'.frames session'.account := by
  unfold run at h
  unfold states
  simp only [clear] at h ⊢
  cases hspend : session.account.settle.spend m.costs.startup with
  | ok c =>
    rw [hspend] at h
    obtain ⟨⟨y, fs, b⟩, hproceed, hx⟩ := Option.map_eq_some_iff.1 h
    cases hx
    exact .inr (Machine.proceed_last hproceed)
  | error y =>
    rw [hspend] at h
    cases h
    exact .inl ⟨y.1, rfl, rfl⟩

namespace Machine

variable {m : Machine} {x : Except MachineError Term} {a b : Account}

/-- A run stops at the startup cost, or in the last of its states. -/
theorem run_stops {t : Term} {fuel : Nat} (h : m.run fuel t a = some (x, b)) :
    (∃ f, a.settle.spend m.costs.startup = .error (f, b) ∧ x = .error ⟨f, none⟩) ∨
      ∃ s ∈ m.states fuel t a, ∃ fs, m.step s = .stop x fs b := by
  obtain ⟨⟨y, session'⟩, hrun, hy⟩ := Option.map_eq_some_iff.1 h
  cases hy
  rcases Session.run_stops hrun with hstart | ⟨s, hmem, hstop⟩
  · exact .inl hstart
  · exact .inr ⟨s, hmem, session'.frames, hstop⟩

/-- The result of a run that is not overdrawn is what the last of its states comes to. -/
theorem run_last {t : Term} {fuel : Nat} (h : m.run fuel t a = some (x, b)) :
    Overdrawn x ∨ ∃ s ∈ m.states fuel t a, ∃ fs, m.step s = .stop x fs b := by
  rcases run_stops h with ⟨f, hspend, rfl⟩ | hlast
  · obtain ⟨-, -, rfl⟩ := Account.spend_error hspend
    exact .inl ⟨_, _, rfl⟩
  · exact .inr hlast

/-- A run returns the value its last state answers. -/
theorem run_ok_cases {t r : Term} {fuel : Nat} (h : m.run fuel t a = some (.ok r, b)) :
    ∃ s ∈ m.states fuel t a, ∃ v, s.move = .halt v ∧ r = v.toTerm := by
  rcases run_last h with hover | ⟨s, hmem, fs, hstop⟩
  · exact absurd hover (not_overdrawn_ok r)
  · rcases step_stop hstop with hover | ⟨v, hhalt, hr⟩ | ⟨_, _, -, hr⟩ | ⟨_, _, _, _, _, -, -, hr⟩
    · exact absurd hover (not_overdrawn_ok r)
    · cases hr
      exact ⟨s, hmem, v, hhalt, rfl⟩
    · cases hr
    · cases hr

/-- A run fails because it is overdrawn, or because its last state is stuck or calls a builtin that
fails. -/
theorem run_error_cases {t : Term} {fuel : Nat} {e : MachineError}
    (h : m.run fuel t a = some (.error e, b)) :
    (∃ rest, e.cause = .budgetExhausted rest) ∨ ∃ s ∈ m.states fuel t a,
      s.move = .stuck e.cause ∨ ∃ fn args frames, s.move = .call fn args frames ∧
        (m.perform fn args).2 = .error e.cause := by
  have hover : Overdrawn (.error e) → ∃ rest, e.cause = .budgetExhausted rest := by
    rintro ⟨rest, step, he⟩
    cases he
    exact ⟨rest, rfl⟩
  rcases run_last h with hlast | ⟨s, hmem, fs, hstop⟩
  · exact .inl (hover hlast)
  · rcases step_stop hstop with hlast | ⟨v, -, hr⟩ | ⟨f, step, hstuck, hr⟩ |
      ⟨fn, args, frames, f, step, hcall, hperf, hr⟩
    · exact .inl (hover hlast)
    · cases hr
    · cases hr
      exact .inr ⟨s, hmem, .inl hstuck⟩
    · cases hr
      exact .inr ⟨s, hmem, .inr ⟨fn, args, frames, hcall, hperf⟩⟩

/-- A run does not fail for a cause that no state is stuck for and no call fails for. -/
theorem run_cause_ne {t : Term} {fuel : Nat} {e : MachineError} {f : Failure}
    (hbudget : ∀ rest, f ≠ .budgetExhausted rest)
    (hstuck : ∀ s ∈ m.states fuel t a, s.move ≠ .stuck f)
    (hcall : ∀ s ∈ m.states fuel t a, ∀ fn args frames, s.move = .call fn args frames →
      (m.perform fn args).2 ≠ .error f)
    (h : m.run fuel t a = some (.error e, b)) : e.cause ≠ f := by
  rintro rfl
  rcases run_error_cases h with ⟨rest, hcause⟩ | ⟨s, hmem, hlast | ⟨fn, args, frames, hmove, hperf⟩⟩
  · exact hbudget rest hcause
  · exact hstuck s hmem hlast
  · exact hcall s hmem fn args frames hmove hperf

end Machine

end PlutusCek
