import PlutusCek.Proofs.States

/-!
# Proofs.Reuse — a session can be used again after any history

A run that fails leaves the frames it was stopped on, pending steps and messages in its session.
The next run clears the frames and the pending steps (`clear_eq`), and messages held from before
have no part in any transition: they only stay in front of those that are added
(`Machine.step_holding`).  So a run in any session goes through the states of a run in a new session
with the same budget, with the messages held put before each log (`states_eq_fresh`), and leaves
what that one leaves (`run_eq_fresh`).  A session answers after any history as a new one with its
remaining budget would (`run_reused`).
-/

namespace PlutusCek

/-- The account, had it held some messages from the start. -/
def Account.holding (held : Array String) (a : Account) : Account := { a with log := held ++ a.log }

/-- The state, had its account held some messages from the start. -/
def RunState.holding (held : Array String) (s : RunState) : RunState :=
  { s with account := s.account.holding held }

/-- The outcome of a step, had its account held some messages from the start. -/
def Step.holding (held : Array String) : Step → Step
  | .more s => .more (s.holding held)
  | .stop x fs a => .stop x fs (a.holding held)

namespace Machine

variable {m : Machine} (held : Array String)

/-! ### Messages held from before -/

theorem due_holding (a : Account) (e : Event) : m.due (a.holding held) e = m.due a e := by
  cases e <;> rfl

theorem carry_holding (a : Account) (e : Event) :
    m.carry (a.holding held) e = (m.carry a e).holding held := by
  cases e with
  | step k =>
    have hcount : (a.holding held).count k = (a.count k).holding held := rfl
    simp only [carry, hcount]
    show (if m.slippage.val ≤ (a.count k).pendingTotal then _ else _) = _
    split <;> rfl
  | note s =>
    simp only [carry, Account.note, Account.holding, Array.push_eq_append, Array.append_assoc]
  | _ => rfl

theorem spend_holding (a : Account) (cost : Budget) :
    (a.holding held).spend cost =
      ((a.spend cost).map (Account.holding held)).mapError
        (Prod.map id (Account.holding held)) := by
  have hsame : ((a.holding held).remaining - cost).isExhausted =
      (a.remaining - cost).isExhausted := rfl
  unfold Account.spend
  cases hex : (a.remaining - cost).isExhausted with
  | true =>
    simp only [hsame, hex, if_true]
    rfl
  | false =>
    simp only [hsame, hex]
    rfl

/-- Paying for an event takes no notice of messages held from before. -/
theorem pay_holding (a : Account) (e : Event) :
    m.pay (a.holding held) e =
      ((m.pay a e).map (Account.holding held)).mapError (Prod.map id (Account.holding held)) := by
  simp only [pay, due_holding, carry_holding]
  cases m.due a e with
  | none => rfl
  | some cost => exact spend_holding held _ cost

theorem payAll_holding (a : Account) (es : List Event) :
    m.payAll (a.holding held) es =
      ((m.payAll a es).map (Account.holding held)).mapError
        (Prod.map id (Account.holding held)) := by
  induction es generalizing a with
  | nil => rfl
  | cons e es ih =>
    simp only [payAll, pay_holding]
    cases m.pay a e with
    | ok b => exact ih b
    | error y => rfl

/-- **A step takes no notice of messages held from before.** -/
theorem step_holding (s : RunState) : m.step (s.holding held) = (m.step s).holding held := by
  rw [step_conclude, step_conclude]
  show conclude s.left (m.payAll (s.account.holding held) (m.advance s.frames s.control).1)
    (m.advance s.frames s.control).2 = _
  rw [payAll_holding]
  cases m.payAll s.account (m.advance s.frames s.control).1 with
  | error y => rfl
  | ok b => cases (m.advance s.frames s.control).2 <;> rfl

theorem proceed_holding (fuel : Nat) (s : RunState) :
    m.proceed fuel (s.holding held) =
      (m.proceed fuel s).map fun (x, fs, a) => (x, fs, a.holding held) := by
  induction fuel generalizing s with
  | zero => rfl
  | succ fuel ih =>
    simp only [proceed, step_holding]
    cases m.step s with
    | more s' => exact ih s'
    | stop x fs b => rfl

theorem trail_holding (fuel : Nat) (s : RunState) :
    m.trail fuel (s.holding held) = (m.trail fuel s).map (RunState.holding held) := by
  induction fuel generalizing s with
  | zero => rfl
  | succ fuel ih =>
    simp only [trail, step_holding, List.map_cons]
    cases m.step s with
    | more s' => simp only [Step.holding, ih]
    | stop x fs b => rfl

end Machine

/-! ### Runs in used sessions -/

namespace Session

variable {m : Machine}

/-- What clearing makes of a session: its messages, in front of a new session with its budget. -/
theorem clear_eq (s : Session) :
    s.clear =
      { (start s.remaining).clear with
        initial := s.initial
        account := (start s.remaining).clear.account.holding s.log } := by
  simp [clear, start, remaining, log, Account.settle, Account.ofBudget, Account.holding]

/-- **A run in a used session** ends as one in a new session with the same budget does, leaves the
same frames, and has its messages after those held. -/
theorem run_eq_fresh (s : Session) (fuel : Nat) (t : Term) :
    s.run m fuel t =
      ((start s.remaining).run m fuel t).map fun (x, fresh) =>
        (x, ⟨s.initial, fresh.account.holding s.log, fresh.frames⟩) := by
  simp only [run, clear_eq s, Machine.spend_holding]
  cases (start s.remaining).clear.account.spend m.costs.startup with
  | error y => rfl
  | ok b =>
    simp only [Except.map, Except.mapError]
    show (m.proceed fuel (RunState.holding s.log ⟨.compute t [], _, b⟩)).map _ = _
    rw [Machine.proceed_holding, Option.map_map, Option.map_map]
    rfl

/-- It passes through the same states: nothing that an earlier run left is in them but its
messages. -/
theorem states_eq_fresh (s : Session) (fuel : Nat) (t : Term) :
    s.states m fuel t = ((start s.remaining).states m fuel t).map (RunState.holding s.log) := by
  simp only [states, clear_eq s, Machine.spend_holding]
  cases (start s.remaining).clear.account.spend m.costs.startup with
  | error y => rfl
  | ok b =>
    exact Machine.trail_holding s.log fuel ⟨.compute t [], (start s.remaining).clear.frames, b⟩

end Session

/-! ### Histories -/

/-- What can be asked of a session. -/
inductive Request where
  | run (fuel : Nat) (t : Term)
  | takeLog

namespace Session

/-- The session after a request.  There is none if a run needs more fuel. -/
def serve (m : Machine) (s : Session) : Request → Option Session
  | .run fuel t => (s.run m fuel t).map Prod.snd
  | .takeLog => some s.takeLog.2

/-- The session after a history of requests. -/
def after (m : Machine) : Session → List Request → Option Session
  | s, [] => some s
  | s, q :: history => (s.serve m q).bind (after m · history)

variable {m : Machine} {s s' : Session}

theorem serve_initial {q : Request} (h : s.serve m q = some s') : s'.initial = s.initial := by
  cases q with
  | run fuel t =>
    obtain ⟨⟨x, s₁⟩, hrun, rfl⟩ := Option.map_eq_some_iff.1 h
    exact run_initial hrun
  | takeLog =>
    cases h
    rfl

theorem after_initial {history : List Request} (h : s.after m history = some s') :
    s'.initial = s.initial := by
  induction history generalizing s with
  | nil =>
    cases h
    rfl
  | cons q history ih =>
    obtain ⟨s₁, hserve, hrest⟩ := Option.bind_eq_some_iff.1 h
    rw [ih hrest, serve_initial hserve]

/-- **A session can be used again after any history** of runs, whatever they came to, and of taken
messages.  Whatever frames and pending steps the last run has left, the next run has the result, and
leaves the budget, the pending steps and the frames, of a run in a new session with the budget that
remains; its messages follow those held.  The two runs pass through the same states. -/
theorem run_reused {budget : Budget} {history : List Request}
    (h : (Session.start budget).after m history = some s) (fuel : Nat) (t : Term) :
    s.run m fuel t =
        ((Session.start s.remaining).run m fuel t).map (fun (x, fresh) =>
          (x, ⟨budget, { fresh.account with log := s.log ++ fresh.log }, fresh.frames⟩)) ∧
      s.states m fuel t =
        ((Session.start s.remaining).states m fuel t).map fun state =>
          { state with account := { state.account with log := s.log ++ state.account.log } } := by
  have hinitial : s.initial = budget := after_initial h
  refine ⟨?_, states_eq_fresh s fuel t⟩
  rw [run_eq_fresh, hinitial]
  rfl

/-- A program that fails while functions wait for their arguments. -/
def interrupted : Term :=
  .apply (.lambda (.var 1)) (.apply (.lambda (.var 1)) (.apply .difference .error))

set_option maxRecDepth 1000 in
theorem run_reused_interrupted :
    ∃ s, (Session.start ⟨200, 200⟩).after (.flat ⟨1, 1⟩ ⟨1, 2⟩ ⟨3, 4⟩)
        [.run 80 interrupted, .takeLog, .run 80 interrupted] = some s ∧
      s.frames.length = 3 ∧ s.account.pendingTotal = 21 ∧ s.log = #["subtract"] ∧
      s.remaining = ⟨186, 182⟩ ∧
      ∃ s', s.run (.flat ⟨1, 1⟩ ⟨1, 2⟩ ⟨3, 4⟩) 40 .difference =
          some (.ok (.constant (.integer 1)), s') ∧
        s'.frames = [] ∧ s'.remaining = ⟨163, 141⟩ ∧ s'.log = #["subtract", "subtract"] := by
  obtain ⟨s, hs, hframes, hpending, hlog, hleft⟩ :
      ∃ s, (Session.start ⟨200, 200⟩).after (.flat ⟨1, 1⟩ ⟨1, 2⟩ ⟨3, 4⟩)
          [.run 80 interrupted, .takeLog, .run 80 interrupted] = some s ∧
        s.frames.length = 3 ∧ s.account.pendingTotal = 21 ∧ s.log = #["subtract"] ∧
        s.remaining = ⟨186, 182⟩ :=
    ⟨_, rfl, rfl, rfl, rfl, rfl⟩
  obtain ⟨fresh, hfresh, hempty, hrest, hmessages⟩ :
      ∃ fresh, (Session.start ⟨186, 182⟩).run (.flat ⟨1, 1⟩ ⟨1, 2⟩ ⟨3, 4⟩) 40 .difference =
          some (.ok (.constant (.integer 1)), fresh) ∧
        fresh.frames = [] ∧ fresh.remaining = ⟨163, 141⟩ ∧ fresh.log = #["subtract"] :=
    ⟨_, rfl, rfl, rfl, rfl⟩
  obtain ⟨hrun, -⟩ := run_reused hs 40 .difference
  rw [hleft, hfresh] at hrun
  refine ⟨s, hs, hframes, hpending, hlog, hleft, _, hrun, hempty, hrest, ?_⟩
  show s.log ++ fresh.log = _
  rw [hlog, hmessages]
  rfl

end Session

end PlutusCek
