import PlutusCek.Call.Dispatch
import PlutusCek.Cost.Defaults
import PlutusCek.Machine.Account
import PlutusCek.Machine.Transition
import PlutusCek.Version

/-!
# Machine — evaluation under a budget

A machine fixes a language, a protocol version, the costs and how often they are charged.  A run
takes steps until it has a result or fails; `fuel` bounds their number, and a run that needs more
gives nothing.  A session keeps what a run leaves behind: its account, and the frames it was stopped
on.  The next run in the session clears the frames and the pending steps first.
-/

namespace PlutusCek

/-- The configuration of an evaluation. -/
structure Machine where
  language : Language
  protocol : Protocol
  semantics : Semantics
  costs : CostModel
  /-- Steps gathered before they are charged. -/
  slippage : Fin 4294967296

/-- A run between two steps. -/
structure RunState where
  control : Control
  frames : List Frame
  account : Account

/-- The frames on the stack while a state takes its step: all of them, or those below the one that
gets the value. -/
def RunState.left (s : RunState) : List Frame :=
  match s.control with
  | .compute _ _ => s.frames
  | .answer _ => s.frames.tail

/-- The outcome of one step.  A step that stops leaves frames and an account behind. -/
inductive Step where
  | more (state : RunState)
  | stop (result : Except MachineError Term) (frames : List Frame) (account : Account)

namespace Machine

/-- Steps gathered before a charge unless told otherwise. -/
def defaultSlippage : Fin 4294967296 := 200

/-- A machine with the behaviour of its language. -/
def new (language : Language) (protocol : Protocol) (costs : CostModel) : Machine :=
  ⟨language, protocol, language.semantics, costs, defaultSlippage⟩

/-- The machine of a language with its default costs, at protocol 11. -/
def ofLanguage (language : Language) : Machine :=
  new language ⟨11, 0⟩ (CostModel.ofLanguage language)

/-- A builtin may be called: it is allowed and has costs. -/
def isAvailable (m : Machine) (fn : Builtin) : Bool :=
  fn.allowed m.language m.protocol && (m.costs.builtinCost? fn).isSome

/-- A machine in writing. -/
def render (m : Machine) : String :=
  m.language.render ++ " machine at protocol " ++ m.protocol.render ++
    " (slippage " ++ toString m.slippage.val ++ ")"

/-! ### Steps -/

/-- The failure of calling a builtin that is not available. -/
def unavailable (m : Machine) (fn : Builtin) : Failure :=
  .unavailable fn m.language m.protocol

/-- Charges for a prepared call. -/
def charge (m : Machine) (fn : Builtin) (call : Call) (a : Account) : Except Overdraft Account :=
  match m.costs.builtinCost? fn with
  | some c => a.spend (c.cost call.size)
  | none => .error (m.unavailable fn, a)

/-- Calls a builtin: reads its operands, charges, then computes. -/
def callBuiltin (m : Machine) (fn : Builtin) (args : List Value) (a : Account) :
    Except Overdraft (Value × Account) :=
  match fn.prepare m.semantics args with
  | .error f => .error (f, a)
  | .ok call =>
    match m.charge fn call a with
    | .error e => .error e
    | .ok a =>
      match call.perform () with
      | .error f => .error (f, a)
      | .ok reply => .ok (reply.value, a.note reply.message)

/-- Calls a builtin on the arguments it keeps, if it is available. -/
def invoke (m : Machine) (fn : Builtin) (args : List Value) (a : Account) :
    Except Overdraft (Value × Account) :=
  if m.isAvailable fn then
    match Value.operands args with
    | .ok ops => m.callBuiltin fn ops a
    | .error f => .error (f, a)
  else .error (m.unavailable fn, a)

/-- Carries out a move.  A failure is reported with the step it arose in; `left` are the frames that
stay behind if the move stops. -/
def follow (m : Machine) (kind : Option StepKind) (left : List Frame) (a : Account) : Move → Step
  | .next control frames => .more ⟨control, frames, a⟩
  | .call fn args frames =>
    match m.invoke fn args a with
    | .ok (v, a) => .more ⟨.answer v, frames, a⟩
    | .error (f, a) => .stop (.error ⟨f, kind⟩) left a
  | .halt v =>
    match a.flush m.costs with
    | .ok a => .stop (.ok v.toTerm) left a
    | .error (f, a) => .stop (.error ⟨f, kind⟩) left a
  | .stuck f => .stop (.error ⟨f, kind⟩) left a

/-- Counts the step of a term, if it is charged for. -/
def chargeStep (m : Machine) (kind : Option StepKind) (a : Account) : Except Overdraft Account :=
  match kind with
  | some k => a.step m.costs m.slippage.val k
  | none => .ok a

/-- One step. -/
def step (m : Machine) (s : RunState) : Step :=
  match s.control with
  | .compute t env =>
    let kind := StepKind.of? t
    match m.chargeStep kind s.account with
    | .ok a => m.follow kind s.left a (Move.compute t env s.frames)
    | .error (f, a) => .stop (.error ⟨f, kind⟩) s.left a
  | .answer v => m.follow none s.left s.account (Move.answer v s.frames)

/-- Steps until the run stops; the result, and the frames and the account it leaves. -/
def proceed (m : Machine) :
    Nat → RunState → Option (Except MachineError Term × List Frame × Account)
  | 0, _ => none
  | fuel + 1, s =>
    match m.step s with
    | .more s => m.proceed fuel s
    | .stop result frames a => some (result, frames, a)

end Machine

/-- A series of runs on one budget and one log, with the frames that the last one has left. -/
structure Session where
  initial : Budget
  account : Account
  frames : List Frame

namespace Session

/-- A session with a budget to spend. -/
def start (budget : Budget) : Session := ⟨budget, Account.ofBudget budget, []⟩

@[simp] theorem start_account (budget : Budget) :
    (start budget).account = Account.ofBudget budget := rfl

/-- The budget left. -/
def remaining (s : Session) : Budget := s.account.remaining

/-- The budget spent. -/
def consumed (s : Session) : Budget := s.initial - s.account.remaining

/-- The messages held. -/
def log (s : Session) : Array String := s.account.log

/-- Takes the messages. -/
def takeLog (s : Session) : Array String × Session :=
  (s.log, { s with account := { s.account with log := #[] } })

/-- Forgets the frames and the pending steps that an earlier run has left. -/
def clear (s : Session) : Session := { s with account := s.account.settle, frames := [] }

/-- Evaluates a term: clears the session, charges the startup cost, then steps until the run
stops. -/
def run (s : Session) (m : Machine) (fuel : Nat) (t : Term) :
    Option (Except MachineError Term × Session) :=
  let s := s.clear
  match s.account.spend m.costs.startup with
  | .ok a =>
    (m.proceed fuel ⟨.compute t [], s.frames, a⟩).map fun (result, frames, a) =>
      (result, { s with account := a, frames := frames })
  | .error (f, a) => some (.error ⟨f, none⟩, { s with account := a })

end Session

namespace Machine

/-- What a session makes of its account when it runs a term: the result, and the account the run
leaves. -/
def run (m : Machine) (fuel : Nat) (t : Term) (a : Account) :
    Option (Except MachineError Term × Account) :=
  (Session.run ⟨a.remaining, a, []⟩ m fuel t).map fun (result, s) => (result, s.account)

/-- Steps until the run stops; the result, and the account it leaves. -/
def resume (m : Machine) (fuel : Nat) (s : RunState) :
    Option (Except MachineError Term × Account) :=
  (m.proceed fuel s).map fun (result, _, a) => (result, a)

theorem resume_zero (m : Machine) (s : RunState) : m.resume 0 s = none := rfl

theorem resume_succ (m : Machine) (fuel : Nat) (s : RunState) :
    m.resume (fuel + 1) s =
      match m.step s with
      | .more s => m.resume fuel s
      | .stop result _ a => some (result, a) := by
  rw [resume, proceed]
  cases m.step s <;> rfl

/-- A run charges the startup cost, and then steps from no frames and nothing pending. -/
theorem run_eq_resume (m : Machine) (fuel : Nat) (t : Term) (a : Account) :
    m.run fuel t a =
      match a.settle.spend m.costs.startup with
      | .ok a => m.resume fuel ⟨.compute t [], [], a⟩
      | .error (f, a) => some (.error ⟨f, none⟩, a) := by
  simp only [run, Session.run, Session.clear]
  cases a.settle.spend m.costs.startup with
  | ok b => simp only [resume, Option.map_map, Function.comp_def]
  | error e => rfl

end Machine

namespace Session

/-- The frames that an earlier run has left have no part in what a run makes of the account. -/
theorem run_account (s : Session) (m : Machine) (fuel : Nat) (t : Term) :
    (s.run m fuel t).map (fun (result, s) => (result, s.account)) = m.run fuel t s.account := by
  simp only [Machine.run, run, clear]
  cases s.account.settle.spend m.costs.startup with
  | ok b => simp only [Option.map_map, Function.comp_def]
  | error e => rfl

theorem machine_run {s s' : Session} {m : Machine} {fuel : Nat} {t : Term}
    {x : Except MachineError Term} (h : s.run m fuel t = some (x, s')) :
    m.run fuel t s.account = some (x, s'.account) := by
  rw [← run_account, h]
  rfl

theorem run_initial {s s' : Session} {m : Machine} {fuel : Nat} {t : Term}
    {x : Except MachineError Term} (h : s.run m fuel t = some (x, s')) :
    s'.initial = s.initial := by
  simp only [run, clear] at h
  split at h
  · obtain ⟨_, -, hs⟩ := Option.map_eq_some_iff.1 h
    cases hs
    rfl
  · cases h
    rfl

end Session

/-- The outcome of evaluating a program. -/
structure Evaluation where
  result : Except MachineError Term
  initial : Budget
  remaining : Budget
  log : Array String

namespace Evaluation

/-- The budget spent. -/
def consumed (e : Evaluation) : Budget := e.initial - e.remaining

/-- The program has a result. -/
def isSuccess (e : Evaluation) : Bool := e.result.isOk

end Evaluation

/-- Evaluates a program with a budget. -/
def Machine.evaluate (m : Machine) (fuel : Nat) (p : Program) (budget : Budget) :
    Option Evaluation :=
  ((Session.start budget).run m fuel p.term).map fun (result, s) =>
    ⟨result, budget, s.remaining, s.log⟩

end PlutusCek
