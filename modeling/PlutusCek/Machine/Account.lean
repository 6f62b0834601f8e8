import PlutusCek.Cost.Model
import PlutusCek.Failure

/-!
# Machine.Account — the budget, the steps not yet charged, and the log

Steps are counted by kind and charged together once their number reaches the slippage.
-/

namespace PlutusCek

/-- What a run spends and leaves behind. -/
structure Account where
  /-- The budget left. -/
  remaining : Budget
  /-- Steps of each kind not yet charged for. -/
  pending : PerStep Nat
  /-- Number of steps not yet charged for. -/
  pendingTotal : Nat
  /-- Messages, in order. -/
  log : Array String

/-- An overdrawn account, with its failure. -/
abbrev Overdraft := Failure × Account

namespace Account

/-- An account with nothing pending. -/
def ofBudget (budget : Budget) : Account := ⟨budget, .uniform 0, 0, #[]⟩

/-- The account with nothing pending. -/
def settle (a : Account) : Account := { a with pending := .uniform 0, pendingTotal := 0 }

/-- Deducts a cost; fails when a component gets negative. -/
def spend (a : Account) (cost : Budget) : Except Overdraft Account :=
  let a := { a with remaining := a.remaining - cost }
  if a.remaining.isExhausted then .error (.budgetExhausted a.remaining, a) else .ok a

/-- The greatest count of steps; counting stops there. -/
def maxCount : Nat := 4294967295

/-- Counts one step. -/
def count (a : Account) (k : StepKind) : Account :=
  { a with
    pending := a.pending.modify k fun n => min (n + 1) maxCount
    pendingTotal := min (a.pendingTotal + 1) maxCount }

/-- The cost of pending steps. -/
def pendingCost (costs : CostModel) (pending : PerStep Nat) : Budget :=
  StepKind.all.foldl
    (fun total k => total + (costs.stepCost k).occurrences (pending.get k)) Budget.zero

/-- Charges for all pending steps. -/
def flush (a : Account) (costs : CostModel) : Except Overdraft Account :=
  a.settle.spend (pendingCost costs a.pending)

/-- Counts one step, and charges once `slippage` steps are pending. -/
def step (a : Account) (costs : CostModel) (slippage : Nat) (k : StepKind) :
    Except Overdraft Account :=
  let a := a.count k
  if slippage ≤ a.pendingTotal then a.flush costs else .ok a

/-- Adds a message to the log. -/
def note (a : Account) : Option String → Account
  | some message => { a with log := a.log.push message }
  | none => a

end Account

end PlutusCek
