import PlutusCek.Proofs.Conformance
import PlutusCek.Proofs.Measurement
import PlutusCek.Proofs.Payment

/-!
# Proofs.Charging — a builtin call is charged for once, or not at all

A call that comes to its charge is charged by the measures of its builtin, whatever its cost
functions are and whether its operands are measured beforehand or on demand
(`Machine.charge_operandSizes`).  A call on well-typed operands ends in one of three ways that
exclude each other: the operands are rejected and nothing changes, the charge overdraws the account,
or the charge is deducted and the call gives a value or is refused (`Machine.callBuiltin_fate`).
-/

namespace PlutusCek

/-- The account after a cost was deducted. -/
def Account.deduct (a : Account) (cost : Budget) : Account :=
  { a with remaining := a.remaining - cost }

/-- How a builtin call ends. -/
inductive Fate where
  | rejected
  | overdrawn
  | performed

/-- What the end of a call that costs `cost` says of its result. -/
def Fate.Describes (fn : Builtin) (args : List Value) (cost : Budget) (a : Account)
    (result : Except Overdraft (Value × Account)) : Fate → Prop
  | .rejected => ∃ f, fn.Rejects args f ∧ result = .error (f, a)
  | .overdrawn =>
    (a.deduct cost).remaining.isExhausted = true ∧
      result = .error (.budgetExhausted (a.deduct cost).remaining, a.deduct cost)
  | .performed =>
    (a.deduct cost).remaining.isExhausted = false ∧
      ((∃ v message, fn.Logs args message ∧ result = .ok (v, (a.deduct cost).note message)) ∨
        ∃ why, why ≠ .divisionByZero ∧ result = .error (.refused fn why, a.deduct cost))

namespace Account

variable (a : Account) (cost : Budget)

theorem spend_eq : a.spend cost =
    if (a.deduct cost).remaining.isExhausted then
      .error (.budgetExhausted (a.deduct cost).remaining, a.deduct cost)
    else .ok (a.deduct cost) := rfl

@[simp] theorem pending_note (message : Option String) :
    (a.note message).pending = a.pending := by
  cases message <;> rfl

@[simp] theorem pendingTotal_note (message : Option String) :
    (a.note message).pendingTotal = a.pendingTotal := by
  cases message <;> rfl

end Account

section Fates

variable {fn : Builtin} {args : List Value} {cost : Budget} {a : Account}
  {result : Except Overdraft (Value × Account)} {fate fate' : Fate}

/-- Operands are not rejected for the budget. -/
theorem Builtin.Rejects.ne_budgetExhausted {f : Failure} (h : fn.Rejects args f) (rest : Budget) :
    f ≠ .budgetExhausted rest := by
  rintro rfl
  cases h

/-- A call whose operands are rejected ends in no other way. -/
theorem Fate.Describes.eq_rejected (h : Fate.rejected.Describes fn args cost a result)
    (h' : fate.Describes fn args cost a result) : fate = .rejected := by
  obtain ⟨f, hreject, rfl⟩ := h
  cases fate with
  | rejected => rfl
  | overdrawn =>
    obtain ⟨-, herr⟩ := h'
    obtain ⟨hf, -⟩ := Prod.mk.inj (Except.error.inj herr)
    exact absurd hf (hreject.ne_budgetExhausted _)
  | performed =>
    obtain ⟨-, ⟨v, message, -, hok⟩ | ⟨why, hwhy, herr⟩⟩ := h'
    · cases hok
    · -- operands are refused for a zero divisor only, a charged call never is
      obtain ⟨rfl, -⟩ := Prod.mk.inj (Except.error.inj herr)
      cases hreject
      exact absurd rfl hwhy

theorem Fate.Describes.not_performed (h : Fate.overdrawn.Describes fn args cost a result) :
    ¬ Fate.performed.Describes fn args cost a result := by
  intro h'
  have hexhausted := h.1
  rw [h'.1] at hexhausted
  cases hexhausted

/-- The ways in which a call ends exclude each other. -/
theorem Fate.Describes.unique (h : fate.Describes fn args cost a result)
    (h' : fate'.Describes fn args cost a result) : fate = fate' := by
  cases fate with
  | rejected => exact (h.eq_rejected h').symm
  | overdrawn =>
    cases fate' with
    | rejected => exact h'.eq_rejected h
    | overdrawn => rfl
    | performed => exact absurd h' h.not_performed
  | performed =>
    cases fate' with
    | rejected => exact h'.eq_rejected h
    | overdrawn => exact absurd h h'.not_performed
    | performed => rfl

/-- No end of a call touches the pending steps. -/
theorem Fate.Describes.pending (h : fate.Describes fn args cost a result) {b : Account}
    (hb : (∃ v, result = .ok (v, b)) ∨ ∃ f, result = .error (f, b)) :
    b.pending = a.pending ∧ b.pendingTotal = a.pendingTotal := by
  have hcases : b = a ∨ ∃ message, b = (a.deduct cost).note message := by
    cases fate with
    | rejected =>
      obtain ⟨f, -, rfl⟩ := h
      rcases hb with ⟨v, hb⟩ | ⟨f', hb⟩ <;> cases hb
      exact .inl rfl
    | overdrawn =>
      obtain ⟨-, rfl⟩ := h
      rcases hb with ⟨v, hb⟩ | ⟨f', hb⟩ <;> cases hb
      exact .inr ⟨none, rfl⟩
    | performed =>
      obtain ⟨-, ⟨v, message, -, rfl⟩ | ⟨why, -, rfl⟩⟩ := h
      · rcases hb with ⟨w, hb⟩ | ⟨f', hb⟩ <;> cases hb
        exact .inr ⟨message, rfl⟩
      · rcases hb with ⟨w, hb⟩ | ⟨f', hb⟩ <;> cases hb
        exact .inr ⟨none, rfl⟩
  rcases hcases with rfl | ⟨message, rfl⟩
  · exact ⟨rfl, rfl⟩
  · rw [Account.pending_note, Account.pendingTotal_note]
    exact ⟨rfl, rfl⟩

end Fates

/-! ### The tariff applied -/

section Prepared

variable {fn : Builtin} {semantics : Semantics} {args : List Value}

theorem Builtin.bill_of_ok {call : Call} (h : fn.prepare semantics args = .ok call) :
    call.Bill fn.measures fn.Logs args := by
  have hlen := ((fn.contract semantics).of_ok h).1
  have hbill := fn.tariff semantics (hlen.trans fn.length_measures.symm)
  rw [h] at hbill
  cases hbill with
  | ok hcall => exact hcall

theorem Builtin.rejects_of_error {f : Failure} (hlen : args.length = fn.arity)
    (h : fn.prepare semantics args = .error f) : fn.Rejects args f := by
  have hbill := fn.tariff semantics (hlen.trans fn.length_measures.symm)
  rw [h] at hbill
  cases hbill with
  | error hreject => exact hreject

/-- What a call on well-typed operands may do once it has been charged for. -/
theorem Builtin.refused_of_perform {call : Call} (h : fn.prepare semantics args = .ok call)
    (htyped : Call.Typed args) {f : Failure} (hf : call.perform () = .error f) :
    ∃ why, why ≠ .divisionByZero ∧ f = .refused fn why := by
  have hkeeps := ((fn.contract semantics).of_ok h).2
  cases hkeeps.failure hf with
  | refused why =>
    refine ⟨why, ?_, rfl⟩
    rintro rfl
    exact (fn.bill_of_ok h).failure fn hf
  | mismatch hbad => exact absurd htyped hbad

end Prepared

namespace Machine

variable (m : Machine) {fn : Builtin} {args : List Value}

theorem charge_of_prepare {call : Call} {entry : BuiltinCost}
    (hcall : fn.prepare m.semantics args = .ok call) (hentry : m.costs.builtinCost? fn = some entry)
    (a : Account) :
    m.charge fn call a =
      a.spend (entry.cost (CostFunction.sizesOf (fn.operandSizes args))) := by
  rw [charge, hentry, (Builtin.bill_of_ok hcall).size]
  rfl

/-- **The charge of a call.**  Take any builtin, any cost functions for it and any operands on which
its call comes to the charge.  What is deducted is the cost of the sizes that the measures of the
builtin give.  Measuring the operands on demand comes to the same cost, no operand is measured
twice, and exactly those are measured that one of the cost functions reads. -/
theorem charge_operandSizes {call : Call} {entry : BuiltinCost}
    (hcall : fn.prepare m.semantics args = .ok call) (hentry : m.costs.builtinCost? fn = some entry)
    (a : Account) :
    let size := CostFunction.sizesOf (fn.operandSizes args)
    let lazily := entry.costWith call.size .fresh
    m.charge fn call a = a.spend (entry.cost size) ∧ lazily.1 = entry.cost size ∧
      lazily.2.measured.Nodup ∧
      ∀ i, i ∈ lazily.2.measured ↔
        entry.mem.reads size i = true ∨ entry.cpu.reads size i = true := by
  have hsize := (Builtin.bill_of_ok hcall).size
  obtain ⟨hcost, hvalid, hmeasured⟩ :=
    entry.finds_costWith call.size .fresh (Memo.valid_fresh call.size)
  refine ⟨m.charge_of_prepare hcall hentry a, ?_, hvalid.once, fun i => ?_⟩
  · rw [hcost, hsize]
    rfl
  · rw [hmeasured, hsize]
    exact or_iff_right List.not_mem_nil

/-- A machine with nested cost functions for `dropList`. -/
def dropping : Machine :=
  { flat ⟨1, 1⟩ ⟨1, 2⟩ ⟨3, 4⟩ with
    costs := (flat ⟨1, 1⟩ ⟨1, 2⟩ ⟨3, 4⟩).costs.setBuiltin .dropList
      ⟨.constAboveDiagonal 7 (.constBelowDiagonal 100 (.linearInX ⟨1, 2⟩)), .addedSizes ⟨0, 1⟩⟩ }

/-- Five items to drop from a list of two. -/
def droppedPair : List Value :=
  [.con (.integer 5), .con (.list .integer [.integer 1, .integer 2])]

set_option maxRecDepth 2000 in
theorem charge_operandSizes_dropList : ∃ call entry,
    Builtin.dropList.prepare dropping.semantics droppedPair = .ok call ∧
    dropping.costs.builtinCost? .dropList = some entry ∧
    dropping.charge .dropList call (.ofBudget ⟨200, 9⟩) =
      .ok ((Account.ofBudget ⟨200, 9⟩).deduct ⟨100, 7⟩) ∧
    (entry.costWith call.size .fresh).1 = ⟨100, 7⟩ := by
  obtain ⟨call, hcall⟩ :
      ∃ call, Builtin.dropList.prepare dropping.semantics droppedPair = .ok call := ⟨_, rfl⟩
  obtain ⟨entry, hentry, hcost⟩ :
      ∃ entry, dropping.costs.builtinCost? .dropList = some entry ∧
        entry.cost (CostFunction.sizesOf (Builtin.dropList.operandSizes droppedPair)) =
          ⟨100, 7⟩ := ⟨_, rfl, by decide⟩
  obtain ⟨hcharge, hlazy, -⟩ := dropping.charge_operandSizes hcall hentry (.ofBudget ⟨200, 9⟩)
  refine ⟨call, entry, hcall, hentry, ?_, ?_⟩
  · rw [hcharge, hcost]
    rfl
  · rw [hlazy, hcost]

/-- A call that has been charged for ends in a value or a refusal. -/
theorem callBuiltin_of_prepare {call : Call} {entry : BuiltinCost}
    (hcall : fn.prepare m.semantics args = .ok call) (hentry : m.costs.builtinCost? fn = some entry)
    (a : Account) :
    m.callBuiltin fn args a =
      match a.spend (entry.cost (CostFunction.sizesOf (fn.operandSizes args))) with
      | .error e => .error e
      | .ok b =>
        match call.perform () with
        | .error f => .error (f, b)
        | .ok reply => .ok (reply.value, b.note reply.message) := by
  have hcharge := m.charge_of_prepare hcall hentry a
  cases hspend : a.spend (entry.cost (CostFunction.sizesOf (fn.operandSizes args))) with
  | error e => simp only [callBuiltin, hcall, hcharge, hspend]
  | ok b =>
    cases hperform : call.perform () with
    | error f => simp only [callBuiltin, hcall, hcharge, hspend, hperform]
    | ok reply => simp only [callBuiltin, hcall, hcharge, hspend, hperform]

/-- Every call on well-typed operands has one of the three ends. -/
theorem exists_fate {entry : BuiltinCost} (hentry : m.costs.builtinCost? fn = some entry)
    (hlen : args.length = fn.arity) (htyped : Call.Typed args) (a : Account) :
    ∃ fate : Fate, fate.Describes fn args
      (entry.cost (CostFunction.sizesOf (fn.operandSizes args))) a (m.callBuiltin fn args a) := by
  cases hprep : fn.prepare m.semantics args with
  | error f =>
    refine ⟨.rejected, f, Builtin.rejects_of_error hlen hprep, ?_⟩
    simp only [callBuiltin, hprep]
  | ok call =>
    rw [m.callBuiltin_of_prepare hprep hentry, Account.spend_eq]
    generalize entry.cost (CostFunction.sizesOf (fn.operandSizes args)) = cost
    cases hex : (a.deduct cost).remaining.isExhausted with
    | true => exact ⟨.overdrawn, hex, rfl⟩
    | false =>
      refine ⟨.performed, hex, ?_⟩
      cases hperf : call.perform () with
      | ok reply =>
        exact .inl ⟨reply.value, reply.message, (Builtin.bill_of_ok hprep).message hperf, rfl⟩
      | error f =>
        obtain ⟨why, hwhy, rfl⟩ := Builtin.refused_of_perform hprep htyped hperf
        exact .inr ⟨why, hwhy, rfl⟩

/-- **Each call is charged for at most once and fails cleanly.**  Take an available builtin, as many
well-typed operands as it has, and any account.  Exactly one of three things happens.  The operands
are rejected, for a type, for an operand that is no constant or, by the divisions only, for a zero
divisor, and the account is as it was.  Or the cost of the call is deducted once and overdraws the
account.  Or it is deducted once, and the call gives a value or is refused, where nothing is logged
but the message of `trace`.  The pending steps stay as they are, and so do the frames that the run
goes on with, or leaves behind. -/
theorem callBuiltin_fate (hav : m.isAvailable fn = true) (hlen : args.length = fn.arity)
    (htyped : Call.Typed args) (a : Account) :
    (∃ entry, m.costs.builtinCost? fn = some entry ∧
      ∃! fate : Fate, fate.Describes fn args
        (entry.cost (CostFunction.sizesOf (fn.operandSizes args))) a (m.callBuiltin fn args a)) ∧
    (∀ b, ((∃ v, m.callBuiltin fn args a = .ok (v, b)) ∨
        ∃ f, m.callBuiltin fn args a = .error (f, b)) →
      b.pending = a.pending ∧ b.pendingTotal = a.pendingTotal) ∧
    ∀ kind left frames, m.follow kind left a (.call fn args.reverse frames) =
      match m.callBuiltin fn args a with
      | .ok (v, b) => .more ⟨.answer v, frames, b⟩
      | .error (f, b) => .stop (.error ⟨f, kind⟩) left b := by
  obtain ⟨-, hcost⟩ := Bool.and_eq_true_iff.1 hav
  obtain ⟨entry, hentry⟩ := Option.isSome_iff_exists.1 hcost
  obtain ⟨fate, hfate⟩ := m.exists_fate hentry hlen htyped a
  refine ⟨⟨entry, hentry, fate, hfate, fun fate' hfate' => hfate'.unique hfate⟩,
    fun b hb => hfate.pending hb, fun kind left frames => ?_⟩
  have hops : Value.operands args.reverse = .ok args := by
    rw [Value.operands_of_length_le (by rw [List.length_reverse, hlen]; exact fn.arity_le),
      List.reverse_reverse]
  have hinvoke : m.invoke fn args.reverse a = m.callBuiltin fn args a := by
    simp only [invoke, if_pos hav, hops]
  rcases hresult : m.callBuiltin fn args a with ⟨f, b⟩ | ⟨v, b⟩
  · simp only [follow, hinvoke, hresult]
  · simp only [follow, hinvoke, hresult]

theorem callBuiltin_fate_trace :
    (flat ⟨1, 1⟩ ⟨1, 2⟩ ⟨3, 4⟩).callBuiltin .trace [.con (.string "paid"), .con .unit]
        (.ofBudget ⟨9, 9⟩) = .ok (.con .unit, ⟨⟨6, 5⟩, .uniform 0, 0, #["paid"]⟩) ∧
    ∃ entry, (flat ⟨1, 1⟩ ⟨1, 2⟩ ⟨3, 4⟩).costs.builtinCost? .trace = some entry ∧
      ∃! fate : Fate, fate.Describes .trace [.con (.string "paid"), .con .unit]
        (entry.cost (CostFunction.sizesOf
          (Builtin.trace.operandSizes [.con (.string "paid"), .con .unit]))) (.ofBudget ⟨9, 9⟩)
        ((flat ⟨1, 1⟩ ⟨1, 2⟩ ⟨3, 4⟩).callBuiltin .trace [.con (.string "paid"), .con .unit]
          (.ofBudget ⟨9, 9⟩)) := by
  refine ⟨rfl, ((flat ⟨1, 1⟩ ⟨1, 2⟩ ⟨3, 4⟩).callBuiltin_fate rfl rfl ?_ _).1⟩
  intro c hc
  simp only [List.mem_cons, Value.con.injEq, List.not_mem_nil, or_false] at hc
  rcases hc with rfl | rfl <;> rfl

end Machine

end PlutusCek
