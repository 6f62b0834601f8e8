import PlutusCek.Machine

/-!
# Proofs.Course — the course of an evaluation, apart from its costs

A step of the machine is a move together with some events: steps to count, calls to pay for,
messages.  No move looks at the account, so an evaluation has a course of its own: a list of events
and, if it comes to an end, a result.  A run pays for the events of its course in order and stops at
the first one that overdraws the account (`run_eq`).  Whatever holds of a run is therefore a fact
about courses, a fact about `payAll`, or both.
-/

namespace PlutusCek

/-- What an evaluation asks of its account. -/
inductive Event where
  /-- Charge the startup cost. -/
  | start
  /-- Count a step. -/
  | step (kind : StepKind)
  /-- Charge for a builtin call. -/
  | call (fn : Builtin) (args : List Value)
  /-- Log a message. -/
  | note (message : String)
  /-- Charge for the steps still pending. -/
  | finish

namespace Event

/-- The kind of step a failure to pay is reported with. -/
def kind? : Event → Option StepKind
  | .step k => some k
  | _ => none

/-- The message of an event. -/
def message? : Event → Option String
  | .note s => some s
  | _ => none

/-- The messages of a list of events, in order. -/
def messages (es : List Event) : List String := es.filterMap message?

@[simp] theorem messages_nil : messages [] = [] := rfl

@[simp] theorem messages_append (es es' : List Event) :
    messages (es ++ es') = messages es ++ messages es' := List.filterMap_append

@[simp] theorem messages_start (es : List Event) : messages (.start :: es) = messages es := rfl

@[simp] theorem messages_call (fn : Builtin) (args : List Value) (es : List Event) :
    messages (.call fn args :: es) = messages es := rfl

@[simp] theorem messages_finish : messages [.finish] = [] := rfl

/-- The event of a step, if it is charged for. -/
def ofKind (kind : Option StepKind) : List Event := kind.toList.map .step

@[simp] theorem messages_ofKind (kind : Option StepKind) : messages (ofKind kind) = [] := by
  cases kind <;> rfl

/-- The event of a message, if there is one. -/
def ofMessage (message : Option String) : List Event := message.toList.map .note

@[simp] theorem messages_ofMessage (message : Option String) :
    messages (ofMessage message) = message.toList := by
  cases message <;> rfl

end Event

/-- Where an evaluation is after a step. -/
inductive Progress where
  | going (control : Control) (frames : List Frame)
  | ended (result : Except MachineError Term)

namespace Machine

/-! ### Paying for events -/

/-- What a call of a builtin on arguments is charged; nothing if it does not come to a charge. -/
def price (m : Machine) (fn : Builtin) (args : List Value) : Budget :=
  match fn.prepare m.semantics args, m.costs.builtinCost? fn with
  | .ok call, some c => c.cost call.size
  | _, _ => .zero

/-- What is due at an event, if anything is. -/
def due (m : Machine) (a : Account) : Event → Option Budget
  | .start => some m.costs.startup
  | .step k =>
    if m.slippage.val ≤ (a.count k).pendingTotal then
      some (Account.pendingCost m.costs (a.count k).pending)
    else none
  | .call fn args => some (m.price fn args)
  | .note _ => none
  | .finish => some (Account.pendingCost m.costs a.pending)

/-- The account after an event, before what is due has been deducted. -/
def carry (m : Machine) (a : Account) : Event → Account
  | .start => a.settle
  | .step k => if m.slippage.val ≤ (a.count k).pendingTotal then (a.count k).settle else a.count k
  | .call _ _ => a
  | .note s => a.note (some s)
  | .finish => a.settle

/-- Pays for one event. -/
def pay (m : Machine) (a : Account) (e : Event) : Except Overdraft Account :=
  match m.due a e with
  | some cost => (m.carry a e).spend cost
  | none => .ok (m.carry a e)

/-- Pays for events in order, up to the first one that overdraws the account. -/
def payAll (m : Machine) : Account → List Event → Except (MachineError × Account) Account
  | a, [] => .ok a
  | a, e :: es =>
    match m.pay a e with
    | .ok a => m.payAll a es
    | .error (f, a) => .error (⟨f, e.kind?⟩, a)

/-! ### The course -/

/-- What a builtin says to its operands, without the charge: events, and a result. -/
def respond (m : Machine) (fn : Builtin) (ops : List Value) : List Event × Except Failure Value :=
  match fn.prepare m.semantics ops with
  | .error f => ([], .error f)
  | .ok call =>
    match call.perform () with
    | .error f => ([.call fn ops], .error f)
    | .ok reply => (.call fn ops :: Event.ofMessage reply.message, .ok reply.value)

/-- A builtin call on the arguments it keeps, without its charge. -/
def perform (m : Machine) (fn : Builtin) (args : List Value) : List Event × Except Failure Value :=
  if m.isAvailable fn then
    match Value.operands args with
    | .ok ops => m.respond fn ops
    | .error f => ([], .error f)
  else ([], .error (m.unavailable fn))

/-- A move without its charges. -/
def carryOut (m : Machine) (kind : Option StepKind) : Move → List Event × Progress
  | .next control frames => ([], .going control frames)
  | .call fn args frames =>
    match m.perform fn args with
    | (es, .ok v) => (es, .going (.answer v) frames)
    | (es, .error f) => (es, .ended (.error ⟨f, kind⟩))
  | .halt v => ([.finish], .ended (.ok v.toTerm))
  | .stuck f => ([], .ended (.error ⟨f, kind⟩))

/-- One step without its charges. -/
def advance (m : Machine) (frames : List Frame) : Control → List Event × Progress
  | .compute t env =>
    let kind := StepKind.of? t
    (m.carryOut kind (Move.compute t env frames)).map (Event.ofKind kind ++ ·) id
  | .answer v => m.carryOut none (Move.answer v frames)

/-- The events of at most `fuel` steps, and the result if they come to an end. -/
def course (m : Machine) :
    Nat → Control → List Frame → List Event × Option (Except MachineError Term)
  | 0, _, _ => ([], none)
  | fuel + 1, control, frames =>
    match m.advance frames control with
    | (es, .ended result) => (es, some result)
    | (es, .going control frames) => (m.course fuel control frames).map (es ++ ·) id

variable {m : Machine}

theorem course_succ_ended {fuel : Nat} {control : Control} {frames : List Frame} {es : List Event}
    {x : Except MachineError Term} (h : m.advance frames control = (es, .ended x)) :
    m.course (fuel + 1) control frames = (es, some x) := by
  simp only [course, h]

theorem course_succ_going {fuel : Nat} {control c : Control} {frames fs : List Frame}
    {es : List Event} (h : m.advance frames control = (es, .going c fs)) :
    m.course (fuel + 1) control frames =
      (es ++ (m.course fuel c fs).1, (m.course fuel c fs).2) := by
  simp only [course, h]
  rfl

/-- Computing a term neither calls a builtin nor completes the evaluation. -/
theorem compute_cases (t : Term) (env : Env) (frames : List Frame) :
    (∃ control rest, Move.compute t env frames = .next control rest) ∨
      ∃ f, Move.compute t env frames = .stuck f := by
  cases t with
  | var i =>
    cases h : env.lookup? i with
    | some v => exact .inl ⟨.answer v, frames, by simp only [Move.compute, h]⟩
    | none => exact .inr ⟨.openTerm i, by simp only [Move.compute, h]⟩
  | error => exact .inr ⟨_, rfl⟩
  | constr tag fields => cases fields <;> exact .inl ⟨_, _, rfl⟩
  | _ => exact .inl ⟨_, _, rfl⟩

/-! ### The events of a course -/

/-- A response has events if the operands are accepted; else nothing is charged for it. -/
theorem respond_events (fn : Builtin) (ops : List Value) :
    (m.respond fn ops).1 = [] ∧ m.price fn ops = .zero ∨
      ∃ message, (m.respond fn ops).1 = .call fn ops :: Event.ofMessage message := by
  unfold respond
  cases hcall : fn.prepare m.semantics ops with
  | error f => exact .inl ⟨rfl, by simp only [price, hcall]⟩
  | ok call =>
    refine .inr ?_
    cases hp : call.perform () with
    | error f => exact ⟨none, by simp only [hp]; rfl⟩
    | ok reply => exact ⟨reply.message, by simp only [hp]⟩

/-- A call is a response to its operands, or fails before it reads them: the builtin is not
available, or the arguments are no operands. -/
theorem perform_cases (fn : Builtin) (args : List Value) :
    (∃ ops, m.isAvailable fn = true ∧ Value.operands args = .ok ops ∧
      m.perform fn args = m.respond fn ops) ∨
    m.isAvailable fn = false ∧ m.perform fn args = ([], .error (m.unavailable fn)) ∨
    ∃ f, Value.operands args = .error f ∧ m.perform fn args = ([], .error f) := by
  unfold perform
  cases m.isAvailable fn with
  | false => exact .inr (.inl ⟨rfl, rfl⟩)
  | true =>
    cases Value.operands args with
    | ok ops => exact .inl ⟨ops, rfl, rfl, rfl⟩
    | error f => exact .inr (.inr ⟨f, rfl, rfl⟩)

/-- A call has no events, or a charge and perhaps a message. -/
theorem perform_events (fn : Builtin) (args : List Value) :
    (m.perform fn args).1 = [] ∨
      ∃ ops message, (m.perform fn args).1 = .call fn ops :: Event.ofMessage message := by
  rcases perform_cases (m := m) fn args with ⟨ops, -, -, heq⟩ | ⟨-, heq⟩ | ⟨f, -, heq⟩
  · rw [heq]
    rcases respond_events (m := m) fn ops with ⟨hnil, -⟩ | ⟨message, hcons⟩
    · exact .inl hnil
    · exact .inr ⟨ops, message, hcons⟩
  · exact .inl (congrArg Prod.fst heq)
  · exact .inl (congrArg Prod.fst heq)

theorem mem_perform {fn : Builtin} {args : List Value} {ev : Event}
    (h : ev ∈ (m.perform fn args).1) : (∃ ops, ev = .call fn ops) ∨ ∃ s, ev = .note s := by
  rcases perform_events (m := m) fn args with hnil | ⟨ops, message, hcons⟩
  · rw [hnil] at h
    cases h
  · rw [hcons] at h
    rcases List.mem_cons.1 h with h | h
    · exact .inl ⟨ops, h⟩
    · obtain ⟨s, -, hs⟩ := List.mem_map.1 h
      exact .inr ⟨s, hs.symm⟩

theorem carryOut_call_events (kind : Option StepKind) (fn : Builtin) (args : List Value)
    (frames : List Frame) :
    (m.carryOut kind (.call fn args frames)).1 = (m.perform fn args).1 := by
  simp only [carryOut]
  rcases m.perform fn args with ⟨es, r⟩
  cases r <;> rfl

theorem start_not_mem_carryOut (kind : Option StepKind) (move : Move) :
    Event.start ∉ (m.carryOut kind move).1 := by
  cases move with
  | next control frames => exact List.not_mem_nil
  | call fn args frames =>
    rw [carryOut_call_events]
    intro h
    rcases mem_perform h with ⟨ops, h⟩ | ⟨s, h⟩ <;> cases h
  | halt v => exact fun h => by cases List.mem_singleton.1 h
  | stuck f => exact List.not_mem_nil

theorem start_not_mem_advance (frames : List Frame) (control : Control) :
    Event.start ∉ (m.advance frames control).1 := by
  cases control with
  | compute t env =>
    intro h
    rcases List.mem_append.1 h with h | h
    · obtain ⟨k, -, hk⟩ := List.mem_map.1 h
      cases hk
    · exact start_not_mem_carryOut _ _ h
  | answer v => exact start_not_mem_carryOut _ _

/-- The startup cost is not part of a course. -/
theorem start_not_mem_course (fuel : Nat) (control : Control) (frames : List Frame) :
    Event.start ∉ (m.course fuel control frames).1 := by
  induction fuel generalizing control frames with
  | zero => exact List.not_mem_nil
  | succ fuel ih =>
    have h := start_not_mem_advance (m := m) frames control
    rcases hadv : m.advance frames control with ⟨es, p⟩
    rw [hadv] at h
    cases p with
    | ended x => rw [course_succ_ended hadv]; exact h
    | going c fs =>
      rw [course_succ_going hadv]
      intro hmem
      rcases List.mem_append.1 hmem with hmem | hmem
      · exact h hmem
      · exact ih c fs hmem

/-- An evaluation succeeds with its last step only, which charges for the pending steps. -/
theorem advance_ended_ok {control : Control} {frames : List Frame} {es : List Event} {t : Term}
    (h : m.advance frames control = (es, .ended (.ok t))) : es = [.finish] := by
  cases control with
  | compute t env =>
    rcases compute_cases t env frames with ⟨c, rest, hc⟩ | ⟨f, hc⟩ <;>
    · simp only [advance, hc, carryOut, Prod.map_apply, id_eq, Prod.mk.injEq] at h
      cases h.2
  | answer v =>
    simp only [advance] at h
    cases hmove : Move.answer v frames with
    | next control frames => rw [hmove] at h; cases h
    | call fn args frames =>
      rw [hmove] at h
      simp only [carryOut] at h
      rcases hperf : m.perform fn args with ⟨es', r⟩
      rw [hperf] at h
      cases r <;> cases h
    | halt v => rw [hmove] at h; cases h; rfl
    | stuck f => rw [hmove] at h; cases h

theorem course_ok_finish {fuel : Nat} {control : Control} {frames : List Frame} {t : Term}
    (h : (m.course fuel control frames).2 = some (.ok t)) :
    ∃ es, (m.course fuel control frames).1 = es ++ [.finish] := by
  induction fuel generalizing control frames with
  | zero => cases h
  | succ fuel ih =>
    rcases hadv : m.advance frames control with ⟨es, p⟩
    cases p with
    | ended x =>
      rw [course_succ_ended hadv] at h ⊢
      cases h
      exact ⟨[], advance_ended_ok hadv⟩
    | going c fs =>
      rw [course_succ_going hadv] at h ⊢
      obtain ⟨es', hes'⟩ := ih h
      refine ⟨es ++ es', ?_⟩
      show es ++ (m.course fuel c fs).1 = _
      rw [hes', List.append_assoc]

/-! ### Runs pay for their courses -/

/-- A step, once its events have been paid for; `left` are the frames it leaves if it stops. -/
def conclude (left : List Frame) :
    Except (MachineError × Account) Account → Progress → Step
  | .error (e, a), _ => .stop (.error e) left a
  | .ok a, .going control frames => .more ⟨control, frames, a⟩
  | .ok a, .ended result => .stop result left a

/-- A run, once the events of its course have been paid for. -/
def outcome : Except (MachineError × Account) Account → Option (Except MachineError Term) →
    Option (Except MachineError Term × Account)
  | .error (e, a), _ => some (.error e, a)
  | .ok a, result => result.map (·, a)

theorem payAll_append (a : Account) (es es' : List Event) :
    m.payAll a (es ++ es') = (m.payAll a es).bind (m.payAll · es') := by
  induction es generalizing a with
  | nil => rfl
  | cons e es ih =>
    simp only [List.cons_append, payAll]
    cases m.pay a e with
    | ok a => exact ih a
    | error x => rfl

/-- The first event is paid for, and then the rest. -/
theorem payAll_cons_ok {a b : Account} {e : Event} {es : List Event}
    (h : m.payAll a (e :: es) = .ok b) : ∃ c, m.pay a e = .ok c ∧ m.payAll c es = .ok b := by
  simp only [payAll] at h
  cases hpay : m.pay a e with
  | error x => rw [hpay] at h; cases h
  | ok c => rw [hpay] at h; exact ⟨c, rfl, h⟩

theorem payAll_append_ok {a b : Account} {es es' : List Event}
    (h : m.payAll a (es ++ es') = .ok b) :
    ∃ c, m.payAll a es = .ok c ∧ m.payAll c es' = .ok b := by
  rw [payAll_append] at h
  cases hpay : m.payAll a es with
  | error x => rw [hpay] at h; cases h
  | ok c => rw [hpay] at h; exact ⟨c, rfl, h⟩

theorem payAll_ofKind (a : Account) (kind : Option StepKind) :
    m.payAll a (Event.ofKind kind) =
      match m.chargeStep kind a with
      | .ok a => .ok a
      | .error (f, a) => .error (⟨f, kind⟩, a) := by
  cases kind with
  | none => rfl
  | some k =>
    have h : m.pay a (.step k) = a.step m.costs m.slippage.val k := by
      simp only [pay, due, carry, Account.step, Account.flush]
      by_cases hs : m.slippage.val ≤ (a.count k).pendingTotal
      · simp only [if_pos hs]
      · simp only [if_neg hs]
    show m.payAll a [.step k] = _
    simp only [payAll, h, chargeStep]
    cases a.step m.costs m.slippage.val k with
    | ok a => rfl
    | error x => rfl

theorem payAll_ofMessage (a : Account) (message : Option String) :
    m.payAll a (Event.ofMessage message) = .ok (a.note message) := by
  cases message <;> rfl

/-- An available builtin is charged its price. -/
theorem charge_eq {fn : Builtin} {args : List Value} {call : Call} (a : Account)
    (hav : m.isAvailable fn = true) (hcall : fn.prepare m.semantics args = .ok call) :
    m.charge fn call a = m.pay a (.call fn args) := by
  obtain ⟨-, hcost⟩ := Bool.and_eq_true_iff.1 hav
  obtain ⟨c, hc⟩ := Option.isSome_iff_exists.1 hcost
  simp only [charge, pay, due, carry, price, hcall, hc]

/-- A call of an available builtin pays for what it says to its operands. -/
theorem callBuiltin_eq {fn : Builtin} (hav : m.isAvailable fn = true) (ops : List Value)
    (a : Account) :
    m.callBuiltin fn ops a =
      match m.payAll a (m.respond fn ops).1, (m.respond fn ops).2 with
      | .error (e, a), _ => .error (e.cause, a)
      | .ok a, .ok v => .ok (v, a)
      | .ok a, .error f => .error (f, a) := by
  unfold callBuiltin respond
  cases hcall : fn.prepare m.semantics ops with
  | error f => rfl
  | ok call =>
    simp only [charge_eq a hav hcall]
    cases hp : call.perform () with
    | error f =>
      simp only [payAll]
      cases m.pay a (.call fn ops) with
      | ok a => rfl
      | error x => rfl
    | ok reply =>
      simp only [payAll]
      cases m.pay a (.call fn ops) with
      | ok a => simp only [payAll_ofMessage]
      | error x => rfl

theorem invoke_eq (fn : Builtin) (args : List Value) (a : Account) :
    m.invoke fn args a =
      match m.payAll a (m.perform fn args).1, (m.perform fn args).2 with
      | .error (e, a), _ => .error (e.cause, a)
      | .ok a, .ok v => .ok (v, a)
      | .ok a, .error f => .error (f, a) := by
  unfold invoke perform
  by_cases hav : m.isAvailable fn = true
  · rw [if_pos hav, if_pos hav]
    cases Value.operands args with
    | ok ops => exact callBuiltin_eq hav ops a
    | error f => rfl
  · rw [if_neg hav, if_neg hav]
    rfl

/-- A failure to pay happens at one event, with all before it paid for. -/
theorem payAll_error_split {a b : Account} {es : List Event} {e : MachineError}
    (h : m.payAll a es = .error (e, b)) :
    ∃ es₁ ev es₂ c f, es = es₁ ++ ev :: es₂ ∧ m.payAll a es₁ = .ok c ∧
      m.pay c ev = .error (f, b) ∧ e = ⟨f, ev.kind?⟩ := by
  induction es generalizing a with
  | nil => simp [payAll] at h
  | cons ev es ih =>
    simp only [payAll] at h
    cases hpay : m.pay a ev with
    | ok c =>
      rw [hpay] at h
      obtain ⟨es₁, ev', es₂, d, f, rfl, h₁, h₂, h₃⟩ := ih h
      exact ⟨ev :: es₁, ev', es₂, d, f, rfl, by simpa only [payAll, hpay] using h₁, h₂, h₃⟩
    | error x =>
      simp only [hpay, Except.error.injEq, Prod.mk.injEq] at h
      obtain ⟨rfl, rfl⟩ := h
      exact ⟨[], ev, es, a, x.1, rfl, rfl, hpay, rfl⟩

/-- No event of a call is a step. -/
theorem kind?_of_mem_perform {fn : Builtin} {args : List Value} {ev : Event}
    (h : ev ∈ (m.perform fn args).1) : ev.kind? = none := by
  rcases mem_perform h with ⟨ops, rfl⟩ | ⟨s, rfl⟩ <;> rfl

/-- Handing a value to a frame pays for its events. -/
theorem follow_none_eq (left : List Frame) (a : Account) (move : Move) :
    m.follow none left a move =
      conclude left (m.payAll a (m.carryOut none move).1) (m.carryOut none move).2 := by
  cases move with
  | next control frames => rfl
  | call fn args frames =>
    simp only [follow, carryOut, invoke_eq]
    rcases hperf : m.perform fn args with ⟨es, r⟩
    cases hpay : m.payAll a es with
    | error x =>
      obtain ⟨e, b⟩ := x
      have hstep : e.step = none := by
        obtain ⟨es₁, ev, es₂, c, f, hes, -, -, rfl⟩ := payAll_error_split hpay
        have hev : ev ∈ (m.perform fn args).1 := by rw [hperf, hes]; simp
        exact kind?_of_mem_perform hev
      cases r <;> simp only [hpay, conclude, ← hstep]
    | ok b => cases r <;> simp only [hpay, conclude]
  | halt v =>
    simp only [follow, carryOut, payAll, pay, due, carry, Account.flush]
    cases a.settle.spend (Account.pendingCost m.costs a.pending) with
    | ok b => rfl
    | error x => rfl
  | stuck f => rfl

theorem step_eq (a : Account) (control : Control) (frames : List Frame) :
    m.step ⟨control, frames, a⟩ =
      conclude (RunState.left ⟨control, frames, a⟩) (m.payAll a (m.advance frames control).1)
        (m.advance frames control).2 := by
  cases control with
  | answer v => exact follow_none_eq _ a _
  | compute t env =>
    rcases compute_cases t env frames with ⟨c, rest, h⟩ | ⟨f, h⟩ <;>
    · simp only [step, advance, h, follow, carryOut, Prod.map_fst, Prod.map_snd, id_eq,
        List.append_nil, payAll_ofKind]
      cases m.chargeStep (StepKind.of? t) a <;> rfl

theorem resume_eq (fuel : Nat) (a : Account) (control : Control) (frames : List Frame) :
    m.resume fuel ⟨control, frames, a⟩ =
      outcome (m.payAll a (m.course fuel control frames).1) (m.course fuel control frames).2 := by
  induction fuel generalizing a control frames with
  | zero => rfl
  | succ fuel ih =>
    simp only [resume_succ, course, step_eq]
    rcases m.advance frames control with ⟨es, p⟩
    cases p with
    | ended result => cases m.payAll a es <;> rfl
    | going control frames =>
      simp only [Prod.map_fst, Prod.map_snd, id_eq, payAll_append]
      cases hpay : m.payAll a es with
      | error x => simp only [conclude, outcome, Except.bind]
      | ok b => simpa only [conclude, Except.bind] using ih b control frames

/-- **A run pays for its course.** -/
theorem run_eq (fuel : Nat) (t : Term) (a : Account) :
    m.run fuel t a =
      outcome (m.payAll a (.start :: (m.course fuel (.compute t []) []).1))
        (m.course fuel (.compute t []) []).2 := by
  simp only [run_eq_resume, payAll, pay, due, carry]
  cases a.settle.spend m.costs.startup with
  | ok b => exact resume_eq fuel b _ _
  | error x => rfl

end Machine

end PlutusCek
