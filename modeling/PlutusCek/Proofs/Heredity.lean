import PlutusCek.Proofs.Conformance
import PlutusCek.Proofs.Shape
import PlutusCek.Proofs.States

/-!
# Proofs.Heredity — shapes that every state of a run inherits

A state has a shape if every value in it has: the value it answers, the values captured by its
closures, and those its frames keep; and if every term it has still to compute suits the number of
values of its environment.  If a shape passes from a term to its parts, from a builtin to the
builtin with one more force or argument, and to what a call replies, then a move keeps it
(`RunState.Meets.move`) and so does a step; a shape that constructors do not have is kept as long as
none is put together (`RunState.Meets.move_of_fields`).  Hence it holds in every state of a run
whose term it suits (`Machine.meets_states`), and what the run comes to or fails with is the term of
a value that has it (`Machine.run_ok_meets`, `Machine.run_error_meets`).
-/

namespace PlutusCek

/-- Every part of the frame has the shape. -/
def Frame.Meets (S : Shape) : Frame → Prop
  | .argumentTerm env argument => S.body env.length argument ∧ Value.MeetsAll S env
  | .argumentOf function => function.Meets S
  | .argumentValue argument => argument.Meets S
  | .force => True
  | .field env _ remaining done =>
    (∀ t ∈ remaining, S.body env.length t) ∧ Value.MeetsAll S env ∧ Value.MeetsAll S done
  | .branches env terms => (∀ t ∈ terms, S.body env.length t) ∧ Value.MeetsAll S env

/-- The term and its environment, or the value, have the shape. -/
def Control.Meets (S : Shape) : Control → Prop
  | .compute t env => S.body env.length t ∧ Value.MeetsAll S env
  | .answer v => v.Meets S

/-- Every part of the state has the shape. -/
structure RunState.Meets (S : Shape) (s : RunState) : Prop where
  control : s.control.Meets S
  frames : ∀ f ∈ s.frames, f.Meets S

/-- What a move leads to has the shape.  A term that a failure carries is that of a value with the
shape. -/
def Move.Meets (S : Shape) : Move → Prop
  | .next control frames => control.Meets S ∧ ∀ f ∈ frames, f.Meets S
  | .call _ args frames => (∀ a ∈ args, a.Meets S) ∧ ∀ f ∈ frames, f.Meets S
  | .halt v => v.Meets S
  | .stuck f => ∀ u, f.term? = some u → ∃ v : Value, v.Meets S ∧ u = v.toTerm

/-- A shape that evaluation hands on: from a term to its parts, from a builtin to the builtin with
more, and to the constant a call replies. -/
structure Shape.Hereditary (S : Shape) : Prop where
  lambda : ∀ {n body}, S.body n (.lambda body) → S.body (n + 1) body
  apply : ∀ {n f a}, S.body n (.apply f a) → S.body n f ∧ S.body n a
  delay : ∀ {n body}, S.body n (.delay body) → S.body n body
  force : ∀ {n body}, S.body n (.force body) → S.body n body
  constant : ∀ {n c}, S.body n (.constant c) → S.constant c
  fields : ∀ {n tag ts}, S.body n (.constr tag ts) → ∀ t ∈ ts, S.body n t
  branches : ∀ {n s ts}, S.body n (.case s ts) → S.body n s ∧ ∀ t ∈ ts, S.body n t
  constructs : ∀ {n tag ts}, S.body n (.constr tag ts) → S.constr
  builtin : ∀ fn, S.builtin fn 0 0 0
  forced : ∀ {fn forces count kept}, S.builtin fn forces count kept →
    Value.needsForce fn forces = true → S.builtin fn (forces + 1) count kept
  applied : ∀ {fn forces count kept}, S.builtin fn forces count kept →
    Value.needsForce fn forces = false → Value.isSaturated fn forces (count + 1) = false →
    S.builtin fn forces (count + 1) (kept + 1)
  reply : ∀ {args c}, (∀ d, Value.con d ∈ args → S.constant d) →
    (Call.Typed args → c.WellTyped) → S.constant c

/-- A shape that is handed on, and that any constructor may have. -/
structure Shape.Inherited (S : Shape) : Prop extends Shape.Hereditary S where
  constr : S.constr
  constructs := fun _ => constr

variable {S : Shape} {frames : List Frame}

/-! ### Moves -/

namespace Move

theorem meets_stuck {f : Failure} (h : f.term? = none) : (stuck f).Meets S := by
  intro u hu
  rw [h] at hu
  cases hu

section

variable (hframes : ∀ f ∈ frames, f.Meets S)
include hframes

/-- The frames with one more on top. -/
theorem meets_push {c : Control} {f : Frame} (hc : c.Meets S) (hf : f.Meets S) :
    (next c (f :: frames)).Meets S :=
  ⟨hc, List.forall_mem_cons.2 ⟨hf, hframes⟩⟩

/-- A builtin that has got all it needs is called; one that has not is a value. -/
theorem meets_ofBuiltin {fn : Builtin} {forces count : Nat} {args : List Value}
    (hfn : Value.isSaturated fn forces count = false → S.builtin fn forces count args.length)
    (hargs : Value.MeetsAll S args) : (ofBuiltin fn forces count args frames).Meets S := by
  unfold ofBuiltin
  split
  · exact ⟨Value.meetsAll_iff.1 hargs, hframes⟩
  · rename_i hsat
    exact ⟨⟨hfn (Bool.not_eq_true _ ▸ hsat), hargs⟩, hframes⟩

theorem meets_select {env : Env} {terms : List Term} {v : Value}
    (hterms : ∀ t ∈ terms, S.body env.length t) (henv : Value.MeetsAll S env) (hv : v.Meets S) :
    (select env terms v frames).Meets S := by
  cases v with
  | constr tag fields =>
    simp only [select]
    split
    · exact meets_stuck rfl
    · split
      · rename_i branch hbranch
        refine ⟨⟨hterms branch (List.mem_of_getElem? hbranch), henv⟩, fun f hf => ?_⟩
        -- the fields wait on top of the frames
        rcases List.mem_append.1 hf with hf | hf
        · obtain ⟨a, ha, rfl⟩ := List.mem_map.1 hf
          exact Value.meetsAll_iff.1 hv.2 a ha
        · exact hframes f hf
      · exact meets_stuck rfl
  | _ =>
    intro u hu
    cases hu
    exact ⟨_, hv, rfl⟩

variable (hS : S.Hereditary)
include hS

theorem meets_compute {t : Term} {env : Env} (ht : S.body env.length t)
    (henv : Value.MeetsAll S env) : (compute t env frames).Meets S := by
  cases t with
  | var i =>
    simp only [compute]
    cases hv : env.lookup? i with
    | none => exact meets_stuck rfl
    | some v =>
      refine ⟨?_, hframes⟩
      cases i with
      | zero => cases hv
      | succ i => exact Value.meetsAll_iff.1 henv v (List.mem_of_getElem? hv)
  | lambda body => exact ⟨⟨hS.lambda ht, henv⟩, hframes⟩
  | apply f a =>
    obtain ⟨hf, ha⟩ := hS.apply ht
    exact meets_push hframes ⟨hf, henv⟩ ⟨ha, henv⟩
  | delay body => exact ⟨⟨hS.delay ht, henv⟩, hframes⟩
  | force body => exact meets_push hframes ⟨hS.force ht, henv⟩ trivial
  | constant c => exact ⟨hS.constant ht, hframes⟩
  | error => exact meets_stuck rfl
  | builtin fn => exact ⟨⟨hS.builtin fn, trivial⟩, hframes⟩
  | constr tag ts =>
    have hts := hS.fields ht
    cases ts with
    | nil => exact ⟨⟨hS.constructs ht, trivial⟩, hframes⟩
    | cons u us =>
      obtain ⟨hu, hus⟩ := List.forall_mem_cons.1 hts
      exact meets_push hframes ⟨hu, henv⟩ ⟨hus, henv, trivial⟩
  | case s ts =>
    obtain ⟨hs, hts⟩ := hS.branches ht
    exact meets_push hframes ⟨hs, henv⟩ ⟨hts, henv⟩

theorem meets_apply {f a : Value} (hf : f.Meets S) (ha : a.Meets S) :
    (apply f a frames).Meets S := by
  cases f with
  | lambda body env =>
    obtain ⟨hbody, henv⟩ := hf
    exact ⟨⟨hbody, ha, henv⟩, hframes⟩
  | builtin fn forces count args =>
    obtain ⟨hfn, hargs⟩ := hf
    rw [apply_builtin]
    split
    · exact meets_stuck rfl
    · rename_i hneeds
      split
      · intro u hu
        cases hu
        exact ⟨.builtin fn forces count args, ⟨hfn, hargs⟩, rfl⟩
      · refine meets_ofBuiltin hframes (fun hsat => ?_) ⟨ha, hargs⟩
        exact hS.applied hfn (Bool.not_eq_true _ ▸ hneeds) hsat
  | _ =>
    intro u hu
    cases hu
    exact ⟨_, hf, rfl⟩

theorem meets_force {v : Value} (hv : v.Meets S) : (force v frames).Meets S := by
  cases v with
  | delay body env => exact ⟨hv, hframes⟩
  | builtin fn forces count args =>
    obtain ⟨hfn, hargs⟩ := hv
    rw [force_builtin]
    split
    · rename_i hneeds
      exact meets_ofBuiltin hframes (fun _ => hS.forced hfn hneeds) hargs
    · exact meets_stuck rfl
  | _ =>
    intro u hu
    cases hu
    exact ⟨_, hv, rfl⟩

end

theorem meets_answer (hS : S.Hereditary) {v : Value} (hv : v.Meets S)
    (hframes : ∀ f ∈ frames, f.Meets S)
    (hfields : ∀ env tag ts vs, Frame.field env tag ts vs ∈ frames → S.constr) :
    (answer v frames).Meets S := by
  cases frames with
  | nil => exact hv
  | cons f rest =>
    obtain ⟨hf, hrest⟩ := List.forall_mem_cons.1 hframes
    cases f with
    | argumentTerm env a => exact meets_push hrest hf hv
    | argumentOf g => exact meets_apply hrest hS hf hv
    | argumentValue a => exact meets_apply hrest hS hv hf
    | force => exact meets_force hrest hS hv
    | field env tag remaining done =>
      obtain ⟨hterms, henv, hdone⟩ := hf
      cases remaining with
      | nil =>
        have hconstr : S.constr := hfields _ _ _ _ List.mem_cons_self
        refine ⟨⟨hconstr, Value.meetsAll_iff.2 fun w hw => ?_⟩, hrest⟩
        rcases List.mem_cons.1 (List.mem_reverse.1 hw) with rfl | hw
        · exact hv
        · exact Value.meetsAll_iff.1 hdone w hw
      | cons t ts =>
        obtain ⟨ht, hts⟩ := List.forall_mem_cons.1 hterms
        exact meets_push hrest ⟨ht, henv⟩ ⟨hts, henv, hv, hdone⟩
    | branches env terms => exact meets_select hrest hf.1 hf.2 hv

end Move

/-- A state hands its shape on to its move, if constructors have the shape or none is being put
together. -/
theorem RunState.Meets.move_of_fields {s : RunState} (hS : S.Hereditary) (h : s.Meets S)
    (hfields : ∀ env tag ts vs, Frame.field env tag ts vs ∈ s.frames → S.constr) :
    s.move.Meets S := by
  obtain ⟨control, frames, account⟩ := s
  cases control with
  | compute t env => exact Move.meets_compute h.frames hS h.control.1 h.control.2
  | answer v => exact Move.meets_answer hS h.control h.frames hfields

/-- A state hands its shape on to its move. -/
theorem RunState.Meets.move {s : RunState} (hS : S.Inherited) (h : s.Meets S) :
    s.move.Meets S :=
  h.move_of_fields hS.toHereditary fun _ _ _ _ _ => hS.constr

/-! ### Calls -/

namespace Machine

variable {m : Machine} {fn : Builtin} {args ops : List Value}

/-- A builtin responds with one of its operands, or with a constant. -/
theorem respond_ok {v : Value} (h : (m.respond fn ops).2 = .ok v) :
    v ∈ ops ∨ ∃ c, v = .con c ∧ (Call.Typed ops → c.WellTyped) := by
  unfold respond at h
  cases hprep : fn.prepare m.semantics ops with
  | error f =>
    rw [hprep] at h
    cases h
  | ok call =>
    rw [hprep] at h
    have hkeeps := ((fn.contract m.semantics).of_ok hprep).2
    cases hperf : call.perform () with
    | error f =>
      simp only [hperf] at h
      cases h
    | ok r =>
      simp only [hperf] at h
      cases h
      exact hkeeps.reply hperf

/-- A call that comes to something is a response to its operands. -/
theorem perform_ok {v : Value} (h : (m.perform fn args).2 = .ok v) :
    ∃ ops, Value.operands args = .ok ops ∧ (m.respond fn ops).2 = .ok v := by
  rcases perform_cases (m := m) fn args with ⟨ops, -, hops, heq⟩ | ⟨-, heq⟩ | ⟨f, -, heq⟩
  · exact ⟨ops, hops, heq ▸ h⟩
  · rw [heq] at h
    cases h
  · rw [heq] at h
    cases h

/-- How a call fails. -/
inductive CallFails (m : Machine) (fn : Builtin) (args : List Value) : Failure → Prop
  | unavailable (hav : m.isAvailable fn = false) :
    CallFails m fn args (.unavailable fn m.language m.protocol)
  | corrupt (hlen : ¬ args.length ≤ Builtin.maxArity) : CallFails m fn args (.corrupt .operands)
  | malformed (hlen : args.length ≠ fn.arity) : CallFails m fn args .malformedCall
  | mismatch (wanted got : String) : CallFails m fn args (.typeMismatch wanted got)
  | notConstant {v : Value} (hv : v ∈ args) (wanted : String) :
    CallFails m fn args (.notConstant wanted v.toTerm)
  | refused (why : Refusal) : CallFails m fn args (.refused fn why)

theorem respond_error {f : Failure} (h : (m.respond fn args.reverse).2 = .error f) :
    m.CallFails fn args f := by
  have hcontract := fn.contract m.semantics
  unfold respond at h
  cases hprep : fn.prepare m.semantics args.reverse with
  | error g =>
    rw [hprep] at h
    cases h
    rcases hcontract.of_error hprep with ⟨-, hreject⟩ | ⟨hlen, rfl⟩
    · cases hreject with
      | mismatch wanted got => exact .mismatch wanted got
      | notConstant hv wanted => exact .notConstant (List.mem_reverse.1 hv) wanted
      | refused why => exact .refused why
    · exact .malformed (by rwa [List.length_reverse] at hlen)
  | ok call =>
    rw [hprep] at h
    cases hperf : call.perform () with
    | error g =>
      simp only [hperf] at h
      cases h
      cases (hcontract.of_ok hprep).2.failure hperf with
      | refused why => exact .refused why
      | mismatch _ wanted got => exact .mismatch wanted got
    | ok r =>
      simp only [hperf] at h
      cases h

theorem perform_error {f : Failure} (h : (m.perform fn args).2 = .error f) :
    m.CallFails fn args f := by
  rcases perform_cases (m := m) fn args with ⟨ops, -, hops, heq⟩ | ⟨hav, heq⟩ | ⟨g, hops, heq⟩
  · obtain ⟨rfl, -⟩ := Value.eq_reverse_of_operands hops
    exact respond_error (heq ▸ h)
  · rw [heq] at h
    cases h
    exact .unavailable hav
  · rw [heq] at h
    cases h
    obtain ⟨rfl, hlen⟩ := Value.eq_corrupt_of_operands hops
    exact .corrupt hlen

/-- The reply of a call inherits the shape of the arguments. -/
theorem meets_perform (hS : S.Hereditary) {v : Value} (hargs : ∀ a ∈ args, a.Meets S)
    (h : (m.perform fn args).2 = .ok v) : v.Meets S := by
  obtain ⟨ops, hops, hresponse⟩ := perform_ok h
  obtain ⟨rfl, -⟩ := Value.eq_reverse_of_operands hops
  have hmeets : ∀ a ∈ args.reverse, a.Meets S := fun a ha => hargs a (List.mem_reverse.1 ha)
  rcases respond_ok hresponse with hmem | ⟨c, rfl, hc⟩
  · exact hmeets v hmem
  · exact hS.reply (fun d hd => hmeets _ hd) hc

/-- The term a failed call carries is that of an argument. -/
theorem CallFails.term {f : Failure} {u : Term} (h : m.CallFails fn args f)
    (hu : f.term? = some u) : ∃ v ∈ args, u = v.toTerm := by
  cases h with
  | notConstant hv wanted =>
    cases hu
    exact ⟨_, hv, rfl⟩
  | _ => cases hu

/-! ### Runs -/

variable {t : Term} {fuel : Nat} {a b : Account}

/-- A step leads to a state with the shape of the move. -/
theorem meets_step_of_move (hS : S.Hereditary) {s s' : RunState} (hmove : s.move.Meets S)
    (hstep : m.step s = .more s') : s'.Meets S := by
  rcases step_more hstep with hnext | ⟨fn, args, v, hcall, hperf, hcontrol⟩
  · rw [hnext] at hmove
    exact ⟨hmove.1, hmove.2⟩
  · rw [hcall] at hmove
    refine ⟨?_, hmove.2⟩
    rw [hcontrol]
    exact meets_perform hS hmove.1 hperf

section Inherited

variable (hS : S.Inherited)
include hS

/-- One step hands the shape on. -/
theorem meets_step {s s' : RunState} (h : s.Meets S) (hstep : m.step s = .more s') :
    s'.Meets S :=
  meets_step_of_move hS.toHereditary (h.move hS) hstep

variable (ht : S.body 0 t)
include ht

/-- **Every state of a run has an inherited shape** that suits its term. -/
theorem meets_states : ∀ s ∈ m.states fuel t a, s.Meets S := by
  refine states_induction (fun b => ?_) (meets_step hS)
  refine ⟨⟨ht, trivial⟩, fun f hf => ?_⟩
  cases hf

/-- The result of a run is the term of a value that has the shape. -/
theorem run_ok_meets {r : Term} (h : m.run fuel t a = some (.ok r, b)) :
    ∃ v : Value, v.Meets S ∧ r = v.toTerm := by
  obtain ⟨s, hmem, v, hhalt, rfl⟩ := run_ok_cases h
  have hmove := (meets_states hS ht s hmem).move hS
  rw [hhalt] at hmove
  exact ⟨v, hmove, rfl⟩

/-- The term that a failure carries is that of a value that has the shape. -/
theorem run_error_meets {e : MachineError} {u : Term}
    (h : m.run fuel t a = some (.error e, b)) (hu : e.cause.term? = some u) :
    ∃ v : Value, v.Meets S ∧ u = v.toTerm := by
  rcases run_error_cases h with ⟨rest, hcause⟩ | ⟨s, hmem, hlast⟩
  · rw [hcause] at hu
    cases hu
  · have hmove := (meets_states hS ht s hmem).move hS
    rcases hlast with hstuck | ⟨fn, args, frames, hcall, hperf⟩
    · rw [hstuck] at hmove
      exact hmove u hu
    · rw [hcall] at hmove
      obtain ⟨v, hv, rfl⟩ := (perform_error hperf).term hu
      exact ⟨v, hmove.1 v hv, rfl⟩

end Inherited

end Machine

end PlutusCek
