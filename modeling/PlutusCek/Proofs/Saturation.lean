import PlutusCek.Proofs.Heredity

/-!
# Proofs.Saturation — builtins are called when they have all they need, and not before

A builtin that is kept as a value counts its forces and arguments, and keeps the arguments.  In
every state of every run it keeps as many as it has counted, and still needs something: it has no
argument before all of its forces, and not all of its arguments (`Shape.disciplined`).  So a builtin
is called only by the application that gives it its last argument, with all of its forces.  What it
keeps then fits the operand buffer and is read back in the order of application, as many operands as
its table entry says.  No count wraps, no builtin is given an argument too many, and no call is
malformed (`Machine.run_disciplined`).
-/

namespace PlutusCek

namespace Builtin

/-- A partial builtin that needs no force has all of its forces. -/
theorem Partial.forces_eq {fn : Builtin} {forces count kept : Nat}
    (h : fn.Partial forces count kept) (hneeds : Value.needsForce fn forces = false) :
    forces = fn.forceCount := by
  have hge : ¬ forces < fn.forceCount := of_decide_eq_false hneeds
  have hle := h.forces_le
  omega

end Builtin

/-- The shape of the values of all programs: builtins keep what they have counted, and need a force
or an argument. -/
def Shape.disciplined : Shape where
  constant _ := True
  body _ _ := True
  builtin := Builtin.Partial
  constr := True

theorem Shape.inherited_disciplined : Shape.disciplined.Inherited where
  lambda _ := trivial
  apply _ := ⟨trivial, trivial⟩
  delay _ := trivial
  force _ := trivial
  constant _ := trivial
  fields _ _ _ := trivial
  branches _ := ⟨trivial, fun _ _ => trivial⟩
  constr := trivial
  builtin := Builtin.partial_zero
  forced h hneeds := Builtin.Partial.force h hneeds
  applied h hneeds hsat := Builtin.Partial.of_not_isSaturated h hneeds hsat
  reply _ _ := trivial

/-! ### Calls -/

namespace Move

variable {fn : Builtin} {args : List Value} {frames rest : List Frame}

/-- An application that calls a builtin gives it its last argument. -/
theorem apply_call {f a : Value} (hf : f.Meets .disciplined)
    (h : apply f a rest = .call fn args frames) :
    ∃ earlier, f = .builtin fn fn.forceCount earlier.length earlier ∧ frames = rest ∧
      args = a :: earlier ∧ args.length = fn.arity := by
  cases f with
  | builtin g forces count earlier =>
    have hg : g.Partial forces count earlier.length := hf.1
    rw [apply_builtin] at h
    split at h
    · cases h
    · rename_i hneeds
      have hneeds : Value.needsForce g forces = false := Bool.not_eq_true _ ▸ hneeds
      split at h
      · cases h
      · unfold ofBuiltin at h
        split at h
        · rename_i hsat
          cases h
          obtain rfl := hg.forces_eq hneeds
          rcases hg.apply hneeds with ⟨-, hlen⟩ | ⟨hnot, -⟩
          · obtain rfl := hg.kept_eq
            exact ⟨earlier, rfl, rfl, rfl, hlen⟩
          · rw [hsat] at hnot
            cases hnot
        · cases h
  | _ => cases h

/-- A force calls no builtin: there is no argument yet. -/
theorem force_ne_call {v : Value} (hv : v.Meets .disciplined) :
    force v rest ≠ .call fn args frames := by
  cases v with
  | builtin g forces count earlier =>
    have hg : g.Partial forces count earlier.length := hv.1
    rw [force_builtin]
    split
    · unfold ofBuiltin
      rw [Builtin.isSaturated_of_lt hg.count_lt]
      simp
    · simp
  | _ => simp [force]

theorem select_ne_call {env : Env} {terms : List Term} {v : Value} :
    select env terms v rest ≠ .call fn args frames := by
  cases v with
  | constr tag fields =>
    simp only [select]
    split
    · simp
    · split <;> simp
  | _ => simp [select]

end Move

/-- The term of a builtin is that of no other value. -/
theorem Value.eq_builtin_of_toTerm {v : Value} {fn : Builtin} {forces count : Nat}
    {args : List Value} (h : v.toTerm = (Value.builtin fn forces count args).toTerm) :
    ∃ fn forces count args, v = .builtin fn forces count args := by
  -- the other terms do not start with a force, an application or a builtin
  have hhead : (∃ b, Term.forced forces (.builtin fn) = .force b) ∨
      Term.forced forces (.builtin fn) = .builtin fn := by
    cases forces with
    | zero => exact .inr rfl
    | succ n => exact .inl ⟨_, rfl⟩
  have hterm : (∃ g b, v.toTerm = .apply g b) ∨ (∃ b, v.toTerm = .force b) ∨
      v.toTerm = .builtin fn := by
    rw [h, toTerm]
    split
    · cases args with
      | cons a earlier => exact .inl ⟨_, _, rfl⟩
      | nil => exact .inr hhead
    · exact .inr hhead
  cases v with
  | builtin fn forces count args => exact ⟨fn, forces, count, args, rfl⟩
  | _ => rcases hterm with ⟨_, _, h⟩ | ⟨_, h⟩ | h <;> cases h

namespace RunState

variable {s : RunState} {fn : Builtin} {args : List Value} {rest : List Frame}

theorem Meets.function {S : Shape} {f a : Value} (hs : s.Meets S) (h : s.Applies f a rest) :
    f.Meets S := by
  have hcontrol := hs.control
  have hframes := hs.frames
  rcases h with ⟨-, hf⟩ | ⟨hf, -⟩
  · rw [hf] at hframes
    exact hframes _ List.mem_cons_self
  · rw [hf] at hcontrol
    exact hcontrol

/-- A state that calls a builtin has just given it its last argument. -/
theorem Meets.call (hs : s.Meets .disciplined) (hcall : s.move = .call fn args rest) :
    ∃ earlier a, s.Applies (.builtin fn fn.forceCount earlier.length earlier) a rest ∧
      args = a :: earlier ∧ args.length = fn.arity := by
  have hturn := s.turn
  rw [hcall] at hturn
  cases hturn with
  | apply happlies h =>
    obtain ⟨earlier, rfl, rfl, hargs⟩ := Move.apply_call (hs.function happlies) h
    exact ⟨earlier, _, happlies, hargs⟩
  | force hcontrol h =>
    have hv := hs.control
    rw [hcontrol] at hv
    exact absurd h (Move.force_ne_call hv)
  | select _ h => exact absurd h Move.select_ne_call

/-- No builtin is refused as a function: what it has got does not saturate it. -/
theorem Meets.move_ne_notFunction (hs : s.Meets .disciplined) (fn : Builtin) (forces count : Nat)
    (args : List Value) :
    s.move ≠ .stuck (.notFunction (Value.builtin fn forces count args).toTerm) := by
  intro hstuck
  cases RunState.stuck hstuck with
  | notFunction happlies hterm hfull =>
    obtain ⟨g, k, n, earlier, rfl⟩ := Value.eq_builtin_of_toTerm hterm.symm
    have hg := (hs.function happlies).1
    have hsat := hfull g k n earlier rfl
    rw [Builtin.isSaturated_of_lt (Builtin.Partial.count_lt hg)] at hsat
    cases hsat

/-- No count of forces or arguments wraps. -/
theorem move_ne_corrupt (s : RunState) (fault : Fault) : s.move ≠ .stuck (.corrupt fault) := by
  intro hstuck
  cases RunState.stuck hstuck

end RunState

namespace Machine

variable {m : Machine} {t : Term} {fuel : Nat} {a b : Account}

theorem disciplined_states : ∀ s ∈ m.states fuel t a, s.Meets .disciplined :=
  meets_states Shape.inherited_disciplined trivial

theorem run_ne_malformedCall {e : MachineError} (h : m.run fuel t a = some (.error e, b)) :
    e.cause ≠ .malformedCall := by
  refine run_cause_ne (fun rest hf => by cases hf) (fun s _ hstuck => ?_)
    (fun s hmem fn args frames hcall hperf => ?_) h
  · cases RunState.stuck hstuck
  · obtain ⟨-, -, -, -, hlen⟩ := (disciplined_states s hmem).call hcall
    cases perform_error hperf with
    | malformed hne => exact hne hlen

/-- No run fails because a count has wrapped or the operand buffer is full. -/
theorem run_ne_corrupt {e : MachineError} (h : m.run fuel t a = some (.error e, b))
    (fault : Fault) : e.cause ≠ .corrupt fault := by
  refine run_cause_ne (fun rest hf => by cases hf) (fun s _ => s.move_ne_corrupt fault)
    (fun s hmem fn args frames hcall hperf => ?_) h
  obtain ⟨-, -, -, -, hlen⟩ := (disciplined_states s hmem).call hcall
  cases perform_error hperf with
  | corrupt hover => exact hover (hlen ▸ fn.arity_le)

theorem run_ne_notFunction {e : MachineError} (h : m.run fuel t a = some (.error e, b))
    (fn : Builtin) (forces count : Nat) (args : List Value) :
    e.cause ≠ .notFunction (Value.builtin fn forces count args).toTerm := by
  refine run_cause_ne (fun rest hf => by cases hf) (fun s hmem => ?_) (fun s _ fn args _ _ => ?_) h
  · exact (disciplined_states s hmem).move_ne_notFunction fn forces count args
  · intro hperf
    cases perform_error hperf

/-- **Builtins are called when saturated.**  Take any term, machine, account and number of steps.
In every state of the run each builtin that is kept as a value, wherever it is kept, keeps as many
arguments as it has counted, has no more forces than it takes, no argument before all of its forces,
and not all of its arguments.  A state calls a builtin only if it applies the builtin, with all of
its forces, to the last argument; the operands are then read into the buffer of six places, and are
the arguments in the order of application, as many as the builtin takes.  No builtin is refused as a
function, no count wraps, the buffer never overflows, and no call is malformed, for a preparation
finds the number of operands wrong exactly if it is not the one in the table. -/
theorem run_disciplined (m : Machine) (t : Term) (a : Account) (fuel : Nat) :
    (∀ s ∈ m.states fuel t a, s.Meets .disciplined ∧
      (∀ fn args rest, s.move = .call fn args rest → ∃ earlier v,
        s.Applies (.builtin fn fn.forceCount earlier.length earlier) v rest ∧
          args = v :: earlier ∧ Value.operands args = .ok (earlier.reverse ++ [v]) ∧
          (earlier.reverse ++ [v]).length = fn.arity ∧ args.length ≤ Builtin.maxArity) ∧
      (∀ fn forces count args,
        s.move ≠ .stuck (.notFunction (Value.builtin fn forces count args).toTerm)) ∧
      ∀ fault, s.move ≠ .stuck (.corrupt fault)) ∧
    (∀ e b, m.run fuel t a = some (.error e, b) → e.cause ≠ .malformedCall ∧
      (∀ fault, e.cause ≠ .corrupt fault) ∧
      ∀ fn forces count args,
        e.cause ≠ .notFunction (Value.builtin fn forces count args).toTerm) ∧
    ∀ semantics fn ops,
      Builtin.prepare semantics fn ops = .error .malformedCall ↔ ops.length ≠ fn.arity := by
  refine ⟨fun s hmem => ?_, fun e b h => ?_, fun semantics fn ops => ?_⟩
  · have hs : s.Meets .disciplined := disciplined_states s hmem
    refine ⟨hs, fun fn args rest hcall => ?_, hs.move_ne_notFunction, s.move_ne_corrupt⟩
    obtain ⟨earlier, v, happlies, rfl, hlen⟩ := hs.call hcall
    have hfits : (v :: earlier).length ≤ Builtin.maxArity := hlen ▸ fn.arity_le
    refine ⟨earlier, v, happlies, rfl, ?_, ?_, hfits⟩
    · rw [Value.operands_of_length_le hfits, List.reverse_cons]
    · rw [← List.reverse_cons, List.length_reverse, hlen]
  · exact ⟨run_ne_malformedCall h, run_ne_corrupt h, run_ne_notFunction h⟩
  · exact (fn.contract semantics).malformed_iff

end Machine

end PlutusCek
