import PlutusCek.Proofs.Reference
import PlutusCek.Proofs.Saturation

/-!
# Proofs.NormalForm — the result of a run is a normal form

The term of a value is computed by moves that only take it apart and put it together again.  Its
closures have nothing left to capture, and its builtins still need something, so none of them is
entered or called (`Value.stable`).  Such an evaluation is the same on every machine.  A run of the
result of a run therefore returns that result, or is overdrawn on the way; it calls nothing and logs
nothing (`Machine.run_normal`).
-/

namespace PlutusCek

/-- The move of a control on top of frames. -/
def Control.move (control : Control) (frames : List Frame) : Move :=
  match control with
  | .compute t env => Move.compute t env frames
  | .answer v => Move.answer v frames

/-- The evaluation comes to the value `w`, and calls no builtin. -/
inductive Settles (w : Value) : Control → List Frame → Prop
  | done : Settles w (.answer w) []
  | next {c c' : Control} {fs fs' : List Frame} (hmove : c.move fs = .next c' fs')
    (h : Settles w c' fs') : Settles w c fs

/-- Computing the term of the value comes to what handing over the value comes to, whatever frames
wait for it.  Only the values it has captured are gone. -/
def Value.Stable (v : Value) : Prop :=
  ∀ w K, Settles w (.answer v.discharged) K → Settles w (.compute v.toTerm []) K

/-! ### Value terms -/

namespace Settles

variable {w : Value} {K : List Frame} {fn : Builtin}

/-- A builtin takes its forces one by one. -/
theorem forced {n : Nat} (hn : n ≤ fn.forceCount)
    (h : Settles w (.answer (.builtin fn n 0 [])) K) :
    Settles w (.compute (Term.forced n (.builtin fn)) []) K := by
  induction n generalizing K with
  | zero => exact .next rfl h
  | succ n ih =>
    have hneeds : Value.needsForce fn n = true := decide_eq_true hn
    have hsat : Value.isSaturated fn (n + 1) 0 = false :=
      Builtin.isSaturated_of_lt fn.arity_pos (n + 1)
    have hforce : Move.force (.builtin fn n 0 []) K =
        .next (.answer (.builtin fn (n + 1) 0 [])) K := by
      simp only [Move.force_builtin, Move.ofBuiltin, hneeds, hsat, if_true, Bool.false_eq_true,
        if_false]
    exact .next rfl (ih (by omega) (.next hforce h))

/-- A partial builtin takes its arguments one by one, the earliest first. -/
theorem spine {forces : Nat} {args : List Value}
    (hpartial : fn.Partial forces args.length args.length) (hargs : ∀ a ∈ args, a.Stable)
    (h : Settles w (.answer (.builtin fn forces args.length (args.map Value.discharged))) K) :
    Settles w (.compute (Value.spine (Term.forced forces (.builtin fn)) args) []) K := by
  induction args generalizing K with
  | nil => exact forced hpartial.forces_le h
  | cons a earlier ih =>
    obtain ⟨ha, hrest⟩ := List.forall_mem_cons.1 hargs
    have hforces : forces = fn.forceCount := hpartial.forced (Nat.succ_pos _)
    have hlt : earlier.length + 1 < fn.arity := hpartial.count_lt
    have hearlier : fn.Partial forces earlier.length earlier.length :=
      ⟨rfl, hpartial.forces_le, by omega, fun _ => hforces⟩
    have hneeds : Value.needsForce fn forces = false := decide_eq_false (by omega)
    have hsat : ∀ count, count < fn.arity → Value.isSaturated fn forces count = false :=
      fun _ hcount => Builtin.isSaturated_of_lt hcount forces
    have happly : Move.apply (.builtin fn forces earlier.length (earlier.map Value.discharged))
        a.discharged K = .next (.answer (.builtin fn forces (a :: earlier).length
          ((a :: earlier).map Value.discharged))) K := by
      simp only [Move.apply_builtin, Move.ofBuiltin, hneeds, hsat earlier.length (by omega),
        hsat (earlier.length + 1) hlt, Bool.false_eq_true, if_false, List.map_cons,
        List.length_cons]
    -- the builtin with the earlier arguments, then the argument, then the application
    exact .next rfl (ih hearlier hrest (.next rfl (ha w _ (.next happly h))))

/-- The fields of a constructor are computed from left to right. -/
theorem fields {tag : UInt64} {v : Value} {vs done : List Value}
    (hvs : ∀ u ∈ v :: vs, u.Stable)
    (h : Settles w (.answer (.constr tag (done.reverse ++ (v :: vs).map Value.discharged))) K) :
    Settles w (.compute v.toTerm []) (.field [] tag (Value.toTerms vs) done :: K) := by
  induction vs generalizing v done with
  | nil =>
    obtain ⟨hv, -⟩ := List.forall_mem_cons.1 hvs
    have hlast : Move.answer v.discharged (.field [] tag [] done :: K) =
        .next (.answer (.constr tag (done.reverse ++ [v].map Value.discharged))) K := by
      simp only [Move.answer, List.reverse_cons, List.map_cons, List.map_nil]
    exact hv w _ (.next hlast h)
  | cons u us ih =>
    obtain ⟨hv, hus⟩ := List.forall_mem_cons.1 hvs
    refine hv w _ (.next rfl (ih hus ?_))
    rw [List.reverse_cons, List.append_assoc]
    exact h

end Settles

/-- **The term of a value is computed to that value.** -/
theorem Value.stable {v : Value} (hv : v.Meets .disciplined) : v.Stable := by
  induction v using Value.ind with
  | con c => exact fun w K h => .next rfl h
  | delay body env ih => exact fun w K h => .next rfl h
  | lambda body env ih => exact fun w K h => .next rfl h
  | builtin fn forces count args ih =>
    intro w K h
    have hpartial : fn.Partial forces count args.length := hv.1
    rw [discharged_builtin hpartial] at h
    obtain rfl := hpartial.kept_eq
    rw [toTerm_of_length_le hpartial.kept_le]
    exact Settles.spine hpartial (fun a ha => ih a ha (meetsAll_iff.1 hv.2 a ha)) h
  | constr tag vs ih =>
    intro w K h
    rw [discharged_constr] at h
    have hvs : ∀ u ∈ vs, u.Stable := fun u hu => ih u hu (meetsAll_iff.1 hv.2 u hu)
    cases vs with
    | nil => exact .next rfl h
    | cons u us => exact .next rfl (Settles.fields hvs h)

/-! ### Runs -/

namespace Machine

variable {m : Machine} {s s' : RunState} {w : Value} {fs : List Frame} {a b : Account}

/-- A state that settles answers its value, or goes on and settles. -/
theorem move_of_settles (hs : Settles w s.control s.frames) :
    s.move = .halt w ∨ ∃ c fs, s.move = .next c fs ∧ Settles w c fs := by
  obtain ⟨control, frames, account⟩ := s
  cases hs with
  | done => exact .inl rfl
  | next hmove h => exact .inr ⟨_, _, hmove, h⟩

theorem settles_step (hs : Settles w s.control s.frames) (h : m.step s = .more s') :
    Settles w s'.control s'.frames := by
  rcases move_of_settles hs with hmove | ⟨c, fs, hmove, hc⟩
  · exact absurd h (step_ne_more_of_halt hmove)
  · obtain ⟨hcontrol, hframes⟩ := step_more_of_next hmove h
    rw [hcontrol, hframes]
    exact hc

theorem settles_ne_call (hs : Settles w s.control s.frames) (fn : Builtin) (args : List Value)
    (rest : List Frame) : s.move ≠ .call fn args rest := by
  intro hcall
  rcases move_of_settles hs with hmove | ⟨c, fs, hmove, -⟩ <;>
  · rw [hmove] at hcall
    cases hcall

theorem settles_stop {x : Except MachineError Term} (hs : Settles w s.control s.frames)
    (h : m.step s = .stop x fs b) : Overdrawn x ∨ x = .ok w.toTerm := by
  rcases step_stop h with hover | ⟨v, hhalt, rfl⟩ | ⟨f, step, hstuck, -⟩ |
    ⟨fn, args, frames, f, step, hcall, -, -⟩
  · exact .inl hover
  · rcases move_of_settles hs with hmove | ⟨c, fs, hmove, -⟩
    · rw [hmove] at hhalt
      cases hhalt
      exact .inr rfl
    · rw [hmove] at hhalt
      cases hhalt
  · rcases move_of_settles hs with hmove | ⟨c, fs, hmove, -⟩ <;>
    · rw [hmove] at hstuck
      cases hstuck
  · exact absurd hcall (settles_ne_call hs fn args frames)

/-- A state that settles has no message. -/
theorem messages_of_settles (hs : Settles w s.control s.frames) :
    Event.messages (m.advance s.frames s.control).1 = [] := by
  rw [advance_eq]
  rcases move_of_settles hs with hmove | ⟨c, fs, hmove, -⟩ <;>
  · simp only [hmove, carryOut, Prod.map_fst, Event.messages_append, Event.messages_ofKind,
      Event.messages_finish, List.append_nil]

theorem settles_more_log (hs : Settles w s.control s.frames) (h : m.step s = .more s') :
    s'.account.log = s.account.log := by
  have hlog := payAll_log (step_going h).2
  rw [messages_of_settles hs, List.append_nil] at hlog
  exact Array.ext' hlog

theorem settles_stop_log {x : Except MachineError Term} (hs : Settles w s.control s.frames)
    (h : m.step s = .stop x fs b) : b.log = s.account.log := by
  have hsilent : Event.messages (m.advance s.frames s.control).1 = [] := messages_of_settles hs
  rcases step_stopped h with ⟨-, hpay⟩ | ⟨e, -, hpay⟩
  · have hlog := payAll_log hpay
    rw [hsilent, List.append_nil] at hlog
    exact Array.ext' hlog
  · exact payAll_error_log_eq hpay hsilent

/-- An evaluation that settles halts: each step comes closer to the value. -/
theorem resume_of_settles {c : Control} (hs : Settles w c fs) (a : Account) :
    ∃ fuel x b, m.resume fuel ⟨c, fs, a⟩ = some (x, b) := by
  induction hs generalizing a with
  | done =>
    have hmove : RunState.move ⟨.answer w, [], a⟩ = .halt w := rfl
    cases hstep : m.step ⟨.answer w, [], a⟩ with
    | stop x fs b => exact ⟨1, x, b, by rw [resume_succ, hstep]⟩
    | more s => exact absurd hstep (step_ne_more_of_halt hmove)
  | @next c c' fs fs' hmove h ih =>
    have hmove : RunState.move ⟨c, fs, a⟩ = .next c' fs' := hmove
    cases hstep : m.step ⟨c, fs, a⟩ with
    | stop x fs b => exact ⟨1, x, b, by rw [resume_succ, hstep]⟩
    | more s =>
      obtain ⟨rfl, rfl⟩ := step_more_of_next hmove hstep
      obtain ⟨fuel, x, b, hrun⟩ := ih s.account
      refine ⟨fuel + 1, x, b, ?_⟩
      rw [resume_succ, hstep]
      exact hrun

variable {r : Term}

theorem exists_run_of_settles (hr : Settles w (.compute r []) []) (a : Account) :
    ∃ fuel x b, m.run fuel r a = some (x, b) := by
  simp only [run_eq_resume]
  cases a.settle.spend m.costs.startup with
  | error y => exact ⟨0, _, _, rfl⟩
  | ok c => exact resume_of_settles hr c

/-- Every state of the run of a term that settles does too, and holds the log of the start. -/
theorem states_of_settles (hr : Settles w (.compute r []) []) {fuel : Nat} :
    ∀ s ∈ m.states fuel r a, Settles w s.control s.frames ∧ s.account.log = a.log := by
  unfold states
  cases hspend : a.settle.spend m.costs.startup with
  | error y =>
    intro s hmem
    cases hmem
  | ok c =>
    obtain ⟨hc, -⟩ := Account.spend_ok hspend
    have hlog : c.log = a.log := by rw [hc]; rfl
    refine trail_induction (fun hs hstep => ?_) ⟨hr, hlog⟩
    exact ⟨settles_step hs.1 hstep, (settles_more_log hs.1 hstep).trans hs.2⟩

theorem run_of_settles (hr : Settles w (.compute r []) []) {fuel : Nat}
    {x : Except MachineError Term} (h : m.run fuel r a = some (x, b)) :
    (Overdrawn x ∨ x = .ok w.toTerm) ∧ b.log = a.log := by
  rcases run_stops h with ⟨f, hspend, rfl⟩ | ⟨s, hmem, fs, hstop⟩
  · obtain ⟨rfl, -, rfl⟩ := Account.spend_error hspend
    exact ⟨.inl ⟨_, _, rfl⟩, rfl⟩
  · obtain ⟨hs, hlog⟩ := states_of_settles hr s hmem
    exact ⟨settles_stop hs hstop, (settles_stop_log hs hstop).trans hlog⟩

/-- **Results are normal forms.**  Suppose a run of some term, closed or not, returns the term `r`.
On every machine, whatever its language, protocol version, costs and slippage, and on every account
the run of `r` halts.  It is overdrawn or returns `r`, and in either case it has logged nothing; and
no state it passes through calls a builtin. -/
theorem run_normal {t : Term} {fuel : Nat} (h : m.run fuel t a = some (.ok r, b)) (m' : Machine)
    (a' : Account) :
    (∃ fuel' x b', m'.run fuel' r a' = some (x, b')) ∧
    ∀ fuel',
      (∀ x b', m'.run fuel' r a' = some (x, b') → (Overdrawn x ∨ x = .ok r) ∧ b'.log = a'.log) ∧
      ∀ s ∈ m'.states fuel' r a', ∀ fn args rest, s.move ≠ .call fn args rest := by
  obtain ⟨v, hv, rfl⟩ := run_ok_meets Shape.inherited_disciplined trivial h
  have hr : Settles v.discharged (.compute v.toTerm []) [] := v.stable hv _ _ .done
  refine ⟨exists_run_of_settles hr a', fun fuel' => ⟨fun x b' hrun => ?_, fun s hmem => ?_⟩⟩
  · have hend := run_of_settles hr hrun
    rwa [Value.toTerm_discharged] at hend
  · exact settles_ne_call (states_of_settles hr s hmem).1

/-- A program with a free variable that returns a constructor of a partial builtin and a delay, both
over the same value. -/
def suspended : Term :=
  .apply (.lambda (.constr 3 [.apply (.force (.builtin .ifThenElse)) (.var 1),
      .delay (.apply (.var 1) (.var 5))]))
    (.constant (.bool true))

/-- What the program returns: the value has been put in where it was captured. -/
def suspendedResult : Term :=
  .constr 3 [.apply (.force (.builtin .ifThenElse)) (.constant (.bool true)),
    .delay (.apply (.constant (.bool true)) (.var 5))]

set_option maxRecDepth 1000 in
theorem run_normal_suspended : ∃ b b' : Account,
    (flat ⟨1, 1⟩ ⟨1, 2⟩ ⟨3, 4⟩).run 40 suspended (.ofBudget ⟨100, 100⟩) =
        some (.ok suspendedResult, b) ∧
      b.remaining = ⟨90, 81⟩ ∧
      ({ flat .zero ⟨5, 0⟩ ⟨0, 7⟩ with language := .v1, slippage := 3 } : Machine).run 20
        suspendedResult (.ofBudget ⟨1000, 20⟩) = some (.ok suspendedResult, b') ∧
      b'.remaining = ⟨970, 20⟩ ∧ b'.log = #[] := by
  obtain ⟨b, h, hleft⟩ :
      ∃ b, (flat ⟨1, 1⟩ ⟨1, 2⟩ ⟨3, 4⟩).run 40 suspended (.ofBudget ⟨100, 100⟩) =
          some (.ok suspendedResult, b) ∧
        b.remaining = ⟨90, 81⟩ := ⟨_, rfl, rfl⟩
  obtain ⟨b', h', hleft'⟩ :
      ∃ b', ({ flat .zero ⟨5, 0⟩ ⟨0, 7⟩ with language := .v1, slippage := 3 } : Machine).run 20
          suspendedResult (.ofBudget ⟨1000, 20⟩) = some (.ok suspendedResult, b') ∧
        b'.remaining = ⟨970, 20⟩ := ⟨_, rfl, rfl⟩
  obtain ⟨-, hends⟩ := run_normal h
    { flat .zero ⟨5, 0⟩ ⟨0, 7⟩ with language := .v1, slippage := 3 } (.ofBudget ⟨1000, 20⟩)
  obtain ⟨-, hlog⟩ := (hends 20).1 _ b' h'
  exact ⟨b, b', h, hleft, h', hleft', hlog⟩

end Machine

end PlutusCek
