import PlutusCek.Machine
import PlutusCek.Proofs.Shape

/-!
# Proofs.Reference — evaluation by substitution

The meaning of a closed term without environments or a stack: functions and arguments are evaluated
from left to right, and a function is entered by putting the term of its argument for the bound
variable.  A value is a term too, and is read as a machine value with nothing captured where a
builtin needs one.  `evaluate` goes down a bounded depth; what it finds there it finds at every
greater depth (`evaluate_mono`), and it finds every value itself (`evaluate_value`).
-/

namespace PlutusCek

/-- What comes of an evaluation. -/
inductive Eval (α : Type) where
  /-- It was cut off at its depth. -/
  | cut
  /-- It logged messages and gave a result. -/
  | value (log : List String) (result : α)
  /-- It logged messages and failed. -/
  | failure (log : List String) (cause : Failure)

namespace Eval

variable {α β : Type}

/-- The same after some messages. -/
def after (log : List String) : Eval α → Eval α
  | .cut => .cut
  | .value log' a => .value (log ++ log') a
  | .failure log' f => .failure (log ++ log') f

/-- Goes on with the result, if there is one. -/
def andThen (x : Eval α) (k : α → Eval β) : Eval β :=
  match x with
  | .cut => .cut
  | .value log a => (k a).after log
  | .failure log f => .failure log f

instance : Monad Eval where
  pure := .value []
  bind := andThen

/-- A failure that logs nothing. -/
def fail (f : Failure) : Eval α := .failure [] f

theorem after_nil (x : Eval α) : x.after [] = x := by
  cases x <;> rfl

theorem value_bind (a : α) (k : α → Eval β) : (Eval.value [] a >>= k) = k a := after_nil (k a)

/-! ### Order -/

/-- The second is the first, or the first was cut off. -/
def Within (x y : Eval α) : Prop := x = .cut ∨ x = y

theorem within_refl (x : Eval α) : x.Within x := .inr rfl

theorem within_cut (x : Eval α) : Within .cut x := .inl rfl

theorem Within.trans {x y z : Eval α} (hxy : x.Within y) (hyz : y.Within z) : x.Within z := by
  rcases hxy with rfl | rfl
  · exact within_cut z
  · exact hyz

theorem Within.after {x y : Eval α} (h : x.Within y) (log : List String) :
    (x.after log).Within (y.after log) := by
  rcases h with rfl | rfl
  · exact within_cut _
  · exact within_refl _

theorem Within.bind {x y : Eval α} {k k' : α → Eval β} (h : x.Within y)
    (hk : ∀ a, (k a).Within (k' a)) : (x >>= k).Within (y >>= k') := by
  rcases h with rfl | rfl
  · exact within_cut _
  · cases x with
    | cut => exact within_refl _
    | value log a => exact (hk a).after log
    | failure log f => exact within_refl _

end Eval

/-! ### Values as terms -/

namespace Term

mutual

/-- The machine value that a value term stands for, with nothing captured. -/
def toValue : Term → Value
  | .constant c => .con c
  | .lambda body => .lambda body []
  | .delay body => .delay body []
  | .builtin fn => .builtin fn 0 0 []
  | .force t =>
    match toValue t with
    | .builtin fn forces count args => .builtin fn (forces + 1) count args
    | v => v
  | .apply f a =>
    match toValue f with
    | .builtin fn forces count args => .builtin fn forces (count + 1) (toValue a :: args)
    | v => v
  | .constr tag fields => .constr tag (toValues fields)
  | _ => .con .unit

/-- The machine values of a list of value terms. -/
def toValues : List Term → List Value
  | [] => []
  | t :: ts => toValue t :: toValues ts

end

theorem toValues_eq_map (ts : List Term) : toValues ts = ts.map toValue := by
  induction ts with
  | nil => rfl
  | cons t ts ih => simp only [toValues, ih, List.map_cons]

theorem toValue_forced (fn : Builtin) (forces : Nat) :
    (forced forces (.builtin fn)).toValue = .builtin fn forces 0 [] := by
  induction forces with
  | zero => rfl
  | succ n ih => simp only [forced, toValue, ih]

end Term

namespace Value

/-- The value with nothing captured that has the same term. -/
def discharged (v : Value) : Value := v.toTerm.toValue

theorem toValue_toTerm (v : Value) : v.toTerm.toValue = v.discharged := rfl

theorem toValue_spine (fn : Builtin) (forces : Nat) (args : List Value) :
    (spine (Term.forced forces (.builtin fn)) args).toValue =
      .builtin fn forces args.length (args.map discharged) := by
  induction args with
  | nil => exact Term.toValue_forced fn forces
  | cons a args ih =>
    simp only [spine, Term.toValue, ih]
    rfl

/-- The term of a partial builtin stands for as many forces and arguments. -/
theorem discharged_builtin {fn : Builtin} {forces count : Nat} {args : List Value}
    (h : fn.Partial forces count args.length) :
    discharged (.builtin fn forces count args) =
      .builtin fn forces count (args.map discharged) := by
  rw [discharged, toTerm_of_length_le h.kept_le, toValue_spine, h.kept_eq]

theorem discharged_constr (tag : UInt64) (fields : List Value) :
    discharged (.constr tag fields) = .constr tag (fields.map discharged) := by
  simp only [discharged, toTerm, Term.toValue, Term.toValues_eq_map, toTerms_eq_map, List.map_map]
  rfl

theorem toTerm_discharged (v : Value) : v.discharged.toTerm = v.toTerm := by
  induction v using Value.ind with
  | con c => rfl
  | delay body env ih => exact congrArg Term.delay (substitute_resolve_nil 0 _)
  | lambda body env ih => exact congrArg Term.lambda (substitute_resolve_nil 1 _)
  | builtin fn forces count args ih =>
    have hspine : spine (Term.forced forces (.builtin fn)) (args.map discharged) =
        spine (Term.forced forces (.builtin fn)) args := by
      induction args with
      | nil => rfl
      | cons a args ihargs =>
        simp only [List.map_cons, spine]
        rw [ih a (by simp), ihargs fun b hb => ih b (by simp [hb])]
    by_cases hlen : args.length ≤ Builtin.maxArity
    · rw [discharged, toTerm_of_length_le hlen, toValue_spine,
        toTerm_of_length_le (by rwa [List.length_map]), hspine]
    · rw [discharged, toTerm, if_neg hlen, Term.toValue_forced]
      rfl
  | constr tag fields ih =>
    rw [discharged_constr]
    simp only [toTerm, toTerms_eq_map, List.map_map]
    rw [List.map_congr_left fun v hv => by exact ih v hv]

end Value

/-! ### Evaluation -/

namespace Reference

variable (m : Machine) (ev : Term → Eval Term)

/-- A call of a builtin on its operands: refused if it is not available, otherwise what the builtin
says. -/
def call (fn : Builtin) (args : List Value) : Eval Term :=
  if m.isAvailable fn then
    match fn.prepare m.semantics args with
    | .error f => .fail f
    | .ok c =>
      match c.perform () with
      | .error f => .fail f
      | .ok reply => .value reply.message.toList reply.value.toTerm
  else .fail (m.unavailable fn)

/-- A builtin that has just got a force or an argument: called if saturated, else the value `v`. -/
def saturate (fn : Builtin) (forces count : Nat) (args : List Value) (v : Term) : Eval Term :=
  if Value.isSaturated fn forces count then call m fn args.reverse else pure v

/-- Applies a value to a value; `ev` evaluates the body of a function. -/
def apply (f a : Term) : Eval Term :=
  match f.toValue with
  | .lambda body _ => ev (body.instantiate a)
  | .builtin fn forces count args =>
    if Value.needsForce fn forces then .fail (.forceExpected fn)
    else saturate m fn forces (count + 1) (a.toValue :: args) (.apply f a)
  | _ => .fail (.notFunction f)

/-- Forces a value. -/
def force (v : Term) : Eval Term :=
  match v.toValue with
  | .delay body _ => ev body
  | .builtin fn forces count args =>
    if Value.needsForce fn forces then saturate m fn (forces + 1) count args (.force v)
    else .fail (.argumentExpected fn)
  | _ => .fail (.notForceable v)

/-- Applies a value to values, the first one first. -/
def applyAll (f : Term) : List Term → Eval Term
  | [] => pure f
  | a :: as => do
    let g ← apply m ev f a
    applyAll g as

/-- Evaluates the branch that a constructor selects and applies it to the fields. -/
def select (branches : List Term) (v : Term) : Eval Term :=
  match v.toValue with
  | .constr tag fields =>
    if Move.maxTag < tag.toNat then .fail (.tagTooLarge tag)
    else
      match branches[tag.toNat]? with
      | some branch => do
        let f ← ev branch
        applyAll m ev f (fields.map Value.toTerm)
      | none => .fail (.missingBranch tag branches.length)
  | _ => .fail (.notConstr v)

/-- Evaluates the fields of a constructor from left to right, after those that are done. -/
def collect (tag : UInt64) (done : List Term) : List Term → Eval Term
  | [] => pure (.constr tag done)
  | t :: ts => do
    let v ← ev t
    collect tag (done ++ [v]) ts

/-- Evaluates a term; `ev` evaluates its parts, and the terms that come up on the way. -/
def descend : Term → Eval Term
  | .var i => .fail (.openTerm i)
  | .lambda body => pure (.lambda body)
  | .apply f a => do
    let f ← ev f
    let a ← ev a
    apply m ev f a
  | .delay body => pure (.delay body)
  | .force t => do
    let v ← ev t
    force m ev v
  | .constant c => pure (.constant c)
  | .error => .fail .explicitError
  | .builtin fn => pure (.builtin fn)
  | .constr tag fields => collect ev tag [] fields
  | .case s branches => do
    let v ← ev s
    select m ev branches v

/-- Evaluates a term as far as a depth. -/
def evaluate : Nat → Term → Eval Term
  | 0 => fun _ => .cut
  | depth + 1 => descend m (evaluate depth)

/-- The term has a value. -/
def Returns (t : Term) (log : List String) (v : Term) : Prop :=
  ∃ depth, evaluate m depth t = .value log v

/-- The term fails. -/
def Fails (t : Term) (log : List String) (f : Failure) : Prop :=
  ∃ depth, evaluate m depth t = .failure log f

variable {m} {ev}

/-! ### Depth -/

section Mono

variable {ev' : Term → Eval Term} (hev : ∀ t, (ev t).Within (ev' t))
include hev

theorem apply_mono (f a : Term) : (apply m ev f a).Within (apply m ev' f a) := by
  unfold apply
  cases f.toValue with
  | lambda body env => exact hev _
  | _ => exact Eval.within_refl _

theorem force_mono (v : Term) : (force m ev v).Within (force m ev' v) := by
  unfold force
  cases v.toValue with
  | delay body env => exact hev _
  | _ => exact Eval.within_refl _

theorem applyAll_mono (f : Term) (as : List Term) :
    (applyAll m ev f as).Within (applyAll m ev' f as) := by
  induction as generalizing f with
  | nil => exact Eval.within_refl _
  | cons a as ih => exact (apply_mono hev f a).bind ih

theorem select_mono (branches : List Term) (v : Term) :
    (select m ev branches v).Within (select m ev' branches v) := by
  unfold select
  cases v.toValue with
  | constr tag fields =>
    by_cases htag : Move.maxTag < tag.toNat
    · simp only [if_pos htag]
      exact Eval.within_refl _
    · simp only [if_neg htag]
      cases branches[tag.toNat]? with
      | none => exact Eval.within_refl _
      | some branch => exact (hev branch).bind fun f => applyAll_mono hev f _
  | _ => exact Eval.within_refl _

theorem collect_mono (tag : UInt64) (done ts : List Term) :
    (collect ev tag done ts).Within (collect ev' tag done ts) := by
  induction ts generalizing done with
  | nil => exact Eval.within_refl _
  | cons t ts ih => exact (hev t).bind fun v => ih (done ++ [v])

theorem descend_mono (t : Term) : (descend m ev t).Within (descend m ev' t) := by
  cases t with
  | apply f a => exact (hev f).bind fun f => (hev a).bind fun a => apply_mono hev f a
  | force t => exact (hev t).bind fun v => force_mono hev v
  | constr tag fields => exact collect_mono hev tag [] fields
  | case s branches => exact (hev s).bind fun v => select_mono hev branches v
  | _ => exact Eval.within_refl _

end Mono

theorem evaluate_succ (depth : Nat) (t : Term) :
    (evaluate m depth t).Within (evaluate m (depth + 1) t) := by
  induction depth generalizing t with
  | zero => exact Eval.within_cut _
  | succ depth ih => exact descend_mono ih t

/-- **Depth only cuts off.**  An evaluation that was not cut off is the same at every greater
depth. -/
theorem evaluate_mono {depth depth' : Nat} (hle : depth ≤ depth') (t : Term) :
    (evaluate m depth t).Within (evaluate m depth' t) := by
  induction hle with
  | refl => exact Eval.within_refl _
  | step _ ih => exact ih.trans (evaluate_succ _ t)

theorem evaluate_of_le {depth depth' : Nat} {t v : Term} {log : List String}
    (h : evaluate m depth t = .value log v) (hle : depth ≤ depth') :
    evaluate m depth' t = .value log v := by
  rcases evaluate_mono (m := m) hle t with hcut | heq
  · rw [h] at hcut
    cases hcut
  · rw [← heq, h]

/-! ### Values evaluate to themselves -/

theorem evaluate_forced {fn : Builtin} {forces : Nat} (h : forces ≤ fn.forceCount) :
    evaluate m (forces + 1) (Term.forced forces (.builtin fn)) =
      .value [] (Term.forced forces (.builtin fn)) := by
  induction forces with
  | zero => rfl
  | succ n ih =>
    have hneeds : Value.needsForce fn n = true := decide_eq_true h
    have hsat : Value.isSaturated fn (n + 1) 0 = false :=
      Builtin.isSaturated_of_lt fn.arity_pos (n + 1)
    show (evaluate m (n + 1) (Term.forced n (.builtin fn)) >>= force m (evaluate m (n + 1))) = _
    rw [ih (by omega), Eval.value_bind]
    simp only [force, Term.toValue_forced, hneeds, if_true, saturate, hsat]
    rfl

theorem evaluate_spine {fn : Builtin} {forces : Nat} {args : List Value}
    (hargs : ∀ a ∈ args, Returns m a.toTerm [] a.toTerm)
    (h : fn.Partial forces args.length args.length) :
    Returns m (Value.spine (Term.forced forces (.builtin fn)) args) []
      (Value.spine (Term.forced forces (.builtin fn)) args) := by
  induction args with
  | nil => exact ⟨forces + 1, evaluate_forced h.forces_le⟩
  | cons a args ih =>
    have hforced : forces = fn.forceCount := h.forced (by simp)
    have hlt : args.length + 1 < fn.arity := h.count_lt
    have hneeds : Value.needsForce fn forces = false := by
      simp only [Value.needsForce, hforced, Nat.lt_irrefl, decide_false]
    obtain ⟨d, hd⟩ := ih (fun b hb => hargs b (by simp [hb]))
      ⟨rfl, h.forces_le, by omega, fun _ => hforced⟩
    obtain ⟨e, he⟩ := hargs a (by simp)
    have hsat : Value.isSaturated fn forces (args.length + 1) = false :=
      Builtin.isSaturated_of_lt hlt forces
    refine ⟨max d e + 1, ?_⟩
    show (evaluate m (max d e) (Value.spine (Term.forced forces (.builtin fn)) args) >>= fun f =>
      evaluate m (max d e) a.toTerm >>= fun a => apply m (evaluate m (max d e)) f a) = _
    rw [evaluate_of_le hd (Nat.le_max_left d e), Eval.value_bind,
      evaluate_of_le he (Nat.le_max_right d e), Eval.value_bind]
    simp only [apply, Value.toValue_toTerm, Value.toValue_spine, hneeds, saturate, hsat]
    rfl

theorem collect_values {fields : List Value}
    (hfields : ∀ v ∈ fields, Returns m v.toTerm [] v.toTerm) (tag : UInt64) (done : List Term) :
    ∃ depth, ∀ depth' ≥ depth,
      collect (evaluate m depth') tag done (fields.map Value.toTerm) =
        .value [] (.constr tag (done ++ fields.map Value.toTerm)) := by
  induction fields generalizing done with
  | nil => exact ⟨0, fun _ _ => by simp only [List.map_nil, collect, List.append_nil]; rfl⟩
  | cons v fields ih =>
    obtain ⟨d, hd⟩ := hfields v (by simp)
    obtain ⟨e, he⟩ := ih (fun w hw => hfields w (by simp [hw])) (done ++ [v.toTerm])
    refine ⟨max d e, fun depth hle => ?_⟩
    simp only [List.map_cons, collect]
    rw [evaluate_of_le hd (by omega), Eval.value_bind, he depth (by omega)]
    simp only [List.append_assoc, List.singleton_append]

/-- Values evaluate to themselves, and log nothing. -/
theorem evaluate_value {v : Value} (hv : v.WellFormed) : Returns m v.toTerm [] v.toTerm := by
  induction v using Value.ind with
  | con c => exact ⟨1, rfl⟩
  | delay body env ih => exact ⟨1, rfl⟩
  | lambda body env ih => exact ⟨1, rfl⟩
  | builtin fn forces count args ih =>
    obtain ⟨hpartial, hargs⟩ := hv
    obtain rfl := hpartial.kept_eq
    rw [Value.toTerm_of_length_le hpartial.kept_le]
    exact evaluate_spine (fun a ha => ih a ha (Value.meetsAll_iff.1 hargs a ha)) hpartial
  | constr tag fields ih =>
    obtain ⟨-, hfields⟩ := hv
    obtain ⟨d, hd⟩ := collect_values (fun v hmem => ih v hmem (Value.meetsAll_iff.1 hfields v hmem))
      tag []
    refine ⟨d + 1, ?_⟩
    simp only [Value.toTerm, Value.toTerms_eq_map]
    exact hd d (Nat.le_refl d)

end Reference

end PlutusCek
