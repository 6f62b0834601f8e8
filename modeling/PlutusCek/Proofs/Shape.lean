import PlutusCek.Proofs.Scope

/-!
# Proofs.Shape — what holds of every part of a value

A shape asks something of each constant, of each body together with the number of values it may
refer to, of each partial application of a builtin, and of constructors.  A value meets the shape if
it and every value inside it does.  Well-formed values are those whose closures are scoped by what
they capture and whose builtins still need a force or an argument: the values of closed programs.
-/

namespace PlutusCek

/-- What is asked of the parts of a value. -/
structure Shape where
  constant : Constant → Prop
  /-- A body that may refer to so many values. -/
  body : Nat → Term → Prop
  /-- A builtin that has counted so many forces and arguments, and keeps so many. -/
  builtin : Builtin → Nat → Nat → Nat → Prop
  constr : Prop

namespace Value

mutual

/-- The value and all values inside it have the shape. -/
def Meets (S : Shape) : Value → Prop
  | .con c => S.constant c
  | .delay body env => S.body env.length body ∧ MeetsAll S env
  | .lambda body env => S.body (env.length + 1) body ∧ MeetsAll S env
  | .builtin fn forces count args => S.builtin fn forces count args.length ∧ MeetsAll S args
  | .constr _ fields => S.constr ∧ MeetsAll S fields

/-- Each of the values has the shape. -/
def MeetsAll (S : Shape) : List Value → Prop
  | [] => True
  | v :: vs => Meets S v ∧ MeetsAll S vs

end

theorem meetsAll_iff {S : Shape} {vs : List Value} : MeetsAll S vs ↔ ∀ v ∈ vs, v.Meets S := by
  induction vs with
  | nil => simp [MeetsAll]
  | cons v vs ih => simp [MeetsAll, ih]

end Value

/-- A builtin that needs more: it keeps as many arguments as it has counted, none of them given
before all of its forces, and not all of them. -/
structure Builtin.Partial (fn : Builtin) (forces count kept : Nat) : Prop where
  kept_eq : kept = count
  forces_le : forces ≤ fn.forceCount
  count_lt : count < fn.arity
  forced : 0 < count → forces = fn.forceCount

namespace Builtin

theorem arity_pos (fn : Builtin) : 0 < fn.arity := by
  cases fn <;> decide

theorem partial_zero (fn : Builtin) : fn.Partial 0 0 0 :=
  ⟨rfl, Nat.zero_le _, fn.arity_pos, fun h => absurd h (by omega)⟩

variable {fn : Builtin} {forces count kept : Nat}

/-- What a partial builtin keeps can be read as operands. -/
theorem Partial.kept_le (h : fn.Partial forces count kept) : kept ≤ maxArity := by
  have hlt := h.count_lt
  have hle := fn.arity_le
  have heq := h.kept_eq
  omega

theorem Partial.force (h : fn.Partial forces count kept)
    (hneeds : Value.needsForce fn forces = true) : fn.Partial (forces + 1) count kept := by
  have hlt : forces < fn.forceCount := of_decide_eq_true hneeds
  refine ⟨h.kept_eq, hlt, h.count_lt, fun hcount => ?_⟩
  have := h.forced hcount
  omega

/-- No argument comes before the last force. -/
theorem Partial.count_eq_zero (h : fn.Partial forces count kept)
    (hneeds : Value.needsForce fn forces = true) : count = 0 := by
  have hlt : forces < fn.forceCount := of_decide_eq_true hneeds
  refine Nat.eq_zero_of_not_pos fun hpos => ?_
  have := h.forced hpos
  omega

theorem isSaturated_of_lt (h : count < fn.arity) (forces : Nat) :
    Value.isSaturated fn forces count = false := by
  simp only [Value.isSaturated, Bool.and_eq_false_iff, decide_eq_false_iff_not]
  exact .inr (by omega)

/-- One more argument saturates a builtin, or leaves it partial. -/
theorem Partial.apply (h : fn.Partial forces count kept)
    (hneeds : Value.needsForce fn forces = false) :
    Value.isSaturated fn forces (count + 1) = true ∧ kept + 1 = fn.arity ∨
      Value.isSaturated fn forces (count + 1) = false ∧
        fn.Partial forces (count + 1) (kept + 1) := by
  have hge : ¬ forces < fn.forceCount := of_decide_eq_false hneeds
  have hle := h.forces_le
  have hlt := h.count_lt
  obtain rfl := h.kept_eq
  by_cases hfull : kept + 1 = fn.arity
  · refine .inl ⟨?_, hfull⟩
    simp only [Value.isSaturated, hneeds, hfull, Nat.le_refl, decide_true, Bool.not_false,
      Bool.and_self]
  · have hnext : kept + 1 < fn.arity := by omega
    exact .inr ⟨isSaturated_of_lt hnext forces, rfl, hle, hnext, fun _ => by omega⟩

/-- A builtin that one more argument does not saturate is still partial. -/
theorem Partial.of_not_isSaturated (h : fn.Partial forces count kept)
    (hneeds : Value.needsForce fn forces = false)
    (hsat : Value.isSaturated fn forces (count + 1) = false) :
    fn.Partial forces (count + 1) (kept + 1) := by
  rcases h.apply hneeds with ⟨hfull, -⟩ | ⟨-, hpartial⟩
  · rw [hsat] at hfull
    cases hfull
  · exact hpartial

end Builtin

/-- The shape of the values of closed programs. -/
def Shape.wellFormed : Shape where
  constant _ := True
  body n t := t.isScoped n = true
  builtin := Builtin.Partial
  constr := True

namespace Value

/-- The values of closed programs. -/
abbrev WellFormed (v : Value) : Prop := v.Meets .wellFormed

theorem wellFormed_con (c : Constant) : (con c).WellFormed := trivial

/-- What holds of the terms of values that have a shape, by the forms of values: a closure gives its
body with the terms of what it captures put in, and a builtin gives its forces and arguments. -/
theorem Meets.toTerm {S : Shape} {P : Term → Prop} (hcon : ∀ c, S.constant c → P (.constant c))
    (hdelay : ∀ body (env : Env), S.body env.length body → (∀ v ∈ env, P v.toTerm) →
      P (.delay (body.substitute (resolve env) 0)))
    (hlambda : ∀ body (env : Env), S.body (env.length + 1) body → (∀ v ∈ env, P v.toTerm) →
      P (.lambda (body.substitute (resolve env) 1)))
    (hbuiltin : ∀ fn, P (.builtin fn)) (hforce : ∀ t, P t → P (.force t))
    (happly : ∀ f a, P f → P a → P (.apply f a))
    (hconstr : ∀ tag (fields : List Value), S.constr → (∀ v ∈ fields, P v.toTerm) →
      P (.constr tag (fields.map Value.toTerm)))
    {v : Value} (h : v.Meets S) : P v.toTerm := by
  induction v using Value.ind with
  | con c => exact hcon c h
  | delay body env ih =>
    obtain ⟨hbody, henv⟩ := h
    exact hdelay body env hbody fun v hv => ih v hv (meetsAll_iff.1 henv v hv)
  | lambda body env ih =>
    obtain ⟨hbody, henv⟩ := h
    exact hlambda body env hbody fun v hv => ih v hv (meetsAll_iff.1 henv v hv)
  | builtin fn forces count args ih =>
    obtain ⟨-, hargs⟩ := h
    have hhead : P (Term.forced forces (.builtin fn)) := by
      induction forces with
      | zero => exact hbuiltin fn
      | succ n ihn => exact hforce _ ihn
    -- each argument adds an application of what came before
    have hspine : ∀ args : List Value, (∀ a ∈ args, P a.toTerm) →
        P (spine (Term.forced forces (.builtin fn)) args) := by
      intro args
      induction args with
      | nil => exact fun _ => hhead
      | cons a args ihargs =>
        intro hall
        obtain ⟨ha, hearlier⟩ := List.forall_mem_cons.1 hall
        exact happly _ _ (ihargs hearlier) ha
    rw [Value.toTerm]
    split
    · exact hspine args fun a ha => ih a ha (meetsAll_iff.1 hargs a ha)
    · exact hhead
  | constr tag fields ih =>
    obtain ⟨hS, hfields⟩ := h
    simp only [Value.toTerm, toTerms_eq_map]
    exact hconstr tag fields hS fun v hv => ih v hv (meetsAll_iff.1 hfields v hv)

/-- A value has a closed term if each body inside it is scoped by what it may refer to. -/
theorem Meets.isClosed_toTerm {S : Shape} (hscoped : ∀ {n t}, S.body n t → t.isScoped n = true)
    {v : Value} (h : v.Meets S) : v.toTerm.IsClosed := by
  refine h.toTerm (fun c _ => rfl) (fun body env hbody henv => ?_) (fun body env hbody henv => ?_)
    (fun fn => rfl) (fun t ht => ht) (fun f a hf ha => ?_) (fun tag fields _ hfields => ?_)
  · exact isScoped_substitute henv (hscoped hbody)
  · exact isScoped_substitute henv (hscoped hbody)
  · simp only [Term.IsClosed, Term.isScoped, Bool.and_eq_true]
    exact ⟨hf, ha⟩
  · simp only [Term.IsClosed, Term.isScoped, Term.isScopedAll_iff]
    intro t ht
    obtain ⟨v, hv, rfl⟩ := List.mem_map.1 ht
    exact hfields v hv

/-- A well-formed value has a closed term. -/
theorem isClosed_toTerm {v : Value} (h : v.WellFormed) : v.toTerm.IsClosed :=
  Meets.isClosed_toTerm id h

end Value

end PlutusCek
