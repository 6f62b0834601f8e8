import PlutusCek.Proofs.Shape

/-!
# Proofs.Discharge — discharging an environment is simultaneous substitution

The variables that an environment binds are replaced by the terms of its values all at once, and the
terms go under binders as they are.  Closures that are scoped by what they capture have closed
terms, so nothing is captured, and what was put in is not replaced again: one value more in the
environment is one more variable replaced afterwards (`Value.substitute_simultaneous`).
-/

namespace PlutusCek

namespace Term

/-- Puts a term for the variable with index `k`, which has index `k + d` under `d` lambdas. -/
def put (t : Term) (k : Nat) (u : Term) : Term :=
  bindVars (fun d i => if i = k + d then u else .var i) 0 t

/-- Puts terms for the variables after index `k`, all at once. -/
def putAll (t : Term) (k : Nat) (us : List Term) : Term :=
  bindVars (fun d i => if i ≤ k + d then .var i else us[i - (k + d) - 1]?.getD (.var i)) 0 t

/-- Puts terms for the variables after index `k` one by one, the outermost variable first. -/
def putEach (t : Term) : Nat → List Term → Term
  | _, [] => t
  | k, u :: us => (putEach t (k + 1) us).put (k + 1) u

/-- Discharging terms is putting them for their variables. -/
theorem substitute_eq_putAll {replace : Nat → Option Term} {us : List Term}
    (h : ∀ i, replace i = us[i]?) (k : Nat) (t : Term) :
    t.substitute replace k = t.putAll k us := by
  have heq := substitute_eq_bindVars replace k 0 t
  simp only [h, Nat.add_comm _ k] at heq
  exact heq

theorem putAll_nil (k : Nat) (t : Term) : t.putAll k [] = t := by
  have hvar : (fun d i => if i ≤ k + d then Term.var i
      else ([] : List Term)[i - (k + d) - 1]?.getD (.var i)) = fun _ i => .var i := by
    funext d i
    split <;> rfl
  rw [putAll, hvar, bindVars_var]

/-- A closed term is not raised: there is nothing to capture. -/
theorem raise_of_isClosed {u : Term} (hu : u.IsClosed) (n : Nat) : u.raise n = u :=
  bindVars_of_isClosed hu (fun _ _ _ hi => if_pos hi) 0

section Closed

variable {us : List Term} (hus : ∀ u ∈ us, u.IsClosed)
include hus

/-- One term more is one more variable replaced afterwards. -/
theorem putAll_cons (k : Nat) (v t : Term) :
    t.putAll k (v :: us) = (t.putAll (k + 1) us).put (k + 1) v := by
  rw [putAll, putAll, put, bindVars_bindVars]
  congr 1
  funext d i
  by_cases hbound : i ≤ k + d
  · -- bound inside, or before the variables replaced
    rw [if_pos hbound, if_pos (by omega), bindVars, if_neg (by omega)]
  · rw [if_neg hbound]
    by_cases hnew : i = k + 1 + d
    · -- the variable of `v`
      have hzero : i - (k + d) - 1 = 0 := by omega
      rw [if_pos (by omega), bindVars, if_pos hnew, hzero]
      rfl
    · -- a variable of the rest, whose term is closed and stays as it is
      have hrest : i - (k + d) - 1 = i - (k + 1 + d) - 1 + 1 := by omega
      rw [if_neg (by omega), hrest, List.getElem?_cons_succ]
      cases hu : us[i - (k + 1 + d) - 1]? with
      | none =>
        rw [Option.getD_none, bindVars, if_neg hnew]
      | some u =>
        rw [Option.getD_some]
        refine (bindVars_of_isClosed (hus u (List.mem_of_getElem? hu)) (fun d' j _ hj => ?_) d).symm
        exact if_neg (by omega)

/-- At once or one by one, the outermost first: closed terms do not get in the way. -/
theorem putAll_eq_putEach (k : Nat) (t : Term) : t.putAll k us = t.putEach k us := by
  induction us generalizing k with
  | nil => exact putAll_nil k t
  | cons u us ih =>
    have hrest := (List.forall_mem_cons.1 hus).2
    rw [putAll_cons hrest, ih hrest, putEach]

end Closed

end Term

/-- The shape of values whose closures are scoped by what they capture. -/
def Shape.scoped : Shape where
  constant _ := True
  body n t := t.isScoped n = true
  builtin _ _ _ _ := True
  constr := True

namespace Value

theorem substitute_resolve_eq (env : Env) (k : Nat) (t : Term) :
    t.substitute (resolve env) k = t.putAll k (env.map toTerm) :=
  Term.substitute_eq_putAll (fun i => by rw [resolve_eq, List.getElem?_map]) k t

/-- **Discharge is simultaneous substitution.**  Take an environment, and one value more, whose
closures are scoped by what they capture, and so are those inside them.  To discharge the extended
environment in any term, below any number of binders, is to discharge the environment below one
binder more and then to put the term of the value, as it is, for the one variable in between.  All
in all the terms of the values are put for their variables, at once or one by one, with no effect on
other variables; they are closed, so that no variable is captured.  The term of a closure is its
body with the environment discharged in this way. -/
theorem substitute_simultaneous {env : Env} {v : Value}
    (hscoped : ∀ w ∈ Env.extend env v, w.Meets .scoped) (n : Nat) (t : Term) :
    t.substitute (resolve (Env.extend env v)) n =
      (t.substitute (resolve env) (n + 1)).put (n + 1) v.toTerm ∧
    t.substitute (resolve env) n = t.putAll n (env.map toTerm) ∧
    t.substitute (resolve env) n = t.putEach n (env.map toTerm) ∧
    (∀ w ∈ Env.extend env v, ∀ d, w.toTerm.raise d = w.toTerm) ∧
    (Value.lambda t env).toTerm = .lambda (t.putAll 1 (env.map toTerm)) ∧
    (Value.delay t env).toTerm = .delay (t.putAll 0 (env.map toTerm)) := by
  have hclosed : ∀ w ∈ Env.extend env v, w.toTerm.IsClosed := fun w hw =>
    (hscoped w hw).isClosed_toTerm id
  have hterms : ∀ u ∈ env.map toTerm, u.IsClosed := by
    intro u hu
    obtain ⟨w, hw, rfl⟩ := List.mem_map.1 hu
    exact hclosed w (List.mem_cons_of_mem v hw)
  refine ⟨?_, substitute_resolve_eq env n t, ?_,
    fun w hw d => Term.raise_of_isClosed (hclosed w hw) d, ?_, ?_⟩
  · rw [substitute_resolve_eq, substitute_resolve_eq, Env.extend, List.map_cons]
    exact Term.putAll_cons hterms n v.toTerm t
  · rw [substitute_resolve_eq, Term.putAll_eq_putEach hterms]
  · rw [toTerm, substitute_resolve_eq]
  · rw [toTerm, substitute_resolve_eq]

/-- A function that has captured an integer. -/
def capturing : Value := .lambda (.apply (.var 1) (.var 2)) [.con (.integer 7)]

/-- A suspension that has captured a unit. -/
def suspended : Value := .delay (.var 1) [.con .unit]

/-- Both are put for the free variables of a function, below its own variable. -/
theorem substitute_simultaneous_closures :
    (∀ w ∈ Env.extend [capturing] suspended, w.Meets .scoped) ∧
    (Term.lambda (.apply (.var 2) (.apply (.var 3) (.var 1)))).substitute
        (resolve (Env.extend [capturing] suspended)) 0 =
      ((Term.lambda (.apply (.var 2) (.apply (.var 3) (.var 1)))).substitute
        (resolve [capturing]) 1).put 1 suspended.toTerm ∧
    (Term.lambda (.apply (.var 2) (.apply (.var 3) (.var 1)))).substitute
        (resolve (Env.extend [capturing] suspended)) 0 =
      .lambda (.apply (.delay (.constant .unit))
        (.apply (.lambda (.apply (.var 1) (.constant (.integer 7)))) (.var 1))) := by
  have hscoped : ∀ w ∈ Env.extend [capturing] suspended, w.Meets .scoped :=
    meetsAll_iff.1 ⟨⟨rfl, trivial, trivial⟩, ⟨rfl, trivial, trivial⟩, trivial⟩
  obtain ⟨hstep, -⟩ := substitute_simultaneous hscoped 0
    (.lambda (.apply (.var 2) (.apply (.var 3) (.var 1))))
  exact ⟨hscoped, hstep, rfl⟩

end Value

end PlutusCek
