import PlutusCek.Value

/-!
# Proofs.Scope — bound variables and substitution

A term is scoped under `n` binders when each of its variables points to one of them or to a lambda
inside.  Substitution for one variable raises the free variables of what it puts under binders, so
it captures nothing.  Discharging an environment is substitution for all of its variables at once,
and one more value in the environment is one more such step (`instantiate_substitute`).
-/

namespace PlutusCek

namespace Term

/-- Induction over terms, with the hypothesis for every member of a list of subterms. -/
@[elab_as_elim]
theorem ind {P : Term → Prop} (var : ∀ i, P (.var i)) (lambda : ∀ body, P body → P (.lambda body))
    (apply : ∀ f a, P f → P a → P (.apply f a)) (delay : ∀ body, P body → P (.delay body))
    (force : ∀ body, P body → P (.force body)) (constant : ∀ c, P (.constant c))
    (error : P .error) (builtin : ∀ fn, P (.builtin fn))
    (constr : ∀ tag fields, (∀ t ∈ fields, P t) → P (.constr tag fields))
    (case : ∀ s branches, P s → (∀ t ∈ branches, P t) → P (.case s branches)) (t : Term) : P t := by
  refine @Term.rec P (fun ts => ∀ t ∈ ts, P t) var lambda apply delay force constant error builtin
    constr case ?_ ?_ t
  · intro t ht
    cases ht
  · intro head tail hhead htail t ht
    rcases List.mem_cons.1 ht with rfl | ht
    · exact hhead
    · exact htail t ht

/-! ### Scope -/

mutual

/-- Every variable is bound: by one of `n` binders around the term, or inside it. -/
def isScoped : Nat → Term → Bool
  | n, .var i => decide (1 ≤ i ∧ i ≤ n)
  | n, .lambda body => isScoped (n + 1) body
  | n, .apply f a => isScoped n f && isScoped n a
  | n, .delay body => isScoped n body
  | n, .force body => isScoped n body
  | _, .constant _ => true
  | _, .error => true
  | _, .builtin _ => true
  | n, .constr _ fields => isScopedAll n fields
  | n, .case s branches => isScoped n s && isScopedAll n branches

/-- Every variable of each term is bound. -/
def isScopedAll : Nat → List Term → Bool
  | _, [] => true
  | n, t :: ts => isScoped n t && isScopedAll n ts

end

/-- A closed term: every variable is bound inside it. -/
def IsClosed (t : Term) : Prop := t.isScoped 0 = true

instance (t : Term) : Decidable t.IsClosed := inferInstanceAs (Decidable (t.isScoped 0 = true))

theorem isScopedAll_iff {n : Nat} {ts : List Term} :
    isScopedAll n ts = true ↔ ∀ t ∈ ts, t.isScoped n = true := by
  induction ts with
  | nil => simp [isScopedAll]
  | cons t ts ih => simp [isScopedAll, ih]

theorem isScoped_mono {t : Term} {n k : Nat} (h : t.isScoped n = true) (hle : n ≤ k) :
    t.isScoped k = true := by
  induction t using Term.ind generalizing n k with
  | var i =>
    simp only [isScoped, decide_eq_true_eq] at h ⊢
    omega
  | lambda body ih => exact ih h (by omega)
  | apply f a ihf iha =>
    simp only [isScoped, Bool.and_eq_true] at h ⊢
    exact ⟨ihf h.1 hle, iha h.2 hle⟩
  | delay body ih => exact ih h hle
  | force body ih => exact ih h hle
  | constant c => rfl
  | error => rfl
  | builtin fn => rfl
  | constr tag fields ih =>
    simp only [isScoped, isScopedAll_iff] at h ⊢
    exact fun t ht => ih t ht (h t ht) hle
  | case s branches ihs ihb =>
    simp only [isScoped, Bool.and_eq_true, isScopedAll_iff] at h ⊢
    exact ⟨ihs h.1 hle, fun t ht => ihb t ht (h.2 t ht) hle⟩

/-! ### Replacing variables -/

mutual

/-- Replaces each variable by a term that may depend on the number of binders above it. -/
def bindVars (f : Nat → Nat → Term) : Nat → Term → Term
  | d, .var i => f d i
  | d, .lambda body => .lambda (bindVars f (d + 1) body)
  | d, .apply g a => .apply (bindVars f d g) (bindVars f d a)
  | d, .delay body => .delay (bindVars f d body)
  | d, .force body => .force (bindVars f d body)
  | _, .constant c => .constant c
  | _, .error => .error
  | _, .builtin fn => .builtin fn
  | d, .constr tag fields => .constr tag (bindVarsAll f d fields)
  | d, .case s branches => .case (bindVars f d s) (bindVarsAll f d branches)

/-- Replaces the variables of each term. -/
def bindVarsAll (f : Nat → Nat → Term) : Nat → List Term → List Term
  | _, [] => []
  | d, t :: ts => bindVars f d t :: bindVarsAll f d ts

end

/-- Raises the free variables of a term by `n`. -/
def raise (n : Nat) : Term → Term :=
  bindVars (fun d i => if i ≤ d then .var i else .var (i + n)) 0

/-- Puts a term for the innermost free variable of a body, raised by the binders it is put under,
and lowers the other free variables. -/
def instantiate (body a : Term) : Term :=
  bindVars (fun d i => if i ≤ d then .var i else if i = d + 1 then a.raise d else .var (i - 1)) 0
    body

theorem bindVarsAll_eq_map (f : Nat → Nat → Term) (d : Nat) (ts : List Term) :
    bindVarsAll f d ts = ts.map (bindVars f d) := by
  induction ts with
  | nil => rfl
  | cons t ts ih => simp only [bindVarsAll, ih, List.map_cons]

theorem substituteList_eq_map (replace : Nat → Option Term) (d : Nat) (ts : List Term) :
    substituteList replace d ts = ts.map (substitute replace d) := by
  induction ts with
  | nil => rfl
  | cons t ts ih => simp only [substituteList, ih, List.map_cons]

/-- Substitution is a replacement of variables. -/
theorem substitute_eq_bindVars (replace : Nat → Option Term) (n d : Nat) (t : Term) :
    substitute replace (d + n) t =
      bindVars (fun d i => if i ≤ d + n then .var i else (replace (i - (d + n) - 1)).getD (.var i))
        d t := by
  induction t using Term.ind generalizing d with
  | var i =>
    simp only [substitute, bindVars]
    split
    · rfl
    · cases replace (i - (d + n) - 1) <;> rfl
  | lambda body ih =>
    have h := ih (d + 1)
    rw [Nat.add_right_comm] at h
    simp only [substitute, bindVars, h]
  | apply f a ihf iha => simp only [substitute, bindVars, ihf, iha]
  | delay body ih => simp only [substitute, bindVars, ih]
  | force body ih => simp only [substitute, bindVars, ih]
  | constant c => rfl
  | error => rfl
  | builtin fn => rfl
  | constr tag fields ih =>
    simp only [substitute, bindVars, substituteList_eq_map, bindVarsAll_eq_map]
    rw [List.map_congr_left fun t ht => ih t ht d]
  | case s branches ihs ihb =>
    simp only [substitute, bindVars, substituteList_eq_map, bindVarsAll_eq_map, ihs]
    rw [List.map_congr_left fun t ht => ihb t ht d]

/-- Two replacements after each other are one. -/
theorem bindVars_bindVars (f g : Nat → Nat → Term) (d : Nat) (t : Term) :
    bindVars g d (bindVars f d t) = bindVars (fun d i => bindVars g d (f d i)) d t := by
  induction t using Term.ind generalizing d with
  | var i => rfl
  | lambda body ih => simp only [bindVars, ih]
  | apply f a ihf iha => simp only [bindVars, ihf, iha]
  | delay body ih => simp only [bindVars, ih]
  | force body ih => simp only [bindVars, ih]
  | constant c => rfl
  | error => rfl
  | builtin fn => rfl
  | constr tag fields ih =>
    simp only [bindVars, bindVarsAll_eq_map, List.map_map]
    rw [List.map_congr_left fun t ht => by exact ih t ht d]
  | case s branches ihs ihb =>
    simp only [bindVars, bindVarsAll_eq_map, List.map_map, ihs]
    rw [List.map_congr_left fun t ht => by exact ihb t ht d]

/-- Replacements that agree on the variables in scope agree. -/
theorem bindVars_congr {f g : Nat → Nat → Term} {n d : Nat} {t : Term}
    (ht : t.isScoped (d + n) = true)
    (hfg : ∀ d i, 1 ≤ i → i ≤ d + n → f d i = g d i) : bindVars f d t = bindVars g d t := by
  induction t using Term.ind generalizing d with
  | var i =>
    simp only [isScoped, decide_eq_true_eq] at ht
    exact hfg d i ht.1 ht.2
  | lambda body ih =>
    simp only [isScoped] at ht
    rw [Nat.add_right_comm] at ht
    simp only [bindVars, ih ht]
  | apply f a ihf iha =>
    simp only [isScoped, Bool.and_eq_true] at ht
    simp only [bindVars, ihf ht.1, iha ht.2]
  | delay body ih => simp only [bindVars, ih ht]
  | force body ih => simp only [bindVars, ih ht]
  | constant c => rfl
  | error => rfl
  | builtin fn => rfl
  | constr tag fields ih =>
    simp only [isScoped, isScopedAll_iff] at ht
    simp only [bindVars, bindVarsAll_eq_map]
    rw [List.map_congr_left fun t hmem => ih t hmem (ht t hmem)]
  | case s branches ihs ihb =>
    simp only [isScoped, Bool.and_eq_true, isScopedAll_iff] at ht
    simp only [bindVars, bindVarsAll_eq_map, ihs ht.1]
    rw [List.map_congr_left fun t hmem => ihb t hmem (ht.2 t hmem)]

theorem bindVars_var (d : Nat) (t : Term) : bindVars (fun _ i => .var i) d t = t := by
  induction t using Term.ind generalizing d with
  | constr tag fields ih =>
    simp only [bindVars, bindVarsAll_eq_map]
    rw [List.map_congr_left fun t ht => ih t ht d, List.map_id']
  | case s branches ihs ihb =>
    simp only [bindVars, bindVarsAll_eq_map, ihs]
    rw [List.map_congr_left fun t ht => ihb t ht d, List.map_id']
  | lambda body ih => simp only [bindVars, ih]
  | apply f a ihf iha => simp only [bindVars, ihf, iha]
  | delay body ih => simp only [bindVars, ih]
  | force body ih => simp only [bindVars, ih]
  | _ => rfl

/-- A replacement that keeps bound variables keeps closed terms. -/
theorem bindVars_of_isClosed {f : Nat → Nat → Term} {t : Term} (ht : t.IsClosed)
    (hf : ∀ d i, 1 ≤ i → i ≤ d → f d i = .var i) (d : Nat) : bindVars f d t = t := by
  have hscope : t.isScoped (d + 0) = true := isScoped_mono ht (Nat.zero_le _)
  rw [bindVars_congr hscope hf, bindVars_var]

/-- A replacement by terms in scope gives a term in scope. -/
theorem isScoped_bindVars {f : Nat → Nat → Term} {n d : Nat} {t : Term}
    (ht : t.isScoped (d + n) = true)
    (hf : ∀ d i, 1 ≤ i → i ≤ d + n → (f d i).isScoped d = true) :
    (bindVars f d t).isScoped d = true := by
  induction t using Term.ind generalizing d with
  | var i =>
    simp only [isScoped, decide_eq_true_eq] at ht
    exact hf d i ht.1 ht.2
  | lambda body ih =>
    simp only [isScoped] at ht
    rw [Nat.add_right_comm] at ht
    exact ih ht
  | apply f a ihf iha =>
    simp only [isScoped, bindVars, Bool.and_eq_true] at ht ⊢
    exact ⟨ihf ht.1, iha ht.2⟩
  | delay body ih => exact ih ht
  | force body ih => exact ih ht
  | constant c => rfl
  | error => rfl
  | builtin fn => rfl
  | constr tag fields ih =>
    simp only [isScoped, bindVars, isScopedAll_iff, bindVarsAll_eq_map] at ht ⊢
    intro t hmem
    obtain ⟨u, hu, rfl⟩ := List.mem_map.1 hmem
    exact ih u hu (ht u hu)
  | case s branches ihs ihb =>
    simp only [isScoped, bindVars, Bool.and_eq_true, isScopedAll_iff, bindVarsAll_eq_map] at ht ⊢
    refine ⟨ihs ht.1, fun t hmem => ?_⟩
    obtain ⟨u, hu, rfl⟩ := List.mem_map.1 hmem
    exact ihb u hu (ht.2 u hu)

end Term

namespace Value

/-- Induction over values, with the hypothesis for every value inside. -/
@[elab_as_elim]
theorem ind {P : Value → Prop} (con : ∀ c, P (.con c))
    (delay : ∀ body env, (∀ v ∈ env, P v) → P (.delay body env))
    (lambda : ∀ body env, (∀ v ∈ env, P v) → P (.lambda body env))
    (builtin : ∀ fn forces count args, (∀ v ∈ args, P v) → P (.builtin fn forces count args))
    (constr : ∀ tag fields, (∀ v ∈ fields, P v) → P (.constr tag fields)) (v : Value) : P v := by
  refine @Value.rec P (fun vs => ∀ v ∈ vs, P v) con delay lambda builtin constr ?_ ?_ v
  · intro v hv
    cases hv
  · intro head tail hhead htail v hv
    rcases List.mem_cons.1 hv with rfl | hv
    · exact hhead
    · exact htail v hv

theorem toTerms_eq_map (vs : List Value) : toTerms vs = vs.map toTerm := by
  induction vs with
  | nil => rfl
  | cons v vs ih => simp only [toTerms, ih, List.map_cons]

theorem resolve_eq (env : Env) (i : Nat) : resolve env i = env[i]?.map toTerm := by
  induction env generalizing i with
  | nil => rfl
  | cons v env ih =>
    cases i with
    | zero => rfl
    | succ i => simp only [resolve, ih, List.getElem?_cons_succ]

/-- What holds of the terms of the values holds of everything that is put for a variable. -/
theorem forall_resolve {P : Term → Prop} {env : Env} (henv : ∀ v ∈ env, P v.toTerm) (i : Nat)
    (u : Term) (hu : resolve env i = some u) : P u := by
  rw [resolve_eq, Option.map_eq_some_iff] at hu
  obtain ⟨v, hv, rfl⟩ := hu
  exact henv v (List.mem_of_getElem? hv)

/-- Discharging nothing changes nothing. -/
theorem substitute_resolve_nil (d : Nat) (t : Term) : t.substitute (resolve []) d = t := by
  have h := Term.substitute_eq_bindVars (resolve []) d 0 t
  rw [Nat.zero_add] at h
  have hvar : (fun d' i => if i ≤ d' + d then Term.var i
      else (resolve [] (i - (d' + d) - 1)).getD (.var i)) = fun _ i => .var i := by
    funext d' i
    split <;> rfl
  rw [h, hvar, Term.bindVars_var]

variable {env : Env} (henv : ∀ v ∈ env, v.toTerm.IsClosed)
include henv

/-- Discharging an environment of closed values leaves only the binders in between. -/
theorem isScoped_substitute {t : Term} {n : Nat} (ht : t.isScoped (env.length + n) = true) :
    (t.substitute (resolve env) n).isScoped n = true := by
  have h := Term.substitute_eq_bindVars (resolve env) 0 n t
  rw [Nat.add_zero] at h
  rw [h]
  refine Term.isScoped_bindVars (n := env.length) (by rwa [Nat.add_comm]) ?_
  intro d i hi hle
  split
  · simp only [Term.isScoped, decide_eq_true_eq]
    omega
  · obtain ⟨v, hv⟩ : ∃ v, env[i - (d + 0) - 1]? = some v :=
      ⟨_, List.getElem?_eq_getElem (by omega)⟩
    rw [resolve_eq, hv]
    exact Term.isScoped_mono (henv v (List.mem_of_getElem? hv)) (Nat.zero_le _)

/-- **One more value.**  Discharging the rest of an environment under a binder and then putting the
value for the bound variable discharges the whole environment. -/
theorem instantiate_substitute {body : Term} (hbody : body.isScoped (env.length + 1) = true)
    {a : Value} (ha : a.toTerm.IsClosed) :
    (body.substitute (resolve env) 1).instantiate a.toTerm =
      body.substitute (resolve (a :: env)) 0 := by
  have h₁ := Term.substitute_eq_bindVars (resolve env) 1 0 body
  have h₂ := Term.substitute_eq_bindVars (resolve (a :: env)) 0 0 body
  rw [Nat.zero_add] at h₁
  rw [h₁, h₂, Term.instantiate, Term.bindVars_bindVars]
  refine Term.bindVars_congr (n := env.length + 1) (by rwa [Nat.zero_add]) ?_
  intro d i hi hle
  simp only [Nat.add_zero]
  by_cases hbound : i ≤ d
  · -- bound inside
    rw [if_pos (by omega), if_pos hbound]
    simp only [Term.bindVars, if_pos hbound]
  · rw [if_neg hbound]
    by_cases hnew : i = d + 1
    · -- the variable of `a`
      subst hnew
      rw [if_pos (Nat.le_refl _), Nat.add_sub_cancel_left]
      simp only [Term.bindVars, if_neg hbound, if_true]
      exact Term.bindVars_of_isClosed ha (fun d i _ hi => if_pos hi) 0
    · -- a variable of `env`
      obtain ⟨v, hv⟩ : ∃ v, env[i - (d + 1) - 1]? = some v :=
        ⟨_, List.getElem?_eq_getElem (by omega)⟩
      have hi : i - d - 1 = i - (d + 1) - 1 + 1 := by omega
      rw [if_neg (by omega), hi, resolve_eq, resolve_eq, List.getElem?_cons_succ, hv]
      exact Term.bindVars_of_isClosed (henv v (List.mem_of_getElem? hv))
        (fun d i _ hi => if_pos hi) d

end Value

end PlutusCek
