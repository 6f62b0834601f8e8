import PlutusCek.Proofs.Conformance
import PlutusCek.Proofs.Simulation

/-!
# Proofs.Adequacy — the machine evaluates by substitution

A state of the machine computes a term in an environment, for the frames below.  Discharging the
environment gives a closed term, and the course from the state does what evaluating that term by
substitution says.  The machine follows an evaluation by induction on its depth; a course that ends
has an evaluation by induction on its length.
-/

namespace PlutusCek.Machine

variable {m : Machine} {N : Nat} {c : Control} {fs K : List Frame}

/-! ### Calls -/

/-- Values with the same term, the first of them well-formed. -/
def SameTerm (v w : Value) : Prop := v.toTerm = w.toTerm ∧ v.WellFormed

theorem indistinct_sameTerm : Call.Indistinct SameTerm :=
  ⟨fun c => ⟨rfl, Value.wellFormed_con c⟩, fun h => h.1⟩

theorem sameTerm_discharged {args : List Value} (hargs : ∀ a ∈ args, a.WellFormed) :
    List.Forall₂ SameTerm args (args.map Value.discharged) := by
  rw [List.forall₂_map_right_iff, List.forall₂_same]
  intro a ha
  exact ⟨(Value.toTerm_discharged a).symm, hargs a ha⟩

/-- A call on values is the call on their terms. -/
theorem perform_reference {fn : Builtin} {args : List Value} (hargs : ∀ a ∈ args, a.WellFormed)
    (hlen : args.length = fn.arity) :
    (∃ es v, m.perform fn args = (es, .ok v) ∧ v.WellFormed ∧
      Reference.call m fn (args.reverse.map Value.discharged) =
        .value (Event.messages es) v.toTerm) ∨
    ∃ es f, m.perform fn args = (es, .error f) ∧ Event.messages es = [] ∧
      Reference.call m fn (args.reverse.map Value.discharged) = .fail f := by
  have hops : Value.operands args = .ok args.reverse :=
    Value.operands_of_length_le (hlen ▸ fn.arity_le)
  unfold perform Reference.call
  rw [hops]
  replace hargs : ∀ a ∈ args.reverse, a.WellFormed := fun a ha => hargs a (List.mem_reverse.1 ha)
  replace hlen : args.reverse.length = fn.arity := List.length_reverse.trans hlen
  generalize args.reverse = args at hargs hlen ⊢
  by_cases hav : m.isAvailable fn = true
  · simp only [if_pos hav, respond]
    have hcall := Builtin.prepare_uniform m.semantics fn indistinct_sameTerm hlen
      (sameTerm_discharged hargs)
    generalize fn.prepare m.semantics args = p at hcall ⊢
    generalize fn.prepare m.semantics (args.map Value.discharged) = q at hcall ⊢
    cases hcall with
    | error f => exact .inr ⟨_, f, rfl, rfl, rfl⟩
    | @ok c d hreply =>
      simp only
      generalize c.perform () = r at hreply ⊢
      generalize d.perform () = s at hreply ⊢
      cases hreply with
      | error f => exact .inr ⟨_, f, rfl, rfl, rfl⟩
      | @ok r s hvalue hmessage =>
        obtain ⟨hterm, hwf⟩ := hvalue
        refine .inl ⟨_, r.value, rfl, hwf, ?_⟩
        simp only [Event.messages_call, Event.messages_ofMessage, hterm, hmessage]
  · simp only [if_neg hav]
    exact .inr ⟨_, _, rfl, rfl, rfl⟩

/-- A call tracks the call on the terms of its operands. -/
theorem tracks_call {fn : Builtin} {args : List Value} (hargs : ∀ a ∈ args, a.WellFormed)
    (hlen : args.length = fn.arity) (h : m.advance fs c = m.carryOut none (.call fn args K)) :
    m.Tracks N c fs K fun _ => Reference.call m fn (args.reverse.map Value.discharged) := by
  simp only [carryOut] at h
  rcases perform_reference (m := m) hargs hlen with ⟨es, v, hperf, hwf, hcall⟩ |
    ⟨es, f, hperf, hes, hcall⟩
  · rw [hperf] at h
    rw [hcall]
    exact Tracks.reply h hwf
  · rw [hperf] at h
    rw [hcall]
    exact Tracks.fail h hes

theorem saturate_discharged (fn : Builtin) (forces count : Nat) (args : List Value) (t : Term) :
    Reference.saturate m fn forces count (args.map Value.discharged) t =
      if Value.isSaturated fn forces count then
        Reference.call m fn (args.reverse.map Value.discharged)
      else pure t := by
  simp only [Reference.saturate, List.map_reverse]

/-! ### One lemma for each form -/

section Forms

variable {ev : Nat → Term → Eval Term}
  (hev : ∀ {t : Term} {env : Env} (K : List Frame), t.isScoped env.length = true →
    (∀ v ∈ env, v.WellFormed) →
      m.Tracks N (.compute t env) K K fun d => ev d (t.substitute (Value.resolve env) 0))
include hev

theorem tracks_apply {f a : Value} (hf : f.WellFormed) (ha : a.WellFormed)
    (h : m.advance fs c = m.carryOut none (Move.apply f a K)) :
    m.Tracks (N + 1) c fs K fun d => Reference.apply m (ev d) f.toTerm a.toTerm := by
  cases f with
  | con k => exact Tracks.fail h rfl
  | delay body env => exact Tracks.fail h rfl
  | constr tag fields => exact Tracks.fail h rfl
  | lambda body env =>
    obtain ⟨hbody, henv⟩ := hf
    rw [Value.meetsAll_iff] at henv
    have hclosed : ∀ v ∈ env, v.toTerm.IsClosed := fun v hv => Value.isClosed_toTerm (henv v hv)
    have hbeta : (fun d => Reference.apply m (ev d) (Value.lambda body env).toTerm a.toTerm) =
        fun d => ev d (body.substitute (Value.resolve (a :: env)) 0) := by
      rw [← Value.instantiate_substitute hclosed hbody (Value.isClosed_toTerm ha)]
      rfl
    rw [hbeta]
    exact Tracks.step h rfl (hev K hbody (List.forall_mem_cons.2 ⟨ha, henv⟩))
  | builtin fn forces count args =>
    obtain ⟨hpartial, hargs⟩ := hf
    simp only [Reference.apply, Value.toValue_toTerm, Value.discharged_builtin hpartial]
    rw [Move.apply_builtin] at h
    by_cases hneeds : Value.needsForce fn forces = true
    · simp only [if_pos hneeds] at h ⊢
      exact Tracks.fail h rfl
    · have hall : ∀ b ∈ a :: args, b.WellFormed :=
        List.forall_mem_cons.2 ⟨ha, Value.meetsAll_iff.1 hargs⟩
      rw [if_neg hneeds, Builtin.isSaturated_of_lt hpartial.count_lt, if_neg Bool.false_ne_true]
        at h
      simp only [if_neg hneeds]
      show m.Tracks (N + 1) c fs K fun _ => Reference.saturate m fn forces (count + 1)
        ((a :: args).map Value.discharged) _
      rw [saturate_discharged]
      unfold Move.ofBuiltin at h
      rcases hpartial.apply (Bool.eq_false_iff.2 hneeds) with ⟨hsat, hlen⟩ | ⟨hsat, hnext⟩
      · rw [hsat] at h ⊢
        exact tracks_call hall hlen h
      · have hterm : (Value.builtin fn forces count args).toTerm.apply a.toTerm =
            (Value.builtin fn forces (count + 1) (a :: args)).toTerm := by
          have hkept : (a :: args).length ≤ Builtin.maxArity := hnext.kept_le
          rw [Value.toTerm_of_length_le hpartial.kept_le, Value.toTerm_of_length_le hkept,
            Value.spine]
        rw [hsat] at h ⊢
        rw [hterm]
        exact Tracks.step h rfl (Tracks.pure ⟨hnext, Value.meetsAll_iff.2 hall⟩)

theorem tracks_force {v : Value} (hv : v.WellFormed)
    (h : m.advance fs c = m.carryOut none (Move.force v K)) :
    m.Tracks (N + 1) c fs K fun d => Reference.force m (ev d) v.toTerm := by
  cases v with
  | con k => exact Tracks.fail h rfl
  | lambda body env => exact Tracks.fail h rfl
  | constr tag fields => exact Tracks.fail h rfl
  | delay body env =>
    obtain ⟨hbody, henv⟩ := hv
    exact Tracks.step h rfl (hev K hbody (Value.meetsAll_iff.1 henv))
  | builtin fn forces count args =>
    obtain ⟨hpartial, hargs⟩ := hv
    simp only [Reference.force, Value.toValue_toTerm, Value.discharged_builtin hpartial]
    rw [Move.force_builtin] at h
    by_cases hneeds : Value.needsForce fn forces = true
    · simp only [if_pos hneeds] at h ⊢
      have hnext := hpartial.force hneeds
      obtain rfl : args = [] := List.eq_nil_of_length_eq_zero
        (hpartial.kept_eq.trans (hpartial.count_eq_zero hneeds))
      have hsat := Builtin.isSaturated_of_lt hnext.count_lt (forces + 1)
      show m.Tracks (N + 1) c fs K fun _ => Reference.saturate m fn (forces + 1) count
        (([] : List Value).map Value.discharged) (Value.builtin fn (forces + 1) count []).toTerm
      rw [saturate_discharged, hsat]
      simp only [Move.ofBuiltin, hsat] at h
      exact Tracks.step h rfl (Tracks.pure ⟨hnext, hargs⟩)
    · simp only [if_neg hneeds] at h ⊢
      exact Tracks.fail h rfl

theorem tracks_applyAll {v : Value} (hv : v.WellFormed) {fields : List Value}
    (hfields : ∀ a ∈ fields, a.WellFormed) :
    m.Tracks N (.answer v) (Move.applyFields fields K) K fun d =>
      Reference.applyAll m (ev d) v.toTerm (fields.map Value.toTerm) := by
  induction fields generalizing v with
  | nil => exact Tracks.pure hv
  | cons a fields ih =>
    have ha : a.WellFormed := hfields a (by simp)
    refine Tracks.bind ((tracks_apply hev hv ha rfl).mono (Nat.le_succ N)) ?_
    intro w hw
    exact ih hw fun b hb => hfields b (by simp [hb])

theorem tracks_select {v : Value} (hv : v.WellFormed) {env : Env} {terms : List Term}
    (hterms : ∀ t ∈ terms, t.isScoped env.length = true) (henv : ∀ w ∈ env, w.WellFormed)
    (h : m.advance fs c = m.carryOut none (Move.select env terms v K)) :
    m.Tracks (N + 1) c fs K fun d =>
      Reference.select m (ev d) (terms.map (Term.substitute (Value.resolve env) 0)) v.toTerm := by
  cases v with
  | con k => exact Tracks.fail h rfl
  | lambda body env => exact Tracks.fail h rfl
  | delay body env => exact Tracks.fail h rfl
  | builtin fn forces count args =>
    simp only [Reference.select, Value.toValue_toTerm, Value.discharged_builtin hv.1]
    exact Tracks.fail h rfl
  | constr tag fields =>
    obtain ⟨-, hfields⟩ := hv
    have hback : (fields.map Value.discharged).map Value.toTerm = fields.map Value.toTerm := by
      rw [List.map_map]
      exact List.map_congr_left fun w _ => Value.toTerm_discharged w
    simp only [Reference.select, Value.toValue_toTerm, Value.discharged_constr, hback,
      List.getElem?_map, List.length_map]
    simp only [Move.select] at h
    by_cases htag : Move.maxTag < tag.toNat
    · simp only [if_pos htag] at h ⊢
      exact Tracks.fail h rfl
    · simp only [if_neg htag] at h ⊢
      cases hbranch : terms[tag.toNat]? with
      | none =>
        rw [hbranch] at h
        exact Tracks.fail h rfl
      | some branch =>
        rw [hbranch] at h
        have hscope := hterms branch (List.mem_of_getElem? hbranch)
        refine Tracks.step h rfl (Tracks.bind (hev _ hscope henv) ?_)
        intro f hf
        exact tracks_applyAll hev hf (Value.meetsAll_iff.1 hfields)

/-- Handing a field to its frame tracks the evaluation of the fields that remain. -/
theorem tracks_fields {env : Env} {ts : List Term} (hts : ∀ t ∈ ts, t.isScoped env.length = true)
    (henv : ∀ w ∈ env, w.WellFormed) (tag : UInt64) {v : Value} {done : List Value}
    (hdone : ∀ w ∈ v :: done, w.WellFormed) :
    m.Tracks N (.answer v) (.field env tag ts done :: K) K fun d =>
      Reference.collect (ev d) tag ((v :: done).reverse.map Value.toTerm)
        (ts.map (Term.substitute (Value.resolve env) 0)) := by
  induction ts generalizing v done with
  | nil =>
    have hconstr : (Value.constr tag (v :: done).reverse).WellFormed :=
      ⟨trivial, Value.meetsAll_iff.2 fun w hw => hdone w (List.mem_reverse.1 hw)⟩
    have hterm : (Value.constr tag (v :: done).reverse).toTerm =
        .constr tag ((v :: done).reverse.map Value.toTerm) := by
      simp only [Value.toTerm, Value.toTerms_eq_map]
    refine Tracks.mono (Tracks.step rfl rfl ?_) (Nat.le_succ N)
    rw [List.map_nil]
    simp only [Reference.collect, ← hterm]
    exact Tracks.pure hconstr
  | cons t ts ih =>
    refine Tracks.mono (Tracks.step rfl rfl ?_) (Nat.le_succ N)
    refine Tracks.bind (hev _ (hts t (by simp)) henv) ?_
    intro w hw
    -- the frame keeps the latest field first, the evaluation the first one
    have hnext := ih (fun t ht => hts t (by simp [ht])) (List.forall_mem_cons.2 ⟨hw, hdone⟩)
    rw [List.reverse_cons, List.map_append] at hnext
    exact hnext

/-- Computing a term in an environment tracks the evaluation of the discharged term, if computing
its parts does and handing on a value does. -/
theorem tracks_descend
    (hval : ∀ v : Value, v.WellFormed →
      m.Tracks N (.answer v) K K fun d => Reference.descend m (ev d) v.toTerm)
    {t : Term} {env : Env} (ht : t.isScoped env.length = true) (henv : ∀ v ∈ env, v.WellFormed) :
    m.Tracks (N + 1) (.compute t env) K K fun d =>
      Reference.descend m (ev d) (t.substitute (Value.resolve env) 0) := by
  cases t with
  | var i =>
    simp only [Term.isScoped, decide_eq_true_eq] at ht
    obtain ⟨j, rfl⟩ : ∃ j, i = j + 1 := ⟨i - 1, by omega⟩
    obtain ⟨v, hv⟩ : ∃ v, env[j]? = some v := ⟨_, List.getElem?_eq_getElem (by omega)⟩
    have hsubst : (Term.var (j + 1)).substitute (Value.resolve env) 0 = v.toTerm := by
      simp only [Term.substitute, Value.resolve_eq, Nat.sub_zero, Nat.add_sub_cancel, hv]
      rfl
    have hmove : m.advance K (.compute (.var (j + 1)) env) =
        (Event.ofKind (some .var), .going (.answer v) K) := by
      simp only [advance, Move.compute, Env.lookup?, hv, carryOut]
      rfl
    rw [hsubst]
    exact Tracks.step hmove rfl (hval v (henv v (List.mem_of_getElem? hv)))
  | lambda body =>
    exact Tracks.step rfl rfl
      (Tracks.pure (v := .lambda body env) ⟨ht, Value.meetsAll_iff.2 henv⟩)
  | delay body =>
    exact Tracks.step rfl rfl
      (Tracks.pure (v := .delay body env) ⟨ht, Value.meetsAll_iff.2 henv⟩)
  | constant k => exact Tracks.step rfl rfl (Tracks.pure (Value.wellFormed_con k))
  | builtin fn =>
    exact Tracks.step rfl rfl (Tracks.pure (v := .builtin fn 0 0 []) ⟨fn.partial_zero, trivial⟩)
  | error => exact Tracks.fail rfl rfl
  | apply f a =>
    simp only [Term.isScoped, Bool.and_eq_true] at ht
    refine Tracks.step rfl rfl (Tracks.bind (hev _ ht.1 henv) fun g hg => ?_)
    refine Tracks.mono (Tracks.step rfl rfl ?_) (Nat.le_succ N)
    refine Tracks.bind (hev _ ht.2 henv) fun b hb => ?_
    exact (tracks_apply hev hg hb rfl).mono (Nat.le_succ N)
  | force body =>
    refine Tracks.step rfl rfl (Tracks.bind (hev _ ht henv) fun v hv => ?_)
    exact (tracks_force hev hv rfl).mono (Nat.le_succ N)
  | constr tag fields =>
    simp only [Term.isScoped, Term.isScopedAll_iff] at ht
    simp only [Term.substitute, Term.substituteList_eq_map, Reference.descend]
    cases fields with
    | nil => exact Tracks.step rfl rfl (Tracks.pure (v := .constr tag []) ⟨trivial, trivial⟩)
    | cons t ts =>
      refine Tracks.step rfl rfl (Tracks.bind (hev _ (ht t (by simp)) henv) fun v hv => ?_)
      exact tracks_fields hev (fun t hmem => ht t (by simp [hmem])) henv tag (by simpa using hv)
  | case s branches =>
    simp only [Term.isScoped, Bool.and_eq_true, Term.isScopedAll_iff] at ht
    simp only [Term.substitute, Term.substituteList_eq_map, Reference.descend]
    refine Tracks.step rfl rfl (Tracks.bind (hev _ ht.1 henv) fun v hv => ?_)
    exact (tracks_select hev hv ht.2 henv rfl).mono (Nat.le_succ N)

end Forms

/-! ### Both directions -/

/-- Evaluating the term of a value finds nothing else. -/
theorem evaluate_within_value {v : Value} (hv : v.WellFormed) (depth : Nat) :
    (Reference.evaluate m depth v.toTerm).Within (.value [] v.toTerm) := by
  obtain ⟨d, hd⟩ := Reference.evaluate_value (m := m) hv
  have hle := Reference.evaluate_mono (m := m) (Nat.le_max_left depth d) v.toTerm
  rwa [Reference.evaluate_of_le hd (Nat.le_max_right depth d)] at hle

/-- The machine follows an evaluation, by induction on the depth. -/
theorem tracks_depth (depth : Nat) {t : Term} {env : Env} (K : List Frame)
    (ht : t.isScoped env.length = true) (henv : ∀ v ∈ env, v.WellFormed) :
    m.Tracks 0 (.compute t env) K K fun _ =>
      Reference.evaluate m depth (t.substitute (Value.resolve env) 0) := by
  induction depth generalizing t env K with
  | zero => exact ⟨fun _ => Eval.within_refl _, fun _ => trivial, Tracks.complete_zero⟩
  | succ depth ih =>
    refine (tracks_descend (fun K => ih K) ?_ ht henv).mono (Nat.zero_le _)
    intro v hv
    exact Tracks.value hv (fun _ => Eval.within_refl _)
      (fun _ => evaluate_within_value hv (depth + 1)) fun h => absurd h (Nat.lt_irrefl 0)

/-- A course that ends has an evaluation, by induction on its length. -/
theorem tracks_evaluate (N : Nat) {t : Term} {env : Env} (K : List Frame)
    (ht : t.isScoped env.length = true) (henv : ∀ v ∈ env, v.WellFormed) :
    m.Tracks N (.compute t env) K K fun d =>
      Reference.evaluate m d (t.substitute (Value.resolve env) 0) := by
  refine ⟨fun d => Reference.evaluate_succ d _, fun d => (tracks_depth d K ht henv).sound 0, ?_⟩
  induction N generalizing t env K with
  | zero => exact Tracks.complete_zero
  | succ N ih =>
    have hparts : ∀ {t : Term} {env : Env} (K : List Frame), t.isScoped env.length = true →
        (∀ v ∈ env, v.WellFormed) → m.Tracks N (.compute t env) K K fun d =>
          Reference.evaluate m d (t.substitute (Value.resolve env) 0) := by
      intro t env K ht henv
      exact ⟨fun d => Reference.evaluate_succ d _, fun d => (tracks_depth d K ht henv).sound 0,
        ih K ht henv⟩
    have hvalue : ∀ v : Value, v.WellFormed → m.Tracks N (.answer v) K K fun d =>
        Reference.descend m (Reference.evaluate m d) v.toTerm := by
      intro v hv
      obtain ⟨d, hd⟩ := Reference.evaluate_value (m := m) hv
      refine Tracks.value hv (fun d => Reference.evaluate_succ (d + 1) _)
        (fun d => evaluate_within_value hv (d + 1)) fun _ => ⟨d, fun hcut => ?_⟩
      have hstay : Reference.evaluate m (d + 1) v.toTerm = .cut := hcut
      rw [Reference.evaluate_of_le hd (Nat.le_succ d)] at hstay
      cases hstay
    intro n hn hend
    obtain ⟨d, hd⟩ := (tracks_descend hparts hvalue ht henv).complete n hn hend
    exact ⟨d + 1, hd⟩

/-! ### Closed terms -/

section Closed

variable {t : Term} (ht : t.IsClosed)
include ht

theorem tracks_closed (N : Nat) :
    m.Tracks N (.compute t []) [] [] fun d => Reference.evaluate m d t := by
  have h : m.Tracks N (.compute t []) [] [] fun d =>
      Reference.evaluate m d (t.substitute (Value.resolve []) 0) :=
    tracks_evaluate N [] ht fun v hv => by cases hv
  rwa [Value.substitute_resolve_nil] at h

/-- The course of a term that has a value. -/
theorem course_of_returns {log : List String} {r : Term} (h : Reference.Returns m t log r) :
    ∃ n es, m.course n (.compute t []) [] = (es, some (.ok r)) ∧ Event.messages es = log := by
  obtain ⟨d, hd⟩ := h
  have hsound := (tracks_closed (m := m) ht 0).sound d
  rw [hd] at hsound
  obtain ⟨n, es, v, hleads, rfl, -, rfl⟩ := hsound
  refine ⟨n + 1, es ++ [.finish], ?_, by simp⟩
  rw [hleads 1]
  rfl

/-- The course of a term that fails. -/
theorem course_of_fails {log : List String} {f : Failure} (h : Reference.Fails m t log f) :
    ∃ n es step, m.course n (.compute t []) [] = (es, some (.error ⟨f, step⟩)) ∧
      Event.messages es = log := by
  obtain ⟨d, hd⟩ := h
  have hsound := (tracks_closed (m := m) ht 0).sound d
  rwa [hd] at hsound

/-- A course that ends is that of a term that has a value or fails. -/
theorem returns_or_fails {n : Nat} (h : m.Ends n (.compute t []) []) :
    (∃ log r, Reference.Returns m t log r) ∨ ∃ log f, Reference.Fails m t log f := by
  obtain ⟨d, hd⟩ := (tracks_closed ht n).complete n (Nat.le_refl n) h
  cases hev : Reference.evaluate m d t with
  | cut => exact absurd hev hd
  | value log r => exact .inl ⟨log, r, d, hev⟩
  | failure log f => exact .inr ⟨log, f, d, hev⟩

theorem returns_of_course {n : Nat} {r : Term}
    (h : (m.course n (.compute t []) []).2 = some (.ok r)) :
    Reference.Returns m t (Event.messages (m.course n (.compute t []) []).1) r := by
  rcases returns_or_fails ht ⟨_, h⟩ with ⟨log, r', href⟩ | ⟨log, f, href⟩
  · obtain ⟨k, es, hk, rfl⟩ := course_of_returns ht href
    have heq := course_unique h (congrArg Prod.snd hk)
    rw [heq, hk] at h ⊢
    cases h
    exact href
  · obtain ⟨k, es, step, hk, -⟩ := course_of_fails ht href
    rw [course_unique h (congrArg Prod.snd hk), hk] at h
    cases h

theorem fails_of_course {n : Nat} {e : MachineError}
    (h : (m.course n (.compute t []) []).2 = some (.error e)) :
    Reference.Fails m t (Event.messages (m.course n (.compute t []) []).1) e.cause := by
  rcases returns_or_fails ht ⟨_, h⟩ with ⟨log, r, href⟩ | ⟨log, f, href⟩
  · obtain ⟨k, es, hk, -⟩ := course_of_returns ht href
    rw [course_unique h (congrArg Prod.snd hk), hk] at h
    cases h
  · obtain ⟨k, es, step, hk, rfl⟩ := course_of_fails ht href
    have heq := course_unique h (congrArg Prod.snd hk)
    rw [heq, hk] at h ⊢
    cases h
    exact href

end Closed

/-- **Adequacy.**  Take a closed term, any machine and any account.  If a run returns a term, that
term is the value of the program by substitution, with the messages the run has logged; if it ends
with an error other than an overdraft, evaluation by substitution fails for the same cause with the
same messages.  Conversely a program that has a value, or fails, by substitution has a run that ends
so, with the same messages, or that is overdrawn after some of them. -/
theorem run_adequate (m : Machine) {t : Term} (ht : t.IsClosed) (a : Account) :
    (∀ fuel r b, m.run fuel t a = some (.ok r, b) →
      ∃ log, Reference.Returns m t log r ∧ b.log.toList = a.log.toList ++ log) ∧
    (∀ fuel e b, m.run fuel t a = some (.error e, b) → ¬ Overdrawn (.error e) →
      ∃ log, Reference.Fails m t log e.cause ∧ b.log.toList = a.log.toList ++ log) ∧
    (∀ log r, Reference.Returns m t log r → ∃ fuel x b, m.run fuel t a = some (x, b) ∧
      (Overdrawn x ∧ b.log.toList <+: a.log.toList ++ log ∨
        x = .ok r ∧ b.log.toList = a.log.toList ++ log)) ∧
    (∀ log f, Reference.Fails m t log f → ∃ fuel x b, m.run fuel t a = some (x, b) ∧
      (Overdrawn x ∧ b.log.toList <+: a.log.toList ++ log ∨
        (∃ step, x = .error ⟨f, step⟩) ∧ b.log.toList = a.log.toList ++ log)) := by
  refine ⟨?_, ?_, ?_, ?_⟩
  · intro fuel r b hrun
    obtain ⟨hres, hlog⟩ := run_of_not_overdrawn hrun (not_overdrawn_ok r)
    exact ⟨_, returns_of_course ht hres, hlog⟩
  · intro fuel e b hrun hover
    obtain ⟨hres, hlog⟩ := run_of_not_overdrawn hrun hover
    exact ⟨_, fails_of_course ht hres, hlog⟩
  · intro log r href
    obtain ⟨fuel, es, hcourse, rfl⟩ := course_of_returns ht href
    obtain ⟨x, b, hrun, hx⟩ := run_of_course hcourse a
    exact ⟨fuel, x, b, hrun, hx⟩
  · intro log f href
    obtain ⟨fuel, es, step, hcourse, rfl⟩ := course_of_fails ht href
    obtain ⟨x, b, hrun, hx⟩ := run_of_course hcourse a
    refine ⟨fuel, x, b, hrun, ?_⟩
    rcases hx with hover | ⟨rfl, hlog⟩
    · exact .inl hover
    · exact .inr ⟨⟨step, rfl⟩, hlog⟩

set_option maxRecDepth 1000 in
theorem run_adequate_difference : Term.difference.IsClosed ∧
    Reference.Returns (flat ⟨1, 1⟩ ⟨1, 2⟩ ⟨3, 4⟩) .difference ["subtract"]
      (.constant (.integer 1)) := by
  have hclosed : Term.difference.IsClosed := by decide
  obtain ⟨log, href, hlog⟩ :=
    (run_adequate (flat ⟨1, 1⟩ ⟨1, 2⟩ ⟨3, 4⟩) hclosed (.ofBudget ⟨100, 100⟩)).1 40 _ _ rfl
  obtain rfl : ["subtract"] = log := hlog
  exact ⟨hclosed, href⟩

end PlutusCek.Machine
