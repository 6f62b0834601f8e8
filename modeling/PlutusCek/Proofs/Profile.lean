import PlutusCek.Proofs.Contract
import PlutusCek.Proofs.Tariff

/-!
# Proofs.Profile — one description of a builtin's readings and results

The profile of a preparation goes through the operands once: it reads some of them in order, may
reject them, and gives a call with its sizes and its reply.  It follows two calls at a time, on
operands and on others with the same terms, as far as they go the same way (`Call.Profile`).  The
contract, the tariff and the uniformity of the preparation are three views of it
(`Profile.contract`, `Profile.tariff`, `Profile.uniform`).
-/

namespace PlutusCek.Call

variable {fn : Builtin} {ms : List Measure} {Note : List Value → Option String → Prop}
  {R : Value → Value → Prop} {args : List Value}

/-- An operand, and the value with the same term in its place in the other call. -/
structure Beside (R : Value → Value → Prop) (args : List Value) (v w : Value) : Prop where
  mem : v ∈ args
  alike : R v w
  toTerm : v.toTerm = w.toTerm

/-- The replies of two calls: a constant, which is well typed if the constants among the operands
are; one of the operands; a refusal, but not of a divisor; or a mismatch, for which ill-typed
operands are to blame. -/
inductive Replies (fn : Builtin) (Note : List Value → Option String → Prop)
    (R : Value → Value → Prop) (args : List Value) :
    Except Failure Reply → Except Failure Reply → Prop
  | constant {c : Constant} (h : Typed args → c.WellTyped) (note : Note args none) :
    Replies fn Note R args (.ok ⟨.con c, none⟩) (.ok ⟨.con c, none⟩)
  | operand {v w : Value} {message : Option String} (h : Beside R args v w)
    (note : Note args message) : Replies fn Note R args (.ok ⟨v, message⟩) (.ok ⟨w, message⟩)
  | refused {why : Refusal} (h : why ≠ .divisionByZero) :
    Replies fn Note R args (.error (.refused fn why)) (.error (.refused fn why))
  | mismatch (h : ¬ Typed args) (wanted got : String) :
    Replies fn Note R args (.error (.typeMismatch wanted got)) (.error (.typeMismatch wanted got))

/-- What comes of preparing two calls: the same rejection, or calls with such replies, the first one
charged by the measures of its operands. -/
inductive Outcome (fn : Builtin) (ms : List Measure) (Note : List Value → Option String → Prop)
    (R : Value → Value → Prop) (args : List Value) :
    Except Failure Call → Except Failure Call → Prop
  | error {f : Failure} (h : fn.Rejects args f) : Outcome fn ms Note R args (.error f) (.error f)
  | ok {c d : Call} (size : c.size = sizes (Measure.sizes ms args))
    (replies : Replies fn Note R args (c.perform ()) (d.perform ())) :
    Outcome fn ms Note R args (.ok c) (.ok d)

/-- The profile of a preparation for as many operands as there are measures. -/
structure Profile (fn : Builtin) (ms : List Measure) (Note : List Value → Option String → Prop)
    (prepare : List Value → Except Failure Call) : Prop where
  outcome : ∀ {R args args'}, args.length = ms.length → List.Forall₂ (Beside R args) args args' →
    Outcome fn ms Note R args (prepare args) (prepare args')
  malformed : ∀ {args}, args.length ≠ ms.length → prepare args = .error .malformedCall

/-! ### Reading operands -/

/-- Reads an operand in both calls and goes on. -/
theorem Reads.outcome {α : Type} {read : Value → Except Failure α} {Good : α → Prop}
    (hread : Reads read Good) {v w : Value} (h : Beside R args v w)
    {k k' : α → Except Failure Call}
    (hk : ∀ x, read v = .ok x → (Typed args → Good x) → Outcome fn ms Note R args (k x) (k' x)) :
    Outcome fn ms Note R args (read v >>= k) (read w >>= k') := by
  rw [← hread.same h.toTerm]
  cases hx : read v with
  | error f =>
    rcases hread.error hx with ⟨wanted, got, rfl⟩ | ⟨wanted, rfl⟩
    · exact .error (.mismatch wanted got)
    · exact .error (.notConstant h.mem wanted)
  | ok x =>
    refine hk x hx fun htyped => ?_
    obtain ⟨c, rfl, hgood⟩ := hread.ok hx
    exact hgood (htyped c h.mem)

/-! ### Giving a result -/

/-- A guarded result: a constant, or a refusal that is not of a divisor. -/
inductive Grants (args : List Value) : Except Refusal Constant → Prop
  | ok {c : Constant} (h : Typed args → c.WellTyped) : Grants args (.ok c)
  | error {why : Refusal} (h : why ≠ .divisionByZero) : Grants args (.error why)

/-- A checked result: a constant, a refusal as above, or a mismatch that ill-typed operands are to
blame for. -/
inductive Checks (fn : Builtin) (args : List Value) : Except Failure Constant → Prop
  | ok {c : Constant} (h : Typed args → c.WellTyped) : Checks fn args (.ok c)
  | refused {why : Refusal} (h : why ≠ .divisionByZero) :
    Checks fn args (.error (.refused fn why))
  | mismatch (h : ¬ Typed args) (wanted got : String) :
    Checks fn args (.error (.typeMismatch wanted got))

/-- What is computed without a refusal of a divisor and wrapped up as a constant. -/
theorem grants_map {α : Type} {x : Except Refusal α} {wrap : α → Constant}
    (hx : x ≠ .error .divisionByZero) (hwrap : ∀ a, (wrap a).WellTyped) :
    Grants args (x.map wrap) := by
  cases x with
  | ok a => exact .ok fun _ => hwrap a
  | error why =>
    refine .error fun hwhy => hx ?_
    rw [hwhy]

/-- What is computed from items and wrapped up as a constant. -/
theorem checks_map {α : Type} {x : Except Failure α} {wrap : α → Constant}
    (hx : ∀ {f}, x = .error f → Checks fn args (.error f)) (hwrap : ∀ a, (wrap a).WellTyped) :
    Checks fn args (x.map wrap) := by
  cases x with
  | ok a => exact .ok fun _ => hwrap a
  | error f => exact hx rfl

/-- A failure for which a bad item is to blame. -/
theorem checks_of_items {Good : Prop} {f : Failure} (hgood : Typed args → Good)
    (h : ¬ Good ∧ ∃ wanted got, f = .typeMismatch wanted got) : Checks fn args (.error f) := by
  obtain ⟨hbad, wanted, got, rfl⟩ := h
  exact .mismatch (fun htyped => hbad (hgood htyped)) wanted got

section Results

variable {size size' : Nat → Amount} (hsize : size = sizes (Measure.sizes ms args))
include hsize

theorem outcome_total {result : Unit → Constant} (h : Typed args → (result ()).WellTyped) :
    Outcome fn ms Silent R args (.ok (total size result)) (.ok (total size' result)) :=
  .ok hsize (.constant h rfl)

theorem outcome_select {v w : Value} (h : Beside R args v w) :
    Outcome fn ms Silent R args (.ok (select size v)) (.ok (select size' w)) :=
  .ok hsize (.operand h rfl)

theorem outcome_guarded {result : Unit → Except Refusal Constant} (h : Grants args (result ())) :
    Outcome fn ms Silent R args (.ok (guarded fn size result)) (.ok (guarded fn size' result)) := by
  refine .ok hsize ?_
  simp only [guarded]
  generalize result () = x at h ⊢
  cases h with
  | ok hwell => exact .constant hwell rfl
  | error hwhy => exact .refused hwhy

theorem outcome_checked {result : Unit → Except Failure Constant}
    (h : Checks fn args (result ())) :
    Outcome fn ms Silent R args (.ok (checked size result)) (.ok (checked size' result)) := by
  refine .ok hsize ?_
  simp only [checked]
  generalize result () = x at h ⊢
  cases h with
  | ok hwell => exact .constant hwell rfl
  | refused hwhy => exact .refused hwhy
  | mismatch hbad wanted got => exact .mismatch hbad wanted got

end Results

/-! ### Numbers of operands -/

section Operands

variable {prepare : List Value → Except Failure Call}

theorem profile_one {m : Measure} (hnone : prepare [] = .error .malformedCall)
    (hmore : ∀ a b rest, prepare (a :: b :: rest) = .error .malformedCall)
    (hcall : ∀ {R a a'}, Beside R [a] a a' →
      Outcome fn [m] Note R [a] (prepare [a]) (prepare [a'])) :
    Profile fn [m] Note prepare where
  outcome {R args args'} hlen h := by
    obtain ⟨a, rfl⟩ := List.length_eq_one_iff.1 hlen
    rcases h with _ | ⟨ha, ⟨⟩⟩
    exact hcall ha
  malformed {args} hlen := by
    rcases args with _ | ⟨a, _ | ⟨b, rest⟩⟩
    · exact hnone
    · exact absurd rfl hlen
    · exact hmore a b rest

theorem profile_two {m n : Measure} (hnone : prepare [] = .error .malformedCall)
    (hone : ∀ a, prepare [a] = .error .malformedCall)
    (hmore : ∀ a b c rest, prepare (a :: b :: c :: rest) = .error .malformedCall)
    (hcall : ∀ {R a a' b b'}, Beside R [a, b] a a' → Beside R [a, b] b b' →
      Outcome fn [m, n] Note R [a, b] (prepare [a, b]) (prepare [a', b'])) :
    Profile fn [m, n] Note prepare where
  outcome {R args args'} hlen h := by
    obtain ⟨a, b, rfl⟩ := List.length_eq_two.1 hlen
    rcases h with _ | ⟨ha, _ | ⟨hb, ⟨⟩⟩⟩
    exact hcall ha hb
  malformed {args} hlen := by
    rcases args with _ | ⟨a, _ | ⟨b, _ | ⟨c, rest⟩⟩⟩
    · exact hnone
    · exact hone a
    · exact absurd rfl hlen
    · exact hmore a b c rest

theorem profile_three {m n p : Measure} (hnone : prepare [] = .error .malformedCall)
    (hone : ∀ a, prepare [a] = .error .malformedCall)
    (htwo : ∀ a b, prepare [a, b] = .error .malformedCall)
    (hmore : ∀ a b c d rest, prepare (a :: b :: c :: d :: rest) = .error .malformedCall)
    (hcall : ∀ {R a a' b b' c c'}, Beside R [a, b, c] a a' → Beside R [a, b, c] b b' →
      Beside R [a, b, c] c c' →
      Outcome fn [m, n, p] Note R [a, b, c] (prepare [a, b, c]) (prepare [a', b', c'])) :
    Profile fn [m, n, p] Note prepare where
  outcome {R args args'} hlen h := by
    obtain ⟨a, b, c, rfl⟩ := List.length_eq_three.1 hlen
    rcases h with _ | ⟨ha, _ | ⟨hb, _ | ⟨hc, ⟨⟩⟩⟩⟩
    exact hcall ha hb hc
  malformed {args} hlen := by
    rcases args with _ | ⟨a, _ | ⟨b, _ | ⟨c, _ | ⟨d, rest⟩⟩⟩⟩
    · exact hnone
    · exact hone a
    · exact htwo a b
    · exact absurd rfl hlen
    · exact hmore a b c d rest

end Operands

/-! ### Three views of a profile -/

/-- Operands beside themselves. -/
theorem beside_self (args : List Value) : List.Forall₂ (Beside Eq args) args args :=
  List.forall₂_same.2 fun _ hv => ⟨hv, rfl, rfl⟩

/-- Operands beside others that are indistinct from them. -/
theorem beside_of_indistinct (hR : Indistinct R) {vs ws : List Value} (hsub : vs ⊆ args)
    (h : List.Forall₂ R vs ws) : List.Forall₂ (Beside R args) vs ws := by
  induction h with
  | nil => exact .nil
  | cons hvw _ ih =>
    have ⟨hv, hrest⟩ := List.cons_subset.1 hsub
    exact .cons ⟨hv, hvw, hR.toTerm hvw⟩ (ih hrest)

section Views

variable {x y : Except Failure Call}

theorem Outcome.prepared (h : Outcome fn ms Note R args x y) : Prepared fn args x := by
  cases h with
  | error hreject =>
    cases hreject with
    | mismatch wanted got => exact .error (.mismatch wanted got)
    | notConstant hv wanted => exact .error (.notConstant hv wanted)
    | zeroDivisor _ => exact .error (.refused _)
  | @ok c d hsize hreply =>
    generalize d.perform () = s at hreply
    refine .ok ⟨fun i => ?_, fun {f} hf => ?_, fun {r} hr => ?_⟩
    · rw [hsize]
      exact Measure.sizes_nonneg ms args i
    · rw [hf] at hreply
      cases hreply with
      | refused _ => exact .refused _
      | mismatch hbad wanted got => exact .mismatch hbad wanted got
    · rw [hr] at hreply
      cases hreply with
      | constant hwell _ => exact .inr ⟨_, rfl, hwell⟩
      | operand hv _ => exact .inl hv.mem

theorem Outcome.billed (h : Outcome fn ms Note R args x y) : Billed fn ms Note args x := by
  cases h with
  | error hreject => exact .error hreject
  | @ok c d hsize hreply =>
    generalize d.perform () = s at hreply
    refine .ok ⟨hsize, fun {r} hr => ?_, fun g hg => ?_⟩
    · rw [hr] at hreply
      cases hreply with
      | constant _ hnote => exact hnote
      | operand _ hnote => exact hnote
    · rw [hg] at hreply
      cases hreply with
      | refused hwhy => exact hwhy rfl

theorem Outcome.alike (hR : Indistinct R) (h : Outcome fn ms Note R args x y) :
    CallsAlike R x y := by
  cases h with
  | error _ => exact .error _
  | @ok c d _ hreply =>
    refine .ok ?_
    generalize c.perform () = r at hreply ⊢
    generalize d.perform () = s at hreply ⊢
    cases hreply with
    | constant _ _ => exact .ok (hR.con _) rfl
    | operand hvw _ => exact .ok hvw.alike rfl
    | refused _ => exact .error _
    | mismatch _ _ _ => exact .error _

variable {prepare : List Value → Except Failure Call}

theorem Profile.contract (h : Profile fn ms Note prepare) : Contract fn ms.length prepare where
  prepared hlen := (h.outcome hlen (beside_self _)).prepared
  malformed := h.malformed

theorem Profile.tariff (h : Profile fn ms Note prepare) : Tariff fn ms Note prepare :=
  fun hlen => (h.outcome hlen (beside_self _)).billed

theorem Profile.uniform (h : Profile fn ms Note prepare) : Uniform ms.length prepare :=
  fun hR _ _ hlen halike =>
    (h.outcome hlen (beside_of_indistinct hR (List.Subset.refl _) halike)).alike hR

end Views

end PlutusCek.Call
