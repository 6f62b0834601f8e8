import PlutusCek.Proofs.Heredity

/-!
# Proofs.Preservation — constants keep to their declared types

If the declared types of all constants in a program are right, they are right in every state of its
run, and in the term it returns.  Every builtin that builds a list, an array or a pair declares the
types of the components it puts in, and every one that takes them apart hands on components of the
declared type; that is what their contracts say.  So a call that has been charged for never finds an
item of the wrong type (`Machine.run_typed`).
-/

namespace PlutusCek

/-- The shape of values whose constants are all well typed. -/
def Shape.typed : Shape where
  constant := Constant.WellTyped
  body _ t := t.isTyped = true
  builtin _ _ _ _ := True
  constr := True

theorem Shape.inherited_typed : Shape.typed.Inherited where
  lambda h := h
  apply h := by
    simp only [Shape.typed, Term.isTyped, Bool.and_eq_true] at h ⊢
    exact h
  delay h := h
  force h := h
  constant h := h
  fields h := Term.isTypedAll_iff.1 h
  branches h := by
    simp only [Shape.typed, Term.isTyped, Bool.and_eq_true, Term.isTypedAll_iff] at h ⊢
    exact h
  constr := trivial
  builtin _ := trivial
  forced _ _ := trivial
  applied _ _ _ := trivial
  reply hargs hc := hc hargs

namespace Value

/-- The term of a value whose constants are well typed is well typed. -/
theorem isTyped_toTerm {v : Value} (h : v.Meets .typed) : v.toTerm.isTyped = true := by
  refine h.toTerm (P := fun t => t.isTyped = true) (fun c hc => hc)
    (fun body env hbody henv => ?_) (fun body env hbody henv => ?_) (fun fn => rfl)
    (fun t ht => ht) (fun f a hf ha => ?_) (fun tag fields _ hfields => ?_)
  · exact Term.isTyped_substitute (forall_resolve henv) hbody 0
  · exact Term.isTyped_substitute (forall_resolve henv) hbody 1
  · simp only [Term.isTyped, Bool.and_eq_true]
    exact ⟨hf, ha⟩
  · simp only [Term.isTyped, Term.isTypedAll_iff]
    intro t ht
    obtain ⟨v, hv, rfl⟩ := List.mem_map.1 ht
    exact hfields v hv

end Value

namespace Machine

variable {m : Machine}

/-- A call that a well-typed state asks for finds no item of the wrong type. -/
theorem perform_ne_typeMismatch {s : RunState} (hs : s.Meets .typed) {fn : Builtin}
    {args ops : List Value} {rest : List Frame} {call : Call}
    (hcall : s.move = .call fn args rest) (hops : Value.operands args = .ok ops)
    (hprep : fn.prepare m.semantics ops = .ok call) (wanted got : String) :
    call.perform () ≠ .error (.typeMismatch wanted got) := by
  intro hfail
  have hmove := hs.move Shape.inherited_typed
  rw [hcall] at hmove
  obtain ⟨rfl, -⟩ := Value.eq_reverse_of_operands hops
  have htyped : Call.Typed args.reverse := fun c hc => hmove.1 (.con c) (List.mem_reverse.1 hc)
  cases ((fn.contract m.semantics).of_ok hprep).2.failure hfail with
  | mismatch hbad wanted got => exact hbad htyped

-- a list that is declared wrongly is charged for before its item is found
example : (Call.listData [.con (.list .data [.integer 1])] >>= fun call => call.perform ()) =
    .error (.typeMismatch "data" "integer") := rfl

/-- **Constants stay well typed.**  Take a term all of whose constants are well typed, any machine,
any account and any number of steps.  In every state of the run every constant is well typed,
wherever it is kept, and a builtin call that the state asks for cannot fail, once it is charged for,
because an item of a list has the wrong type.  The constants of the term that the run returns are
well typed. -/
theorem run_typed (m : Machine) {t : Term} (ht : t.isTyped = true) (a : Account) (fuel : Nat) :
    (∀ s ∈ m.states fuel t a, s.Meets .typed ∧ ∀ fn args rest ops call,
      s.move = .call fn args rest → Value.operands args = .ok ops →
        Builtin.prepare m.semantics fn ops = .ok call →
        ∀ wanted got, call.perform () ≠ .error (.typeMismatch wanted got)) ∧
    ∀ r b, m.run fuel t a = some (.ok r, b) → r.isTyped = true := by
  refine ⟨fun s hmem => ?_, fun r b h => ?_⟩
  · have hs : s.Meets .typed := meets_states Shape.inherited_typed ht s hmem
    exact ⟨hs, fun _ _ _ _ _ hcall hops hprep => perform_ne_typeMismatch hs hcall hops hprep⟩
  · obtain ⟨v, hv, rfl⟩ := run_ok_meets Shape.inherited_typed ht h
    exact Value.isTyped_toTerm hv

/-- A program that puts a datum in front of two others, and wraps all but the first. -/
def wrapped : Term :=
  .apply (.builtin .listData) (.apply (.force (.builtin .tailList))
    (.apply (.apply (.force (.builtin .mkCons)) (.constant (.data (.integer 1))))
      (.constant (.list .data [.data (.integer 2), .data (.bytes [])]))))

set_option maxRecDepth 1000 in
theorem run_typed_wrapped : wrapped.isTyped = true ∧
    (∃ b, (flat ⟨1, 1⟩ ⟨1, 2⟩ ⟨3, 4⟩).run 40 wrapped (.ofBudget ⟨100, 100⟩) =
      some (.ok (.constant (.data (.list [.integer 2, .bytes []]))), b)) ∧
    Term.isTyped (.constant (.data (.list [.integer 2, .bytes []]))) = true := by
  have htyped : wrapped.isTyped = true := by decide
  obtain ⟨b, hrun⟩ : ∃ b,
      (flat ⟨1, 1⟩ ⟨1, 2⟩ ⟨3, 4⟩).run 40 wrapped (.ofBudget ⟨100, 100⟩) =
        some (.ok (.constant (.data (.list [.integer 2, .bytes []]))), b) := ⟨_, rfl⟩
  obtain ⟨-, hresult⟩ :=
    run_typed (flat ⟨1, 1⟩ ⟨1, 2⟩ ⟨3, 4⟩) htyped (.ofBudget ⟨100, 100⟩) 40
  exact ⟨htyped, ⟨b, hrun⟩, hresult _ b hrun⟩

end Machine

end PlutusCek
