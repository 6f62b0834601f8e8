import PlutusCek.Proofs.Heredity
import PlutusCek.Proofs.Lockstep

/-!
# Proofs.Wrapping — checked bytes refine wrapped bytes

The semantics of a machine is consulted in one place: when `consByteString` turns a number into a
byte.  Both semantics agree on the numbers that are bytes, and up to that point, which comes after
the call has been charged for, they do the same (`Builtin.prepare_semantics`,
`Machine.invoke_wrapping`).  So a run under checked semantics that is not refused a byte is the run
under wrapping semantics, and under wrapping semantics no byte is refused (`Machine.run_wrapping`).
-/

namespace PlutusCek

/-- A result that reports a number that `consByteString` does not take for a byte. -/
def ByteRefused (result : Except MachineError Term) : Prop :=
  ∃ n kind, result = .error ⟨.refused .consByteString (.byteOutOfRange n), kind⟩

/-! ### Bytes -/

/-- Reducing a number that is a byte does not change it. -/
theorem byteOf?_wrapping {n : Int} {byte : UInt8} (h : byteOf? .checked n = some byte) :
    byteOf? .wrapping n = some byte := by
  simp only [byteOf?] at h ⊢
  split at h
  · rename_i hrange
    have hmod : n % 256 = n := Int.emod_eq_of_lt hrange.1 hrange.2
    rw [hmod]
    exact h
  · cases h

namespace Call

variable {fn : Builtin} {args : List Value}

/-- A number and a byte string are accepted; other operands fail alike under both semantics, and not
by a refusal. -/
theorem consByte_cases (fn : Builtin) (args : List Value) :
    (∃ n x, args = [.con (.integer n), .con (.bytes x)]) ∨
      ∃ f, (∀ semantics, consByte fn semantics args = .error f) ∧ ∀ why, f ≠ .refused fn why := by
  rcases args with _ | ⟨v, _ | ⟨w, _ | ⟨u, rest⟩⟩⟩
  · exact .inr ⟨.malformedCall, fun _ => rfl, fun _ h => by cases h⟩
  · exact .inr ⟨.malformedCall, fun _ => rfl, fun _ h => by cases h⟩
  · cases hv : v.asInteger with
    | error f =>
      refine .inr ⟨f, fun semantics => ?_, fun why => ?_⟩
      · simp only [consByte, hv]
        rfl
      · rcases reads_asInteger.error hv with ⟨wanted, got, rfl⟩ | ⟨wanted, rfl⟩ <;>
          exact fun h => by cases h
    | ok n =>
      cases hw : w.asBytes with
      | error f =>
        refine .inr ⟨f, fun semantics => ?_, fun why => ?_⟩
        · simp only [consByte, hv, hw]
          rfl
        · rcases reads_asBytes.error hw with ⟨wanted, got, rfl⟩ | ⟨wanted, rfl⟩ <;>
            exact fun h => by cases h
      | ok x =>
        refine .inl ⟨n, x, ?_⟩
        rw [Value.asInteger_ok hv, Value.asBytes_ok hw]
  · exact .inr ⟨.malformedCall, fun _ => rfl, fun _ h => by cases h⟩

/-- The call that puts a number in front of a byte string. -/
def consCall (fn : Builtin) (semantics : Semantics) (n : Int) (x : Bytes) : Call :=
  guarded fn (sizes [Size.integer n, Size.bytes x]) fun _ =>
    match byteOf? semantics n with
    | some byte => .ok (.bytes (byte :: x))
    | none => .error (.byteOutOfRange n)

theorem consByte_eq (fn : Builtin) (semantics : Semantics) (n : Int) (x : Bytes) :
    consByte fn semantics [.con (.integer n), .con (.bytes x)] =
      .ok (consCall fn semantics n x) := rfl

/-- The two semantics put the same byte in front, unless the checked one refuses the number. -/
theorem consCall_perform (fn : Builtin) (n : Int) (x : Bytes) :
    (consCall fn .wrapping n x).perform () = (consCall fn .checked n x).perform () ∨
      (consCall fn .checked n x).perform () = .error (.refused fn (.byteOutOfRange n)) := by
  simp only [consCall, guarded]
  cases hbyte : byteOf? .checked n with
  | none => exact .inr rfl
  | some byte =>
    rw [byteOf?_wrapping hbyte]
    exact .inl rfl

theorem consCall_wrapping (fn : Builtin) (n : Int) (x : Bytes) :
    ∃ reply, (consCall fn .wrapping n x).perform () = .ok reply := ⟨_, rfl⟩

end Call

/-- No other builtin looks at the semantics. -/
theorem Builtin.prepare_semantics {fn : Builtin} (h : fn ≠ .consByteString) (s s' : Semantics)
    (args : List Value) : fn.prepare s args = fn.prepare s' args := by
  cases fn with
  | consByteString => exact absurd rfl h
  | _ => rfl

namespace Machine

variable (m : Machine)

/-! ### Calls -/

theorem callBuiltin_wrapping (fn : Builtin) (args : List Value) (a : Account) :
    ({ m with semantics := .wrapping } : Machine).callBuiltin fn args a =
        ({ m with semantics := .checked } : Machine).callBuiltin fn args a ∨
      ∃ f b, ({ m with semantics := .checked } : Machine).callBuiltin fn args a = .error (f, b) ∧
        ∃ n, f = .refused .consByteString (.byteOutOfRange n) := by
  by_cases hfn : fn = .consByteString
  · subst hfn
    rcases Call.consByte_cases .consByteString args with ⟨n, x, rfl⟩ | ⟨f, hsame, -⟩
    · simp only [callBuiltin, Builtin.prepare, Call.consByte_eq]
      -- both calls have the same sizes, so they are charged alike
      have hcharge : ({ m with semantics := .wrapping } : Machine).charge .consByteString
          (Call.consCall .consByteString .wrapping n x) a =
            ({ m with semantics := .checked } : Machine).charge .consByteString
              (Call.consCall .consByteString .checked n x) a := rfl
      rw [hcharge]
      cases ({ m with semantics := .checked } : Machine).charge .consByteString
          (Call.consCall .consByteString .checked n x) a with
      | error y => exact .inl rfl
      | ok b =>
        rcases Call.consCall_perform .consByteString n x with hperf | hrefused
        · refine .inl ?_
          simp only [hperf]
        · exact .inr ⟨_, b, by simp only [hrefused], n, rfl⟩
    · refine .inl ?_
      simp only [callBuiltin, Builtin.prepare, hsame]
  · refine .inl ?_
    simp only [callBuiltin, Builtin.prepare_semantics hfn .wrapping .checked]
    rfl

theorem invoke_wrapping (fn : Builtin) (args : List Value) (a : Account) :
    ({ m with semantics := .wrapping } : Machine).invoke fn args a =
        ({ m with semantics := .checked } : Machine).invoke fn args a ∨
      ∃ f b, ({ m with semantics := .checked } : Machine).invoke fn args a = .error (f, b) ∧
        ∃ n, f = .refused .consByteString (.byteOutOfRange n) := by
  unfold invoke
  have hsame : ({ m with semantics := .wrapping } : Machine).isAvailable fn =
      ({ m with semantics := .checked } : Machine).isAvailable fn := rfl
  rw [hsame]
  split
  · cases Value.operands args with
    | ok ops => exact callBuiltin_wrapping m fn ops a
    | error f => exact .inl rfl
  · exact .inl rfl

/-- Under wrapping semantics `consByteString` refuses no byte. -/
theorem respond_wrapping_ne {ops : List Value} (hm : m.semantics = .wrapping) (n : Int) :
    (m.respond .consByteString ops).2 ≠
      .error (.refused .consByteString (.byteOutOfRange n)) := by
  intro h
  simp only [respond, Builtin.prepare, hm] at h
  rcases Call.consByte_cases .consByteString ops with ⟨k, x, rfl⟩ | ⟨f, hsame, hne⟩
  · obtain ⟨reply, hreply⟩ := Call.consCall_wrapping .consByteString k x
    simp only [Call.consByte_eq, hreply] at h
    cases h
  · simp only [hsame] at h
    cases h
    exact hne _ rfl

/-- Nor does any call do so in its name. -/
theorem perform_wrapping_ne {fn : Builtin} {args : List Value} (hm : m.semantics = .wrapping)
    (n : Int) : (m.perform fn args).2 ≠ .error (.refused .consByteString (.byteOutOfRange n)) := by
  intro h
  cases perform_error h with
  | refused why =>
    rcases perform_cases (m := m) .consByteString args with ⟨ops, -, -, heq⟩ | ⟨-, heq⟩ |
      ⟨f, hops, heq⟩
    · exact m.respond_wrapping_ne hm n (heq ▸ h)
    · rw [heq] at h
      cases h
    · rw [heq] at h
      cases h
      cases (Value.eq_corrupt_of_operands hops).1

/-- **Checked semantics refines wrapping semantics.**  Take two machines that differ in nothing but
their semantics, any term, any account and any number of steps.  If the run under checked semantics
is not refused a byte by `consByteString`, the run under wrapping semantics comes to the same: the
same result, the same budget left and the same log.  A run under wrapping semantics is never refused
one. -/
theorem run_wrapping (fuel : Nat) (t : Term) (a : Account) :
    ((∀ x b, ({ m with semantics := .checked } : Machine).run fuel t a = some (x, b) →
        ¬ ByteRefused x) →
      ({ m with semantics := .wrapping } : Machine).run fuel t a =
        ({ m with semantics := .checked } : Machine).run fuel t a) ∧
    ∀ x b, ({ m with semantics := .wrapping } : Machine).run fuel t a = some (x, b) →
      ¬ ByteRefused x := by
  refine ⟨fun hgoes => ?_, fun x b h => ?_⟩
  · have hlock : Lockstep _ _ { m with semantics := .checked } { m with semantics := .wrapping } :=
      lockstep_of_invoke rfl (invoke_wrapping m) rfl
    rcases hlock.run (fun _ _ => trivial) fuel with hsame | ⟨e, b, hrun, n, he⟩
    · exact hsame
    · refine absurd ⟨n, e.step, ?_⟩ (hgoes _ _ hrun)
      rw [← he]
  · rintro ⟨n, kind, rfl⟩
    refine run_cause_ne (fun rest hf => ?_) (fun s _ hstuck => ?_) (fun s _ fn args _ _ => ?_) h rfl
    · cases hf
    · cases RunState.stuck hstuck
    · exact perform_wrapping_ne _ rfl n

/-- A program that puts a number in front of a byte string and asks for the byte there. -/
def firstByte (n : Int) : Term :=
  .apply (.apply (.builtin .indexByteString)
    (.apply (.apply (.builtin .consByteString) (.constant (.integer n)))
      (.constant (.bytes [1])))) (.constant (.integer 0))

set_option maxRecDepth 1000 in
theorem run_wrapping_firstByte :
    (∃ b, ({ flat ⟨1, 1⟩ ⟨1, 2⟩ ⟨3, 4⟩ with semantics := .checked } : Machine).run 40
        (firstByte 255) (.ofBudget ⟨100, 100⟩) = some (.ok (.constant (.integer 255)), b) ∧
      ({ flat ⟨1, 1⟩ ⟨1, 2⟩ ⟨3, 4⟩ with semantics := .wrapping } : Machine).run 40 (firstByte 255)
        (.ofBudget ⟨100, 100⟩) = some (.ok (.constant (.integer 255)), b)) ∧
    ∃ x b, ({ flat ⟨1, 1⟩ ⟨1, 2⟩ ⟨3, 4⟩ with semantics := .wrapping } : Machine).run 40
        (firstByte (-1)) (.ofBudget ⟨100, 100⟩) = some (x, b) ∧ ¬ ByteRefused x := by
  constructor
  · obtain ⟨b, hb⟩ : ∃ b, ({ flat ⟨1, 1⟩ ⟨1, 2⟩ ⟨3, 4⟩ with semantics := .checked } :
        Machine).run 40 (firstByte 255) (.ofBudget ⟨100, 100⟩) =
          some (.ok (.constant (.integer 255)), b) :=
      ⟨_, rfl⟩
    refine ⟨b, hb, ?_⟩
    rw [← hb]
    refine (run_wrapping (flat ⟨1, 1⟩ ⟨1, 2⟩ ⟨3, 4⟩) 40 _ _).1 fun x c hx => ?_
    rw [hb] at hx
    cases hx
    rintro ⟨n, kind, hrefused⟩
    cases hrefused
  · obtain ⟨x, b, hb⟩ : ∃ x b, ({ flat ⟨1, 1⟩ ⟨1, 2⟩ ⟨3, 4⟩ with semantics := .wrapping } :
        Machine).run 40 (firstByte (-1)) (.ofBudget ⟨100, 100⟩) = some (x, b) := ⟨_, _, rfl⟩
    exact ⟨x, b, hb, (run_wrapping (flat ⟨1, 1⟩ ⟨1, 2⟩ ⟨3, 4⟩) 40 _ _).2 x b hb⟩

end Machine

end PlutusCek
