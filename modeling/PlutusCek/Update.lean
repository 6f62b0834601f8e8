/-!
# Update — operations that change a state in place and can fail
-/

namespace PlutusCek

/-- Operations on a state that can fail.  What was done to the state before a failure stays done. -/
abbrev Update (ε σ : Type) := ExceptT ε (StateM σ)

namespace Update

variable {ε σ : Type} {u : Update ε σ Unit} {s s' : σ} {e : ε}

/-- How the operation ends, and the state it leaves. -/
def apply (u : Update ε σ Unit) (s : σ) : Except ε Unit × σ := u.run.run s

/-- The state that the operation leaves, if it succeeds. -/
def result (u : Update ε σ Unit) (s : σ) : Except ε σ :=
  match u.apply s with
  | (.ok (), s') => .ok s'
  | (.error e, _) => .error e

theorem apply_get_bind (f : σ → Update ε σ Unit) (s : σ) :
    apply (get >>= f) s = (f s).apply s := rfl

/-- A step that can only fail leaves the state alone. -/
theorem apply_lift_bind {α : Type} (x : Except ε α) (f : α → Update ε σ Unit) (s : σ) :
    apply (liftM x >>= f) s =
      match x with
      | .ok a => (f a).apply s
      | .error e => (.error e, s) := by
  cases x with
  | ok a => rfl
  | error e => rfl

@[simp] theorem apply_throw (e : ε) (s : σ) :
    apply (throw e : Update ε σ Unit) s = (.error e, s) := rfl

@[simp] theorem apply_set (s s' : σ) : apply (set s' : Update ε σ PUnit) s = (.ok (), s') := rfl

theorem result_of_ok (h : u.apply s = (.ok (), s')) : u.result s = .ok s' := by
  rw [result, h]

theorem result_of_error (h : u.apply s = (.error e, s')) : u.result s = .error e := by
  rw [result, h]

theorem result_eq_ok_iff : u.result s = .ok s' ↔ u.apply s = (.ok (), s') := by
  refine ⟨fun h => ?_, result_of_ok⟩
  rw [result] at h
  split at h
  · rename_i heq
    cases h
    exact heq
  · cases h

theorem result_eq_error_iff : u.result s = .error e ↔ (u.apply s).1 = .error e := by
  rw [result]
  split
  · rename_i heq
    rw [heq]
    exact iff_of_false (fun h => by cases h) fun h => by cases h
  · rename_i heq
    rw [heq, Except.error.injEq, Except.error.injEq]

end Update

end PlutusCek
