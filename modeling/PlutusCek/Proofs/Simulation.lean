import PlutusCek.Proofs.Independence
import PlutusCek.Proofs.Reference

/-!
# Proofs.Simulation — following an evaluation step by step

The machine follows an evaluation from a state if it gets to a value with the same term on top of
the frames below, or ends with the same failure, with the same messages.  It tracks evaluations to
growing depth if it follows each of them and, whenever it comes to an end soon enough, one of them
is deep enough.  Tracking composes as evaluations do (`Tracks.bind`), so one lemma for each form of
term serves both directions.
-/
namespace PlutusCek.Machine

variable {m : Machine} {N n k : Nat} {c c' : Control} {fs fs' K : List Frame} {es es' : List Event}

/-! ### Parts of a course -/

/-- The evaluation comes to an end within `n` steps. -/
def Ends (m : Machine) (n : Nat) (c : Control) (fs : List Frame) : Prop :=
  ∃ x, (m.course n c fs).2 = some x

/-- The first `n` steps have the events `es` and lead to another state. -/
def Leads (m : Machine) (n : Nat) (c : Control) (fs : List Frame) (es : List Event) (c' : Control)
    (fs' : List Frame) : Prop :=
  ∀ k, m.course (n + k) c fs = (es ++ (m.course k c' fs').1, (m.course k c' fs').2)

theorem leads_refl (c : Control) (fs : List Frame) : m.Leads 0 c fs [] c fs := by
  intro k
  rw [Nat.zero_add]
  rfl

theorem leads_step (h : m.advance fs c = (es, .going c' fs')) : m.Leads 1 c fs es c' fs' := by
  intro k
  rw [Nat.add_comm]
  exact course_succ_going h

theorem Leads.trans {c'' : Control} {fs'' : List Frame} (h : m.Leads n c fs es c' fs')
    (h' : m.Leads k c' fs' es' c'' fs'') : m.Leads (n + k) c fs (es ++ es') c'' fs'' := by
  intro l
  rw [Nat.add_assoc, h (k + l), h' l, List.append_assoc]

/-- What is left of a course that ends. -/
theorem Leads.ends (h : m.Leads n c fs es c' fs') (hend : m.Ends N c fs) :
    ∃ k, N = n + k ∧ m.Ends k c' fs' := by
  obtain ⟨x, hx⟩ := hend
  by_cases hle : n ≤ N
  · obtain ⟨k, rfl⟩ := Nat.exists_eq_add_of_le hle
    rw [h k] at hx
    exact ⟨k, rfl, x, hx⟩
  · -- the first `n` steps do not end the evaluation
    have hstay := course_mono hx (Nat.le_of_not_le hle)
    rw [← hstay] at hx
    have h0 := h 0
    rw [Nat.add_zero] at h0
    rw [h0] at hx
    cases hx

/-! ### Following an evaluation -/

/-- From a state the machine does what an evaluation says, for the frames `K`. -/
def Follows (m : Machine) (c : Control) (fs K : List Frame) : Eval Term → Prop
  | .cut => True
  | .value log t => ∃ n es v, m.Leads n c fs es (.answer v) K ∧ Event.messages es = log ∧
      v.WellFormed ∧ v.toTerm = t
  | .failure log f => ∃ n es step, m.course n c fs = (es, some (.error ⟨f, step⟩)) ∧
      Event.messages es = log

theorem Follows.after {x : Eval Term} (h : m.Leads n c fs es c' fs') (hx : m.Follows c' fs' K x) :
    m.Follows c fs K (x.after (Event.messages es)) := by
  cases x with
  | cut => exact trivial
  | value log t =>
    obtain ⟨k, es', v, hv, rfl, hwf, ht⟩ := hx
    exact ⟨n + k, es ++ es', v, h.trans hv, Event.messages_append es es', hwf, ht⟩
  | failure log f =>
    obtain ⟨k, es', step, hend, rfl⟩ := hx
    refine ⟨n + k, es ++ es', step, ?_, Event.messages_append es es'⟩
    rw [h k, hend]

/-- From a state the machine does what evaluations to growing depth say, and if it comes to an end
within `N` steps then one of them is not cut off. -/
structure Tracks (m : Machine) (N : Nat) (c : Control) (fs K : List Frame) (x : Nat → Eval Term) :
    Prop where
  rising : ∀ d, (x d).Within (x (d + 1))
  sound : ∀ d, m.Follows c fs K (x d)
  complete : ∀ n ≤ N, m.Ends n c fs → ∃ d, x d ≠ .cut

namespace Tracks

variable {x : Nat → Eval Term}

theorem rising_le (h : m.Tracks N c fs K x) {d d' : Nat} (hle : d ≤ d') :
    (x d).Within (x d') := by
  induction hle with
  | refl => exact Eval.within_refl _
  | step _ ih => exact ih.trans (h.rising _)

theorem mono (h : m.Tracks N c fs K x) (hle : n ≤ N) : m.Tracks n c fs K x :=
  ⟨h.rising, h.sound, fun l hl => h.complete l (Nat.le_trans hl hle)⟩

/-- No steps come to no end. -/
theorem complete_zero : ∀ n ≤ 0, m.Ends n c fs → ∃ d, x d ≠ .cut := by
  rintro n hn ⟨y, hy⟩
  obtain rfl : n = 0 := Nat.le_zero.1 hn
  cases hy

/-- A value whose term is evaluated once more. -/
theorem value {v : Value} (hv : v.WellFormed) (hrising : ∀ d, (x d).Within (x (d + 1)))
    (hx : ∀ d, (x d).Within (.value [] v.toTerm)) (hdeep : 0 < N → ∃ d, x d ≠ .cut) :
    m.Tracks N (.answer v) K K x where
  rising := hrising
  sound d := by
    rcases hx d with hcut | heq
    · rw [hcut]
      exact trivial
    · rw [heq]
      exact ⟨0, [], v, leads_refl _ _, rfl, hv, rfl⟩
  complete n hn hend := by
    by_cases hpos : 0 < N
    · exact hdeep hpos
    · exact complete_zero n (by omega) hend

/-- A value for the frames `K`. -/
theorem pure {v : Value} (hv : v.WellFormed) :
    m.Tracks N (.answer v) K K fun _ => .value [] v.toTerm where
  rising _ := Eval.within_refl _
  sound _ := ⟨0, [], v, leads_refl _ _, rfl, hv, rfl⟩
  complete _ _ _ := ⟨0, fun h => by cases h⟩

/-- A step that ends the evaluation. -/
theorem fail {f : Failure} {step : Option StepKind}
    (h : m.advance fs c = (es, .ended (.error ⟨f, step⟩))) (hes : Event.messages es = []) :
    m.Tracks N c fs K fun _ => .fail f where
  rising _ := Eval.within_refl _
  sound _ := ⟨1, es, step, course_succ_ended h, hes⟩
  complete _ _ _ := ⟨0, fun h => by cases h⟩

/-- A step that goes on. -/
theorem step (h : m.advance fs c = (es, .going c' fs')) (hes : Event.messages es = [])
    (hx : m.Tracks N c' fs' K x) : m.Tracks (N + 1) c fs K x where
  rising := hx.rising
  sound d := by
    have hd := (hx.sound d).after (leads_step h)
    rwa [hes, Eval.after_nil] at hd
  complete n hn hend := by
    obtain ⟨k, rfl, hk⟩ := (leads_step h).ends hend
    exact hx.complete k (by omega) hk

/-- A call that gives a value. -/
theorem reply {v : Value} (h : m.advance fs c = (es, .going (.answer v) K)) (hv : v.WellFormed) :
    m.Tracks N c fs K fun _ => .value (Event.messages es) v.toTerm where
  rising _ := Eval.within_refl _
  sound _ := ⟨1, es, v, leads_step h, rfl, hv, rfl⟩
  complete _ _ _ := ⟨0, fun h => by cases h⟩

/-- An evaluation for the frames `K'`, and then one of handing its value to them. -/
theorem bind {K' : List Frame} {k : Nat → Term → Eval Term} (hx : m.Tracks N c fs K' x)
    (hk : ∀ v : Value, v.WellFormed → m.Tracks N (.answer v) K' K fun d => k d v.toTerm) :
    m.Tracks N c fs K fun d => x d >>= k d where
  rising d := by
    rcases hx.rising d with hcut | heq
    · rw [hcut]
      exact Eval.within_cut _
    · have hd := hx.sound d
      rw [← heq]
      cases hxd : x d with
      | cut => exact Eval.within_refl _
      | failure log f => exact Eval.within_refl _
      | value log t =>
        rw [hxd] at hd
        obtain ⟨n, es, v, -, -, hwf, rfl⟩ := hd
        exact ((hk v hwf).rising d).after log
  sound d := by
    have hd := hx.sound d
    cases hxd : x d with
    | cut => exact trivial
    | failure log f => rwa [hxd] at hd
    | value log t =>
      rw [hxd] at hd
      obtain ⟨n, es, v, hleads, rfl, hwf, rfl⟩ := hd
      exact ((hk v hwf).sound d).after hleads
  complete n hn hend := by
    obtain ⟨d, hd⟩ := hx.complete n hn hend
    have hsound := hx.sound d
    cases hxd : x d with
    | cut => exact absurd hxd hd
    | failure log f => exact ⟨d, by simp only [hxd]; exact fun h => by cases h⟩
    | value log t =>
      rw [hxd] at hsound
      obtain ⟨n₁, es, v, hleads, -, hwf, rfl⟩ := hsound
      obtain ⟨n₂, rfl, hrest⟩ := hleads.ends hend
      obtain ⟨e, he⟩ := (hk v hwf).complete n₂ (by omega) hrest
      -- deep enough for both
      have hx' := hx.rising_le (Nat.le_max_left d e)
      have hk' := (hk v hwf).rising_le (Nat.le_max_right d e)
      refine ⟨max d e, ?_⟩
      rcases hx' with hcut | heq
      · exact absurd hcut hd
      rcases hk' with hcut | heq'
      · exact absurd hcut he
      rw [← heq, hxd]
      show (k (max d e) v.toTerm).after log ≠ .cut
      rw [← heq']
      cases hkd : k e v.toTerm with
      | cut => exact absurd hkd he
      | value log' t => exact fun h => by cases h
      | failure log' f => exact fun h => by cases h

end Tracks

end PlutusCek.Machine
