import Mathlib.Data.Int.ModEq
import Mathlib.Tactic.Ring
import PlutusCek.Proofs.Answering

/-!
# Proofs.Powers — powers and inverses modulo a number

Halving the exponent comes to the power modulo `m` (`powMod_eq`).  The extended Euclidean algorithm
keeps each remainder congruent to its multiplier times the number (`bezout_modEq`), so it finds an
inverse exactly if there is one.  Hence a modular power is refused exactly if it is undefined, and
is the power otherwise (`modularPower_exact`).
-/

namespace PlutusCek

/-! ### Powers -/

theorem powMod_eq (m b e : Nat) : powMod m b e = b ^ e % m := by
  induction e using Nat.strongRecOn generalizing b with
  | ind e ih =>
    rw [powMod]
    by_cases he : e = 0
    · rw [if_pos he, he, Nat.pow_zero]
    have hhalf : e / 2 < e := Nat.div_lt_self (Nat.pos_of_ne_zero he) (by decide)
    have hsquare : powMod m (b * b % m) (e / 2) = b ^ (2 * (e / 2)) % m := by
      rw [ih _ hhalf, ← Nat.pow_mod, ← Nat.pow_two, Nat.pow_mul]
    simp only [if_neg he, hsquare]
    by_cases hodd : e % 2 = 1
    · have hsplit : 2 * (e / 2) + 1 = e := by omega
      rw [if_pos hodd, Nat.mul_mod_mod, ← pow_succ', hsplit]
    · have hsplit : 2 * (e / 2) = e := by omega
      rw [if_neg hodd, hsplit]

/-! ### Inverses -/

theorem bezout_fst (r r' : Nat) (t t' : Int) : (bezout r r' t t').1 = Nat.gcd r r' := by
  fun_induction bezout r r' t t' with
  | case1 r t t' => exact (Nat.gcd_zero_right r).symm
  | case2 r r' t t' hr ih => rw [ih, Nat.gcd_comm r r', Nat.gcd_rec r' r, Nat.gcd_comm]

/-- If both remainders are congruent to their multiplier times `a`, then so is the last one. -/
theorem bezout_modEq {a m : Int} {r r' : Nat} {t t' : Int} (h : (r : Int) ≡ t * a [ZMOD m])
    (h' : (r' : Int) ≡ t' * a [ZMOD m]) :
    ((bezout r r' t t').1 : Int) ≡ (bezout r r' t t').2 * a [ZMOD m] := by
  fun_induction bezout r r' t t' with
  | case1 r t t' => exact h
  | case2 r r' t t' hr ih =>
    refine ih h' ?_
    have hrest : ((r % r' : Nat) : Int) = r - (r / r' : Nat) * r' := by
      have hdivision := Nat.mod_add_div' r r'
      have hcast : ((r % r' : Nat) : Int) + (r / r' : Nat) * r' = r := by exact_mod_cast hdivision
      omega
    calc ((r % r' : Nat) : Int)
        = r - (r / r' : Nat) * r' := hrest
      _ ≡ t * a - (r / r' : Nat) * (t' * a) [ZMOD m] := h.sub (h'.mul_left _)
      _ = (t - (r / r' : Nat) * t') * a := by ring

theorem bezout_mod_fst (a m : Nat) : (bezout (a % m) m 1 0).1 = Nat.gcd a m := by
  rw [bezout_fst, Nat.gcd_comm a m, ← Nat.gcd_rec]

theorem invMod?_of_not_coprime {a m : Nat} (h : Nat.gcd a m ≠ 1) : invMod? a m = none :=
  if_neg ((bezout_mod_fst a m).symm ▸ h)

/-- The multiplier of the greatest common divisor is the inverse, if the two are coprime. -/
theorem bezout_snd_modEq {a m : Nat} (h : Nat.gcd a m = 1) :
    (bezout (a % m) m 1 0).2 * a ≡ 1 [ZMOD m] := by
  have hstart : ((a % m : Nat) : Int) ≡ 1 * a [ZMOD m] := by
    rw [one_mul, Int.natCast_mod]
    exact Int.mod_modEq a m
  have hmodulus : (m : Int) ≡ 0 * a [ZMOD m] := by
    rw [zero_mul]
    exact Int.modEq_zero_iff_dvd.2 (dvd_refl _)
  have hbezout := bezout_modEq hstart hmodulus
  rw [bezout_mod_fst, h, Nat.cast_one] at hbezout
  exact hbezout.symm

theorem invMod?_of_coprime {a m : Nat} (hpos : 0 < m) (h : Nat.gcd a m = 1) :
    ∃ i : Nat, invMod? a m = some i ∧ (i : Int) * a ≡ 1 [ZMOD m] := by
  refine ⟨_, if_pos ((bezout_mod_fst a m).trans h), ?_⟩
  rw [Int.toNat_of_nonneg (Int.emod_nonneg _ (Int.natCast_ne_zero.2 (Nat.ne_of_gt hpos)))]
  exact ((Int.mod_modEq _ _).mul_right _).trans (bezout_snd_modEq h)

/-! ### Powers with exponents of either sign -/

/-- There is no such power: the modulus is not positive, or the base has no inverse that a negative
exponent could raise. -/
def Undefined (b e m : Int) : Prop := m ≤ 0 ∨ (1 < m ∧ e < 0 ∧ Int.gcd b m ≠ 1)

/-- The power, reduced; a negative exponent makes it the inverse of a power. -/
def IsPower (b e m r : Int) : Prop :=
  0 ≤ r ∧ r < m ∧ (0 ≤ e → r ≡ b ^ e.toNat [ZMOD m]) ∧ (e < 0 → r * b ^ (-e).toNat ≡ 1 [ZMOD m])

theorem natCast_emod_toNat {b m : Int} (hm : 0 < m) : (((b % m).toNat : Nat) : Int) = b % m :=
  Int.toNat_of_nonneg (Int.emod_nonneg b (Int.ne_of_gt hm))

theorem gcd_emod_toNat {b m : Int} (hm : 0 < m) :
    Nat.gcd (b % m).toNat m.toNat = Int.gcd b m := by
  rw [← Int.gcd_natCast_natCast, natCast_emod_toNat hm, Int.toNat_of_nonneg (Int.le_of_lt hm),
    Int.gcd_emod]

/-- A power is reduced, and congruent to the power of any number congruent to the base. -/
theorem powMod_modEq {m : Int} (hm : 0 < m) (i k : Nat) :
    0 ≤ (powMod m.toNat i k : Int) ∧ (powMod m.toNat i k : Int) < m ∧
      (powMod m.toNat i k : Int) ≡ (i : Int) ^ k [ZMOD m] := by
  have hcast : (m.toNat : Int) = m := Int.toNat_of_nonneg (Int.le_of_lt hm)
  rw [powMod_eq, Int.natCast_mod, hcast, Nat.cast_pow]
  exact ⟨Int.emod_nonneg _ (Int.ne_of_gt hm), Int.emod_lt_of_pos _ hm, Int.mod_modEq _ _⟩

theorem modularPower_of_undefined {b e m : Int} (h : Undefined b e m) :
    ∃ fault, modularPower b e m = .error fault := by
  unfold modularPower
  rcases h with hm | ⟨hm, he, hgcd⟩
  · exact ⟨_, if_pos hm⟩
  · have hnone : invMod? (b % m).toNat m.toNat = none := by
      refine invMod?_of_not_coprime ?_
      rwa [gcd_emod_toNat (by omega)]
    rw [if_neg (by omega), if_neg (by omega)]
    cases e with
    | ofNat k => exact absurd he (Int.not_lt.2 (Int.natCast_nonneg k))
    | negSucc k =>
      simp only [hnone]
      exact ⟨_, rfl⟩

theorem modularPower_of_not_undefined {b e m : Int} (h : ¬ Undefined b e m) :
    ∃ r, modularPower b e m = .ok r ∧ IsPower b e m r := by
  have hm : 0 < m := by
    by_contra hle
    exact h (.inl (Int.not_lt.1 hle))
  have hbase : (((b % m).toNat : Nat) : Int) ≡ b [ZMOD m] := by
    rw [natCast_emod_toNat hm]
    exact Int.mod_modEq b m
  unfold modularPower
  rw [if_neg (Int.not_le.2 hm)]
  by_cases hone : m = 1
  · rw [if_pos hone, hone]
    exact ⟨0, rfl, Int.le_refl 0, Int.one_pos, fun _ => Int.modEq_one, fun _ => Int.modEq_one⟩
  rw [if_neg hone]
  cases e with
  | ofNat k =>
    obtain ⟨hnonneg, hlt, hpower⟩ := powMod_modEq hm (b % m).toNat k
    refine ⟨_, rfl, hnonneg, hlt, fun _ => hpower.trans (hbase.pow k), fun he => ?_⟩
    exact absurd he (Int.not_lt.2 (Int.natCast_nonneg k))
  | negSucc k =>
    have hgcd : Int.gcd b m = 1 := by
      by_contra hne
      exact h (.inr ⟨by omega, Int.negSucc_lt_zero k, hne⟩)
    obtain ⟨i, hinverse, hi⟩ :=
      invMod?_of_coprime (a := (b % m).toNat) (m := m.toNat) (by omega)
        ((gcd_emod_toNat hm).trans hgcd)
    rw [Int.toNat_of_nonneg (Int.le_of_lt hm)] at hi
    obtain ⟨hnonneg, hlt, hpower⟩ := powMod_modEq hm i (k + 1)
    simp only [hinverse]
    refine ⟨_, rfl, hnonneg, hlt, fun he => ?_, fun _ => ?_⟩
    · exact absurd (Int.negSucc_lt_zero k) (Int.not_lt.2 he)
    · calc (powMod m.toNat i (k + 1) : Int) * b ^ (k + 1)
          ≡ (i : Int) ^ (k + 1) * b ^ (k + 1) [ZMOD m] := hpower.mul_right _
        _ = (i * b) ^ (k + 1) := (mul_pow _ _ _).symm
        _ ≡ 1 ^ (k + 1) [ZMOD m] := ((hbase.mul_left _).symm.trans hi).pow _
        _ = 1 := one_pow _

/-! ### The builtin -/

/-- The operands of a modular power. -/
def powerOperands (b e m : Int) : List Constant := [.integer b, .integer e, .integer m]

theorem refuses_undefined {b e m : Int} (h : Undefined b e m) :
    ∃ fault, Builtin.expModInteger.Refuses (powerOperands b e m) (.powerUndefined fault) := by
  obtain ⟨fault, hfault⟩ := modularPower_of_undefined h
  refine ⟨fault, (Builtin.refuses_guarded fun _ => rfl).2 ?_⟩
  simp only [hfault]

theorem answers_power {b e m : Int} (h : ¬ Undefined b e m) :
    ∃ r, Builtin.expModInteger.Answers (powerOperands b e m) (.integer r) ∧ IsPower b e m r := by
  obtain ⟨r, hr, hpower⟩ := modularPower_of_not_undefined h
  refine ⟨r, (Builtin.answers_guarded fun _ => rfl).2 ?_, hpower⟩
  simp only [hr]

/-- **Modular exponentiation is exact.**  It is refused, as an undefined power, exactly if the
modulus is not positive, or it is greater than one, the exponent is negative and the base is not
coprime to it.  Otherwise it gives the power, reduced modulo the modulus; for a negative exponent,
the inverse of the power of the base. -/
theorem modularPower_exact (b e m : Int) :
    ((∃ fault, Builtin.expModInteger.Refuses (powerOperands b e m) (.powerUndefined fault)) ↔
      m ≤ 0 ∨ (1 < m ∧ e < 0 ∧ Int.gcd b m ≠ 1)) ∧
    (¬ (m ≤ 0 ∨ (1 < m ∧ e < 0 ∧ Int.gcd b m ≠ 1)) →
      ∃ r, Builtin.expModInteger.Answers (powerOperands b e m) (.integer r) ∧
        0 ≤ r ∧ r < m ∧ (0 ≤ e → r ≡ b ^ e.toNat [ZMOD m]) ∧
        (e < 0 → r * b ^ (-e).toNat ≡ 1 [ZMOD m])) := by
  refine ⟨⟨?_, refuses_undefined⟩, answers_power⟩
  rintro ⟨fault, hrefuses⟩
  by_contra hdefined
  obtain ⟨r, hanswers, -⟩ := answers_power hdefined
  exact hanswers.not_refuses hrefuses

/-- The inverse of a negative base, squared. -/
theorem modularPower_exact_inverse :
    ¬ ((7 : Int) ≤ 0 ∨ (1 < (7 : Int) ∧ (-2 : Int) < 0 ∧ Int.gcd (-3) 7 ≠ 1)) ∧
    ∃ r, Builtin.expModInteger.Answers (powerOperands (-3) (-2) 7) (.integer r) ∧
      0 ≤ r ∧ r < 7 ∧ r * (-3) ^ 2 ≡ 1 [ZMOD 7] := by
  have hdefined : ¬ ((7 : Int) ≤ 0 ∨ (1 < (7 : Int) ∧ (-2 : Int) < 0 ∧ Int.gcd (-3) 7 ≠ 1)) := by
    decide
  obtain ⟨r, hanswers, hnonneg, hlt, -, hinverse⟩ := (modularPower_exact (-3) (-2) 7).2 hdefined
  exact ⟨hdefined, r, hanswers, hnonneg, hlt, hinverse (by decide)⟩

end PlutusCek
