/-!
# Amount — saturating signed 64-bit quantities

Costs, sizes and budgets are integers in `[-2^63, 2^63)`.  Every operation computes over the
integers and then clamps, so an amount is determined by its view `toInt`.
-/

namespace PlutusCek

/-- An integer of the signed 64-bit range. -/
structure Amount where
  toInt : Int
  lower : -9223372036854775808 ≤ toInt
  upper : toInt ≤ 9223372036854775807
deriving DecidableEq

namespace Amount

/-- The least amount. -/
def least : Int := -9223372036854775808

/-- The greatest amount. -/
def greatest : Int := 9223372036854775807

/-- Brings an integer into range: the nearest amount. -/
def clamp (n : Int) : Amount :=
  if h : n < -9223372036854775808 then ⟨-9223372036854775808, by omega, by omega⟩
  else if h' : 9223372036854775807 < n then ⟨9223372036854775807, by omega, by omega⟩
  else ⟨n, by omega, by omega⟩

/-- The amount equal to `n`, if `n` is in range. -/
def ofInt? (n : Int) : Option Amount :=
  if h : -9223372036854775808 ≤ n ∧ n ≤ 9223372036854775807 then some ⟨n, h.1, h.2⟩ else none

instance (n : Nat) : OfNat Amount n := ⟨clamp n⟩

instance : Inhabited Amount := ⟨0⟩

instance : Add Amount := ⟨fun a b => clamp (a.toInt + b.toInt)⟩

instance : Sub Amount := ⟨fun a b => clamp (a.toInt - b.toInt)⟩

instance : Mul Amount := ⟨fun a b => clamp (a.toInt * b.toInt)⟩

instance : Neg Amount := ⟨fun a => clamp (-a.toInt)⟩

instance : LE Amount := ⟨fun a b => a.toInt ≤ b.toInt⟩

instance : LT Amount := ⟨fun a b => a.toInt < b.toInt⟩

instance (a b : Amount) : Decidable (a ≤ b) := inferInstanceAs (Decidable (a.toInt ≤ b.toInt))

instance (a b : Amount) : Decidable (a < b) := inferInstanceAs (Decidable (a.toInt < b.toInt))

instance : Max Amount := ⟨fun a b => if a ≤ b then b else a⟩

instance : Min Amount := ⟨fun a b => if a ≤ b then a else b⟩

/-- Half of the amount, rounded toward zero. -/
def half (a : Amount) : Amount :=
  clamp (a.toInt.tdiv 2)

/-- The amount in decimal. -/
def render (a : Amount) : String :=
  toString a.toInt

/-! ### The view -/

@[ext] theorem ext {a b : Amount} (h : a.toInt = b.toInt) : a = b := by
  cases a; cases b; cases h; rfl

/-- Clamping over the integers. -/
theorem toInt_clamp (n : Int) : (clamp n).toInt = max least (min n greatest) := by
  unfold clamp least greatest
  split
  · simp only; omega
  · split <;> simp only <;> omega

/-- An integer in range is kept. -/
theorem toInt_clamp_of_mem {n : Int} (hl : least ≤ n) (hu : n ≤ greatest) :
    (clamp n).toInt = n := by
  rw [toInt_clamp]; omega

theorem least_le (a : Amount) : least ≤ a.toInt := a.lower

theorem le_greatest (a : Amount) : a.toInt ≤ greatest := a.upper

@[simp] theorem clamp_toInt (a : Amount) : clamp a.toInt = a :=
  ext (toInt_clamp_of_mem a.lower a.upper)

theorem toInt_add (a b : Amount) :
    (a + b).toInt = max least (min (a.toInt + b.toInt) greatest) := toInt_clamp _

theorem toInt_sub (a b : Amount) :
    (a - b).toInt = max least (min (a.toInt - b.toInt) greatest) := toInt_clamp _

theorem toInt_mul (a b : Amount) :
    (a * b).toInt = max least (min (a.toInt * b.toInt) greatest) := toInt_clamp _

theorem le_iff {a b : Amount} : a ≤ b ↔ a.toInt ≤ b.toInt := Iff.rfl

theorem lt_iff {a b : Amount} : a < b ↔ a.toInt < b.toInt := Iff.rfl

end Amount

end PlutusCek
