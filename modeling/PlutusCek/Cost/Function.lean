import PlutusCek.Amount

/-!
# Cost.Function — costs as functions of operand sizes

A cost function has one of a fixed number of shapes.  Shapes read at most the first four operands
`x`, `y`, `z` and `u`, and only those their value depends on.  Each parameter of a shape has a name.
-/

namespace PlutusCek

/-- `intercept + slope * n`. -/
structure Linear where
  intercept : Amount
  slope : Amount
deriving DecidableEq

/-- `c0 + c1 * n + c2 * n ^ 2`. -/
structure Quadratic where
  c0 : Amount
  c1 : Amount
  c2 : Amount
deriving DecidableEq

/-- `intercept + slope1 * m + slope2 * n`. -/
structure Bilinear where
  intercept : Amount
  slope1 : Amount
  slope2 : Amount
deriving DecidableEq

/-- A quadratic form in two variables with a lower bound. -/
structure Biquadratic where
  minimum : Amount
  c00 : Amount
  c10 : Amount
  c01 : Amount
  c20 : Amount
  c11 : Amount
  c02 : Amount
deriving DecidableEq

/-- The coefficients of modular exponentiation. -/
structure PowerCoefficients where
  c00 : Amount
  c11 : Amount
  c12 : Amount
deriving DecidableEq

/-- A cost function. -/
inductive CostFunction where
  /-- A fixed cost. -/
  | constant (c : Amount)
  /-- Linear in `x`. -/
  | linearInX (l : Linear)
  /-- Linear in `y`. -/
  | linearInY (l : Linear)
  /-- Linear in `z`. -/
  | linearInZ (l : Linear)
  /-- Linear in `u`. -/
  | linearInU (l : Linear)
  /-- Linear in `x + y`. -/
  | addedSizes (l : Linear)
  /-- Linear in the greater of `x - y` and a minimum. -/
  | subtractedSizes (l : Linear) (minimum : Amount)
  /-- Linear in `x * y`. -/
  | multipliedSizes (l : Linear)
  /-- Linear in the lesser of `x` and `y`. -/
  | minSize (l : Linear)
  /-- Linear in the greater of `x` and `y`. -/
  | maxSize (l : Linear)
  /-- Linear in `x` if `x = y`, constant otherwise. -/
  | linearOnDiagonal (constant : Amount) (l : Linear)
  /-- Constant if `x < y`. -/
  | constAboveDiagonal (constant : Amount) (model : CostFunction)
  /-- Constant if `x > y`. -/
  | constBelowDiagonal (constant : Amount) (model : CostFunction)
  /-- Quadratic in `y`. -/
  | quadraticInY (q : Quadratic)
  /-- Quadratic in `z`. -/
  | quadraticInZ (q : Quadratic)
  /-- Quadratic in `x` and `y`. -/
  | quadraticInXY (q : Biquadratic)
  /-- Linear in `y` and `z`. -/
  | linearInYZ (l : Bilinear)
  /-- Linear in the greater of `y` and `z`. -/
  | linearInMaxYZ (l : Linear)
  /-- `y` itself unless it is zero, then linear in `z`. -/
  | literalInYOrLinearInZ (l : Linear)
  /-- The cost of modular exponentiation by the sizes of base, exponent and modulus. -/
  | power (c : PowerCoefficients)
deriving DecidableEq

/-- The value at `n`. -/
def Linear.eval (l : Linear) (n : Amount) : Amount :=
  l.intercept + l.slope * n

/-- The value at `n`. -/
def Quadratic.eval (q : Quadratic) (n : Amount) : Amount :=
  q.c0 + q.c1 * n + q.c2 * n * n

/-- The value at `m` and `n`. -/
def Bilinear.eval (l : Bilinear) (m n : Amount) : Amount :=
  l.intercept + l.slope1 * m + l.slope2 * n

/-- The value at `x` and `y`, not below the minimum. -/
def Biquadratic.eval (q : Biquadratic) (x y : Amount) : Amount :=
  max (q.c00 + q.c10 * x + q.c01 * y + q.c20 * x * x + q.c11 * x * y + q.c02 * y * y) q.minimum

/-- The value at the sizes of base, exponent and modulus.  A base larger than the modulus is
reduced first, which costs half as much again. -/
def PowerCoefficients.eval (c : PowerCoefficients) (x y z : Amount) : Amount :=
  let yz := y * z
  let cost := c.c00 + c.c11 * yz + c.c12 * yz * z
  if z < x then cost + cost.half else cost

namespace CostFunction

/-- The cost of operands whose sizes are given by position. -/
def cost (size : Nat → Amount) : CostFunction → Amount
  | .constant c => c
  | .linearInX l => l.eval (size 0)
  | .linearInY l => l.eval (size 1)
  | .linearInZ l => l.eval (size 2)
  | .linearInU l => l.eval (size 3)
  | .addedSizes l => l.eval (size 0 + size 1)
  | .subtractedSizes l minimum => l.eval (max (size 0 - size 1) minimum)
  | .multipliedSizes l => l.eval (size 0 * size 1)
  | .minSize l => l.eval (min (size 0) (size 1))
  | .maxSize l => l.eval (max (size 0) (size 1))
  | .linearOnDiagonal c l =>
    let x := size 0
    if x = size 1 then l.eval x else c
  | .constAboveDiagonal c model => if size 0 < size 1 then c else model.cost size
  | .constBelowDiagonal c model => if size 1 < size 0 then c else model.cost size
  | .quadraticInY q => q.eval (size 1)
  | .quadraticInZ q => q.eval (size 2)
  | .quadraticInXY q => q.eval (size 0) (size 1)
  | .linearInYZ l => l.eval (size 1) (size 2)
  | .linearInMaxYZ l => l.eval (max (size 1) (size 2))
  | .literalInYOrLinearInZ l =>
    let y := size 1
    if y = 0 then l.eval (size 2) else y
  | .power c => c.eval (size 0) (size 1) (size 2)

/-- The size of operand `i` is asked for. -/
def reads (size : Nat → Amount) (i : Nat) : CostFunction → Bool
  | .constant _ => false
  | .linearInX _ => i == 0
  | .linearInY _ => i == 1
  | .linearInZ _ => i == 2
  | .linearInU _ => i == 3
  | .addedSizes _ => i == 0 || i == 1
  | .subtractedSizes _ _ => i == 0 || i == 1
  | .multipliedSizes _ => i == 0 || i == 1
  | .minSize _ => i == 0 || i == 1
  | .maxSize _ => i == 0 || i == 1
  | .linearOnDiagonal _ _ => i == 0 || i == 1
  | .constAboveDiagonal _ model =>
    i == 0 || i == 1 || (!decide (size 0 < size 1) && model.reads size i)
  | .constBelowDiagonal _ model =>
    i == 0 || i == 1 || (!decide (size 1 < size 0) && model.reads size i)
  | .quadraticInY _ => i == 1
  | .quadraticInZ _ => i == 2
  | .quadraticInXY _ => i == 0 || i == 1
  | .linearInYZ _ => i == 1 || i == 2
  | .linearInMaxYZ _ => i == 1 || i == 2
  | .literalInYOrLinearInZ _ => i == 1 || (i == 2 && decide (size 1 = 0))
  | .power _ => i == 0 || i == 1 || i == 2

/-- Sizes given as a list; those past its end are zero. -/
def sizesOf (sizes : List Amount) (i : Nat) : Amount :=
  sizes.getD i 0

/-! ### Parameters -/

/-- The parameters of a line. -/
def linearParameters (stem : String) (l : Linear) : List (String × Amount) :=
  [(stem ++ "-intercept", l.intercept), (stem ++ "-slope", l.slope)]

/-- The names and values of the parameters, in order.  All names start with `stem`; the parameter
of a fixed cost is the stem itself. -/
def parameters (stem : String) : CostFunction → List (String × Amount)
  | .constant c => [(stem, c)]
  | .linearInX l => linearParameters stem l
  | .linearInY l => linearParameters stem l
  | .linearInZ l => linearParameters stem l
  | .linearInU l => linearParameters stem l
  | .addedSizes l => linearParameters stem l
  | .subtractedSizes l minimum => linearParameters stem l ++ [(stem ++ "-minimum", minimum)]
  | .multipliedSizes l => linearParameters stem l
  | .minSize l => linearParameters stem l
  | .maxSize l => linearParameters stem l
  | .linearOnDiagonal c l => (stem ++ "-constant", c) :: linearParameters stem l
  | .constAboveDiagonal c model =>
    (stem ++ "-constant", c) :: model.parameters (stem ++ "-model-arguments")
  | .constBelowDiagonal c model =>
    (stem ++ "-constant", c) :: model.parameters (stem ++ "-model-arguments")
  | .quadraticInY q => [(stem ++ "-c0", q.c0), (stem ++ "-c1", q.c1), (stem ++ "-c2", q.c2)]
  | .quadraticInZ q => [(stem ++ "-c0", q.c0), (stem ++ "-c1", q.c1), (stem ++ "-c2", q.c2)]
  | .quadraticInXY q =>
    [(stem ++ "-minimum", q.minimum), (stem ++ "-c00", q.c00), (stem ++ "-c10", q.c10),
      (stem ++ "-c01", q.c01), (stem ++ "-c20", q.c20), (stem ++ "-c11", q.c11),
      (stem ++ "-c02", q.c02)]
  | .linearInYZ l =>
    [(stem ++ "-intercept", l.intercept), (stem ++ "-slope1", l.slope1),
      (stem ++ "-slope2", l.slope2)]
  | .linearInMaxYZ l => linearParameters stem l
  | .literalInYOrLinearInZ l => linearParameters stem l
  | .power c =>
    [(stem ++ "-coefficient00", c.c00), (stem ++ "-coefficient11", c.c11),
      (stem ++ "-coefficient12", c.c12)]

/-- A new value for each parameter, computed from its name and its old value. -/
abbrev Assignment := String → Amount → Amount

/-- Assigns the parameters of a line. -/
def assignLinear (g : Assignment) (stem : String) (l : Linear) : Linear :=
  ⟨g (stem ++ "-intercept") l.intercept, g (stem ++ "-slope") l.slope⟩

/-- Assigns the parameters of a quadratic. -/
def assignQuadratic (g : Assignment) (stem : String) (q : Quadratic) : Quadratic :=
  ⟨g (stem ++ "-c0") q.c0, g (stem ++ "-c1") q.c1, g (stem ++ "-c2") q.c2⟩

/-- Assigns every parameter; the shape stays. -/
def assign (g : Assignment) (stem : String) : CostFunction → CostFunction
  | .constant c => .constant (g stem c)
  | .linearInX l => .linearInX (assignLinear g stem l)
  | .linearInY l => .linearInY (assignLinear g stem l)
  | .linearInZ l => .linearInZ (assignLinear g stem l)
  | .linearInU l => .linearInU (assignLinear g stem l)
  | .addedSizes l => .addedSizes (assignLinear g stem l)
  | .subtractedSizes l minimum =>
    .subtractedSizes (assignLinear g stem l) (g (stem ++ "-minimum") minimum)
  | .multipliedSizes l => .multipliedSizes (assignLinear g stem l)
  | .minSize l => .minSize (assignLinear g stem l)
  | .maxSize l => .maxSize (assignLinear g stem l)
  | .linearOnDiagonal c l => .linearOnDiagonal (g (stem ++ "-constant") c) (assignLinear g stem l)
  | .constAboveDiagonal c model =>
    .constAboveDiagonal (g (stem ++ "-constant") c) (model.assign g (stem ++ "-model-arguments"))
  | .constBelowDiagonal c model =>
    .constBelowDiagonal (g (stem ++ "-constant") c) (model.assign g (stem ++ "-model-arguments"))
  | .quadraticInY q => .quadraticInY (assignQuadratic g stem q)
  | .quadraticInZ q => .quadraticInZ (assignQuadratic g stem q)
  | .quadraticInXY q =>
    .quadraticInXY
      ⟨g (stem ++ "-minimum") q.minimum, g (stem ++ "-c00") q.c00, g (stem ++ "-c10") q.c10,
        g (stem ++ "-c01") q.c01, g (stem ++ "-c20") q.c20, g (stem ++ "-c11") q.c11,
        g (stem ++ "-c02") q.c02⟩
  | .linearInYZ l =>
    .linearInYZ
      ⟨g (stem ++ "-intercept") l.intercept, g (stem ++ "-slope1") l.slope1,
        g (stem ++ "-slope2") l.slope2⟩
  | .linearInMaxYZ l => .linearInMaxYZ (assignLinear g stem l)
  | .literalInYOrLinearInZ l => .literalInYOrLinearInZ (assignLinear g stem l)
  | .power c =>
    .power
      ⟨g (stem ++ "-coefficient00") c.c00, g (stem ++ "-coefficient11") c.c11,
        g (stem ++ "-coefficient12") c.c12⟩

end CostFunction

end PlutusCek
