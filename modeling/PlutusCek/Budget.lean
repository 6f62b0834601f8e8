import PlutusCek.Amount

/-!
# Budget — memory and processor units

Arithmetic is componentwise and saturates.
-/

namespace PlutusCek

/-- An amount of memory and an amount of processor time. -/
structure Budget where
  mem : Amount
  cpu : Amount
deriving DecidableEq

namespace Budget

/-- Nothing. -/
def zero : Budget := ⟨0, 0⟩

/-- What one transaction may spend. -/
def max : Budget := ⟨14000000, 10000000000⟩

instance : Add Budget := ⟨fun a b => ⟨a.mem + b.mem, a.cpu + b.cpu⟩⟩

instance : Sub Budget := ⟨fun a b => ⟨a.mem - b.mem, a.cpu - b.cpu⟩⟩

/-- The budget times a factor. -/
def scale (b : Budget) (n : Amount) : Budget := ⟨b.mem * n, b.cpu * n⟩

/-- The cost of `n` occurrences. -/
def occurrences (b : Budget) (n : Nat) : Budget := b.scale (Amount.clamp n)

/-- A component is negative. -/
def isExhausted (b : Budget) : Bool :=
  decide (b.mem.toInt < 0) || decide (b.cpu.toInt < 0)

/-- A budget in writing. -/
def render (b : Budget) : String :=
  "\x7b mem: " ++ b.mem.render ++ ", cpu: " ++ b.cpu.render ++ " \x7d"

end Budget

end PlutusCek
