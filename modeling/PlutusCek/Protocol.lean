import PlutusCek.Builtin

/-!
# Protocol — ledger languages, protocol versions, and which builtins they allow
-/

namespace PlutusCek

/-- A ledger language. -/
inductive Language where
  | v1
  | v2
  | v3
deriving DecidableEq

/-- A version of the ledger protocol. -/
structure Protocol where
  major : UInt32
  minor : UInt32
deriving DecidableEq

namespace Protocol

/-- Comparison by major, then minor number. -/
def compare (a b : Protocol) : Ordering :=
  (Ord.compare a.major.toNat b.major.toNat).then (Ord.compare a.minor.toNat b.minor.toNat)

/-- A protocol version in writing. -/
def render (p : Protocol) : String :=
  s!"{p.major.toNat}.{p.minor.toNat}"

end Protocol

namespace Language

/-- The place in the order of introduction. -/
def number : Language → Nat
  | .v1 => 1
  | .v2 => 2
  | .v3 => 3

/-- The name of a language. -/
def render : Language → String
  | .v1 => "PlutusV1"
  | .v2 => "PlutusV2"
  | .v3 => "PlutusV3"

/-- The first protocol version that runs scripts of the language. -/
def introducedIn : Language → Protocol
  | .v1 => ⟨5, 0⟩
  | .v2 => ⟨7, 0⟩
  | .v3 => ⟨9, 0⟩

end Language

/-- How `consByteString` treats a number that is not a byte. -/
inductive Semantics where
  /-- Reduce it modulo 256. -/
  | wrapping
  /-- Refuse it. -/
  | checked
deriving DecidableEq

/-- The behaviour each language asks for. -/
def Language.semantics : Language → Semantics
  | .v1 => .wrapping
  | .v2 => .wrapping
  | .v3 => .checked

/-- The language and the major protocol version that introduced a release. -/
def Batch.introduction : Batch → Language × Nat
  | .batch1 => (.v1, 5)
  | .batch2 => (.v2, 7)
  | .batch3 => (.v2, 8)
  | .batch4 => (.v3, 9)
  | .batch5 => (.v3, 10)
  | .batch6 => (.v3, 11)
  | .batch7 => (.v3, 12)

/-- A builtin is allowed in the language that introduced its release and in later ones, from the
protocol version of its introduction on.  From protocol 11 on the older languages also have the
releases up to the sixth. -/
def Builtin.allowed (f : Builtin) (l : Language) (p : Protocol) : Bool :=
  let (introLanguage, introMajor) := f.batch.introduction
  if decide (p.major.toNat < introMajor) || (p.compare l.introducedIn).isLT then false
  else
    decide (introLanguage.number ≤ l.number) ||
      (decide (11 ≤ p.major.toNat) && decide (f.batch.number ≤ 6))

end PlutusCek
