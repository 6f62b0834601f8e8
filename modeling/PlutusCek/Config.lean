import PlutusCek.Budget
import PlutusCek.Config.Json
import PlutusCek.Protocol
import PlutusCek.Version

/-!
# Config — budgets, versions and indices as JSON texts
-/

namespace PlutusCek

/-- A 32-bit number. -/
def Json.word32? (j : Json) : Option UInt32 :=
  (j.integer? 0 4294967295).map fun n => UInt32.ofNat n.toNat

/-- A signed 64-bit amount. -/
def Json.amount? : Json → Option Amount
  | .integer n => Amount.ofInt? n
  | _ => none

/-- A field in writing. -/
def Json.renderField (name value : String) : String :=
  "\"" ++ name ++ "\":" ++ value

/-- An object in writing. -/
def Json.renderObject (fields : List (String × String)) : String :=
  "\x7b" ++ String.intercalate "," (fields.map fun (n, v) => renderField n v) ++ "\x7d"

/-- Reads a budget. -/
def Budget.ofJson? (j : Json) : Option Budget :=
  match j.record? ["mem", "cpu"] with
  | some [mem, cpu] => do return ⟨← mem.amount?, ← cpu.amount?⟩
  | _ => none

/-- Writes a budget. -/
def Budget.toJson (b : Budget) : String :=
  Json.renderObject [("mem", b.mem.render), ("cpu", b.cpu.render)]

/-- The short name of a language. -/
def Language.shortName : Language → String
  | .v1 => "V1"
  | .v2 => "V2"
  | .v3 => "V3"

/-- The language with a short name. -/
def Language.ofShortName? (s : String) : Option Language :=
  [Language.v1, .v2, .v3].find? fun l => l.shortName == s

/-- Reads a language. -/
def Language.ofJson? (j : Json) : Option Language :=
  j.tag?.bind Language.ofShortName?

/-- Writes a language. -/
def Language.toJson (l : Language) : String :=
  "\"" ++ l.shortName ++ "\""

/-- Reads a protocol version. -/
def Protocol.ofJson? (j : Json) : Option Protocol :=
  match j.record? ["major", "minor"] with
  | some [major, minor] => do return ⟨← major.word32?, ← minor.word32?⟩
  | _ => none

/-- Writes a protocol version. -/
def Protocol.toJson (p : Protocol) : String :=
  Json.renderObject [("major", toString p.major.toNat), ("minor", toString p.minor.toNat)]

/-- Reads a version of the core language. -/
def Version.ofJson? (j : Json) : Option Version :=
  match j.record? ["major", "minor", "patch"] with
  | some [major, minor, patch] => do
    return ⟨← major.word32?, ← minor.word32?, ← patch.word32?⟩
  | _ => none

/-- Writes a version of the core language. -/
def Version.toJson (v : Version) : String :=
  Json.renderObject
    [("major", toString v.major.toNat), ("minor", toString v.minor.toNat),
      ("patch", toString v.patch.toNat)]

/-- Reads a variable index: a bare 64-bit number. -/
def Json.index? (j : Json) : Option Nat :=
  (j.integer? 0 18446744073709551615).map Int.toNat

end PlutusCek
