import PlutusCek.Bytes

/-!
# KeyMap — ordered maps from byte strings

A map lists its entries in the order of their keys, one for each key.
-/

namespace PlutusCek

/-- A map from byte strings, as its entries in the order of their keys. -/
structure KeyMap (α : Type) where
  entries : List (Bytes × α)
deriving DecidableEq

namespace KeyMap

variable {α : Type}

/-- The map without entries. -/
def empty : KeyMap α := ⟨[]⟩

/-- Number of entries. -/
def size (m : KeyMap α) : Nat := m.entries.length

/-- The map has no entries. -/
def isEmpty (m : KeyMap α) : Bool := m.entries.isEmpty

/-- What is stored under a key. -/
def get? (m : KeyMap α) (key : Bytes) : Option α := m.entries.lookup key

/-- Something is stored under a key. -/
def contains (m : KeyMap α) (key : Bytes) : Bool := (m.get? key).isSome

/-- Puts an entry in its place, over one with the same key. -/
def place (key : Bytes) (x : α) : List (Bytes × α) → List (Bytes × α)
  | [] => [(key, x)]
  | p :: rest =>
    match key.compare p.1 with
    | .lt => (key, x) :: p :: rest
    | .eq => (key, x) :: rest
    | .gt => p :: place key x rest

/-- Stores under a key, over what was there. -/
def insert (m : KeyMap α) (key : Bytes) (x : α) : KeyMap α := ⟨place key x m.entries⟩

/-- Takes out what is stored under a key. -/
def erase (m : KeyMap α) (key : Bytes) : KeyMap α := ⟨m.entries.filter fun p => p.1 != key⟩

end KeyMap

end PlutusCek
