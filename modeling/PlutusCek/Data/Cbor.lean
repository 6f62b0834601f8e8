import PlutusCek.Data

/-!
# Cbor — the canonical binary encoding of data

Heads are written in shortest form.  Constructors 0 to 127 have tags of their own; any other is
wrapped in a pair under tag 102.  Non-empty lists are of indefinite length, maps of definite length,
and byte strings longer than 64 bytes are cut into chunks.
-/

namespace PlutusCek.Cbor

/-- The head of an item: major type in the top three bits, then the argument in shortest form.
The argument is below `2 ^ 64`. -/
def head (major n : Nat) : Bytes :=
  let first (info : Nat) : UInt8 := UInt8.ofNat (32 * major + info)
  if n < 24 then [first n]
  else if n < 0x100 then first 24 :: Bytes.digitsBE 1 n
  else if n < 0x10000 then first 25 :: Bytes.digitsBE 2 n
  else if n < 0x100000000 then first 26 :: Bytes.digitsBE 4 n
  else first 27 :: Bytes.digitsBE 8 n

/-- The longest byte string written in one piece. -/
def chunkSize : Nat := 64

/-- A byte string: one piece, or chunks between an opening and a closing mark. -/
def bytes (b : Bytes) : Bytes :=
  if b.length ≤ chunkSize then head 2 b.length ++ b
  else 0x5f :: (b.chunks chunkSize).flatMap (fun c => head 2 c.length ++ c) ++ [0xff]

/-- An integer: a head when it fits in 64 bits, otherwise a tagged byte string. -/
def integer (n : Int) : Bytes :=
  match n with
  | .ofNat k => if k < 0x10000000000000000 then head 0 k else head 6 2 ++ bytes (Bytes.ofNatBE k)
  | .negSucc k => if k < 0x10000000000000000 then head 1 k else head 6 3 ++ bytes (Bytes.ofNatBE k)

/-- The tag of a constructor that has one of its own. -/
def constrTag? (tag : Int) : Option Nat :=
  match tag with
  | .ofNat t => if t < 7 then some (121 + t) else if t < 128 then some (1280 + (t - 7)) else none
  | .negSucc _ => none

/-- What precedes the fields of a constructor. -/
def constrHead (tag : Int) : Bytes :=
  match constrTag? tag with
  | some t => head 6 t
  | none => head 6 102 ++ head 4 2 ++ integer tag

/-- A list, given its encoded items. -/
def listOf (items : List Bytes) : Bytes :=
  if items.isEmpty then head 4 0 else 0x9f :: items.flatten ++ [0xff]

mutual

/-- The encoding of data. -/
def encode : Data → Bytes
  | .constr tag fields => constrHead tag ++ listOf (encodeList fields)
  | .map entries => head 5 entries.length ++ (encodeEntries entries).flatten
  | .list items => listOf (encodeList items)
  | .integer n => integer n
  | .bytes b => bytes b

/-- The encodings of the items of a list. -/
def encodeList : List Data → List Bytes
  | [] => []
  | d :: ds => encode d :: encodeList ds

/-- The encodings of keys and values, alternating. -/
def encodeEntries : List (Data × Data) → List Bytes
  | [] => []
  | (k, v) :: es => encode k :: encode v :: encodeEntries es

end

end PlutusCek.Cbor
