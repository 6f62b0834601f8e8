import PlutusCek.Data
import PlutusCek.KeyMap
import PlutusCek.Update

/-!
# Assets — quantities of tokens held under currencies

A bundle is a map from currencies to maps from tokens to quantities.  It holds no zero quantity and
no currency without tokens.  Keys have at most 32 bytes and quantities fit in 128 signed bits.
-/

namespace PlutusCek

/-- Why a bundle cannot be built. -/
inductive AssetError where
  | keyTooLong (length : Nat)
  | quantityOutOfRange (quantity : Int)
  | malformed (reason : String)
deriving DecidableEq

/-- The wording of an asset error. -/
def AssetError.message : AssetError → String
  | .keyTooLong n => s!"key of {n} bytes exceeds 32 bytes"
  | .quantityOutOfRange q => s!"quantity {q} is outside the signed 128-bit range"
  | .malformed reason => s!"malformed value data: {reason}"

/-- A quantity of one token. -/
structure AssetEntry where
  currency : Bytes
  token : Bytes
  quantity : Int
deriving DecidableEq

/-- A bundle of assets: for each currency, the quantities of its tokens. -/
structure Assets where
  currencies : KeyMap (KeyMap Int)
deriving DecidableEq

namespace Assets

/-- The empty bundle. -/
def empty : Assets := ⟨.empty⟩

/-- Number of tokens, over all currencies. -/
def size (a : Assets) : Nat := a.currencies.entries.foldr (fun p n => p.2.size + n) 0

/-- The bundle has no currencies. -/
def isEmpty (a : Assets) : Bool := a.currencies.isEmpty

/-- The tokens of all currencies, in the order of the keys. -/
def entries (a : Assets) : List AssetEntry :=
  a.currencies.entries.flatMap fun p => p.2.entries.map fun r => ⟨p.1, r.1, r.2⟩

/-- The tokens of a currency, none when it is absent. -/
def tokens (a : Assets) (currency : Bytes) : KeyMap Int :=
  (a.currencies.get? currency).getD .empty

/-- The quantity stored for a token. -/
def get? (a : Assets) (currency token : Bytes) : Option Int :=
  (a.currencies.get? currency).bind fun tokens => tokens.get? token

/-- The quantity of a token, zero when absent. -/
def lookup (a : Assets) (currency token : Bytes) : Int := (a.get? currency token).getD 0

/-- The longest currency or token name, in bytes. -/
def maxKeyLength : Nat := 32

/-- Refuses a long key. -/
def checkKey (key : Bytes) : Except AssetError Unit :=
  if key.length > maxKeyLength then .error (.keyTooLong key.length) else .ok ()

/-- The least quantity of the signed 128-bit range. -/
def leastQuantity : Int := -170141183460469231731687303715884105728

/-- The greatest quantity of the signed 128-bit range. -/
def greatestQuantity : Int := 170141183460469231731687303715884105727

/-- Refuses a quantity outside the signed 128-bit range. -/
def checkQuantity (q : Int) : Except AssetError Unit :=
  if q < leastQuantity ∨ greatestQuantity < q then .error (.quantityOutOfRange q) else .ok ()

/-- Takes out a token, and its currency with the last of its tokens. -/
def withdraw (a : Assets) (currency token : Bytes) : Assets :=
  match a.currencies.get? currency with
  | none => a
  | some tokens =>
    let left := tokens.erase token
    if left.isEmpty then ⟨a.currencies.erase currency⟩ else ⟨a.currencies.insert currency left⟩

/-- Stores a quantity, under a new currency if need be. -/
def deposit (a : Assets) (currency token : Bytes) (q : Int) : Assets :=
  ⟨a.currencies.insert currency ((a.tokens currency).insert token q)⟩

/-- Sets a quantity in place; zero removes the token. -/
def setQuantity (currency token : Bytes) (q : Int) : Update AssetError Assets Unit := do
  checkKey currency
  checkKey token
  checkQuantity q
  if q = 0 then
    modify fun a => a.withdraw currency token
  else
    modify fun a => a.deposit currency token q

/-- Whether a quantity could be set, and the bundle left by the attempt. -/
def insert (a : Assets) (currency token : Bytes) (q : Int) : Except AssetError Unit × Assets :=
  (setQuantity currency token q).apply a

/-- The bundle with a quantity set, if that could be done. -/
def inserted (a : Assets) (currency token : Bytes) (q : Int) : Except AssetError Assets :=
  (setQuantity currency token q).result a

/-- Adds up two bundles. -/
def union (a b : Assets) : Except AssetError Assets :=
  b.entries.foldlM
    (fun out e => out.inserted e.currency e.token (out.lookup e.currency e.token + e.quantity)) a

/-- Multiplies every quantity. -/
def scale (a : Assets) (n : Int) : Except AssetError Assets :=
  a.entries.foldlM (fun out e => out.inserted e.currency e.token (e.quantity * n)) empty

/-- Every quantity of `b` is at most the one of `a`. -/
def contains (a b : Assets) : Bool :=
  b.entries.all fun e => decide (e.quantity ≤ a.lookup e.currency e.token)

/-! ### Conversion from and to data -/

/-- A map from currencies to maps from tokens to quantities. -/
def toData (a : Assets) : Data :=
  .map (a.currencies.entries.map fun p =>
    (.bytes p.1, .map (p.2.entries.map fun r => (.bytes r.1, .integer r.2))))

/-- Reads the tokens of one currency into a bundle. -/
def readTokens (currency : Bytes) (out : Assets) : List (Data × Data) → Except AssetError Assets
  | [] => .ok out
  | (.bytes token, .integer q) :: rest => do
    if q = 0 then throw (.malformed "zero quantity")
    if (out.currencies.get? currency).any fun tokens => tokens.contains token then
      throw (.malformed "duplicate token name")
    let out ← out.inserted currency token q
    readTokens currency out rest
  | _ :: _ => .error (.malformed "expected bytes => integer")

/-- Reads currencies into a bundle. -/
def readCurrencies (out : Assets) : List (Data × Data) → Except AssetError Assets
  | [] => .ok out
  | (.bytes currency, .map tokens) :: rest => do
    if tokens.isEmpty then throw (.malformed "empty token map")
    if out.currencies.contains currency then throw (.malformed "duplicate currency symbol")
    let out ← readTokens currency out tokens
    readCurrencies out rest
  | _ :: _ => .error (.malformed "expected bytes => map")

/-- Reads the data written by `toData`, in any order of keys.  Repeated keys, zero quantities and
currencies without tokens are refused. -/
def ofData : Data → Except AssetError Assets
  | .map entries => readCurrencies empty entries
  | _ => .error (.malformed "expected a map")

end Assets

end PlutusCek
