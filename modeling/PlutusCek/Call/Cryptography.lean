import PlutusCek.Call
import PlutusCek.Crypto.Blake2b
import PlutusCek.Crypto.Ed25519
import PlutusCek.Crypto.Keccak
import PlutusCek.Crypto.Ripemd160
import PlutusCek.Crypto.Secp256k1

/-!
# Call.Cryptography — digests and signatures

A malformed key or signature is refused; a well-formed signature that does not verify is false.
-/

namespace PlutusCek.Call

open Crypto

/-- A digest. -/
def digest (hash : Bytes → Bytes) : List Value → Except Failure Call
  | [b] => do
    let x ← b.asBytes
    return total (sizes [Size.bytes x]) fun _ => .bytes (hash x)
  | _ => .error .malformedCall

/-- Refuses bytes of another length. -/
def checkLength (what : String) (expected : Nat) (b : Bytes) : Except Refusal Unit :=
  if b.length = expected then .ok () else .error (.invalidLength what expected b.length)

/-- Refuses what could not be read. -/
def orMalformed {α : Type} (what : String) : Option α → Except Refusal α
  | some a => .ok a
  | none => .error (.malformed what)

/-- Ed25519: the key is read before the signature's length is checked. -/
def checkEd25519 (key message signature : Bytes) : Except Refusal Bool := do
  checkLength "Ed25519 public key" 32 key
  let point ← orMalformed "Ed25519 public key" (Ed25519.decode? key)
  checkLength "Ed25519 signature" 64 signature
  return Ed25519.verify key point message signature

/-- ECDSA over a message hash. -/
def checkEcdsa (key message signature : Bytes) : Except Refusal Bool := do
  checkLength "ECDSA public key" 33 key
  checkLength "ECDSA message hash" 32 message
  checkLength "ECDSA signature" 64 signature
  let point ← orMalformed "ECDSA public key" (Secp256k1.ecdsaKey? key)
  let rs ← orMalformed "ECDSA signature" (Secp256k1.ecdsaSignature? signature)
  return Secp256k1.ecdsaVerify point message rs

/-- Schnorr over a message. -/
def checkSchnorr (key message signature : Bytes) : Except Refusal Bool := do
  checkLength "Schnorr public key" 32 key
  checkLength "Schnorr signature" 64 signature
  let point ← orMalformed "Schnorr public key" (Secp256k1.schnorrKey? key)
  let rs ← orMalformed "Schnorr signature" (Secp256k1.schnorrSignature? signature)
  return Secp256k1.schnorrVerify point message rs

/-- Verification of a signature by key and message. -/
def verify (fn : Builtin) (check : Bytes → Bytes → Bytes → Except Refusal Bool) :
    List Value → Except Failure Call
  | [k, m, s] => do
    let key ← k.asBytes
    let message ← m.asBytes
    let signature ← s.asBytes
    let size := sizes [Size.bytes key, Size.bytes message, Size.bytes signature]
    return guarded fn size fun _ => (check key message signature).map .bool
  | _ => .error .malformedCall

end PlutusCek.Call
