import PlutusCek.Amount
import PlutusCek.Assets
import PlutusCek.Bits
import PlutusCek.Budget
import PlutusCek.Builtin
import PlutusCek.Bytes
import PlutusCek.Call
import PlutusCek.Call.ByteString
import PlutusCek.Call.Coins
import PlutusCek.Call.Cryptography
import PlutusCek.Call.Data
import PlutusCek.Call.Dispatch
import PlutusCek.Call.Integer
import PlutusCek.Call.Pairing
import PlutusCek.Call.Structure
import PlutusCek.Call.Text
import PlutusCek.Config
import PlutusCek.Config.Json
import PlutusCek.Constant
import PlutusCek.Cost.Defaults
import PlutusCek.Cost.Function
import PlutusCek.Cost.Model
import PlutusCek.Cost.Parameters
import PlutusCek.Crypto.Blake2b
import PlutusCek.Crypto.Bls12381.Field
import PlutusCek.Crypto.Bls12381.Group
import PlutusCek.Crypto.Bls12381.HashToGroup
import PlutusCek.Crypto.Bls12381.Pairing
import PlutusCek.Crypto.Ed25519
import PlutusCek.Crypto.Keccak
import PlutusCek.Crypto.Residue
import PlutusCek.Crypto.Ripemd160
import PlutusCek.Crypto.Secp256k1
import PlutusCek.Crypto.Sha2
import PlutusCek.Crypto.Weierstrass
import PlutusCek.Data
import PlutusCek.Data.Cbor
import PlutusCek.Failure
import PlutusCek.KeyMap
import PlutusCek.Machine
import PlutusCek.Machine.Account
import PlutusCek.Machine.Transition
import PlutusCek.Modular
import PlutusCek.Proofs.Course
import PlutusCek.Proofs.Independence
import PlutusCek.Proofs.Payment
import PlutusCek.Protocol
import PlutusCek.Size
import PlutusCek.StepKind
import PlutusCek.Term
import PlutusCek.Update
import PlutusCek.Value
import PlutusCek.Version
import PlutusCek.Proofs.Threshold
import PlutusCek.Proofs.Balance
import PlutusCek.Proofs.Slippage
import PlutusCek.Proofs.Scope
import PlutusCek.Proofs.Shape
import PlutusCek.Proofs.Uniform
import PlutusCek.Proofs.Adequacy
import PlutusCek.Proofs.States
import PlutusCek.Proofs.Sizes
import PlutusCek.Proofs.Typed
import PlutusCek.Proofs.Contract
import PlutusCek.Proofs.Profile
import PlutusCek.Proofs.Conformance
import PlutusCek.Proofs.Heredity
import PlutusCek.Proofs.Closedness
import PlutusCek.Proofs.Saturation
import PlutusCek.Proofs.Halting
import PlutusCek.Proofs.Preservation
import PlutusCek.Proofs.Descent
import PlutusCek.Proofs.NormalForm
import PlutusCek.Proofs.Accounting
import PlutusCek.Proofs.Reuse
import PlutusCek.Proofs.Lockstep
import PlutusCek.Proofs.Upgrade
import PlutusCek.Proofs.Wrapping
import PlutusCek.Proofs.Overdraft
import PlutusCek.Proofs.Sums
import PlutusCek.Proofs.Digits
import PlutusCek.Proofs.Decoding
import PlutusCek.Proofs.Measurement
import PlutusCek.Proofs.Tariff
import PlutusCek.Proofs.Charging
import PlutusCek.Proofs.Naming
import PlutusCek.Proofs.Overriding
import PlutusCek.Proofs.Clamping
import PlutusCek.Proofs.Traversal
import PlutusCek.Proofs.Bundles
import PlutusCek.Proofs.Positions
import PlutusCek.Proofs.Addition
import PlutusCek.Proofs.Coverage
import PlutusCek.Proofs.Interchange
import PlutusCek.Proofs.KeyMaps
import PlutusCek.Proofs.BitString
import PlutusCek.Proofs.Answering
import PlutusCek.Proofs.Shifting
import PlutusCek.Proofs.BitAccess
import PlutusCek.Proofs.Conversion
import PlutusCek.Proofs.Bytewise
import PlutusCek.Proofs.Powers
import PlutusCek.Proofs.Words
import PlutusCek.Proofs.Preorder
import PlutusCek.Proofs.Discharge
import PlutusCek.Proofs.Allowance
