/-!
# Builtin — the table of builtin functions

Each builtin has a name, a number of arguments, a number of forces it takes before them, and the
release it came with.  Its tag is its position in the table.
-/

namespace PlutusCek

/-- The releases that brought builtins. -/
inductive Batch where
  | batch1
  | batch2
  | batch3
  | batch4
  | batch5
  | batch6
  | batch7
deriving DecidableEq

/-- The number of a release. -/
def Batch.number : Batch → Nat
  | .batch1 => 1
  | .batch2 => 2
  | .batch3 => 3
  | .batch4 => 4
  | .batch5 => 5
  | .batch6 => 6
  | .batch7 => 7

/-- The builtin functions, in the order of their tags. -/
inductive Builtin where
  | addInteger
  | subtractInteger
  | multiplyInteger
  | divideInteger
  | quotientInteger
  | remainderInteger
  | modInteger
  | equalsInteger
  | lessThanInteger
  | lessThanEqualsInteger
  | appendByteString
  | consByteString
  | sliceByteString
  | lengthOfByteString
  | indexByteString
  | equalsByteString
  | lessThanByteString
  | lessThanEqualsByteString
  | sha256
  | sha3
  | blake2b256
  | verifyEd25519Signature
  | appendString
  | equalsString
  | encodeUtf8
  | decodeUtf8
  | ifThenElse
  | chooseUnit
  | trace
  | fstPair
  | sndPair
  | chooseList
  | mkCons
  | headList
  | tailList
  | nullList
  | chooseData
  | constrData
  | mapData
  | listData
  | iData
  | bData
  | unConstrData
  | unMapData
  | unListData
  | unIData
  | unBData
  | equalsData
  | mkPairData
  | mkNilData
  | mkNilPairData
  | serialiseData
  | verifyEcdsaSecp256k1Signature
  | verifySchnorrSecp256k1Signature
  | g1Add
  | g1Neg
  | g1ScalarMul
  | g1Equal
  | g1Compress
  | g1Uncompress
  | g1HashToGroup
  | g2Add
  | g2Neg
  | g2ScalarMul
  | g2Equal
  | g2Compress
  | g2Uncompress
  | g2HashToGroup
  | millerLoop
  | mulMiller
  | finalVerify
  | keccak
  | blake2b224
  | integerToByteString
  | byteStringToInteger
  | andByteString
  | orByteString
  | xorByteString
  | complementByteString
  | readBit
  | writeBits
  | replicateByte
  | shiftByteString
  | rotateByteString
  | countSetBits
  | findFirstSetBit
  | ripemd160
  | expModInteger
  | dropList
  | lengthOfArray
  | listToArray
  | indexArray
  | g1MultiScalarMul
  | g2MultiScalarMul
  | insertCoin
  | lookupCoin
  | unionValue
  | valueContains
  | valueData
  | unValueData
  | scaleValue
deriving DecidableEq, Inhabited

/-- What the table says of a builtin. -/
structure Builtin.Signature where
  name : String
  arity : Nat
  forces : Nat
  batch : Batch

namespace Builtin

/-- The table. -/
def signature : Builtin → Signature
  | .addInteger => ⟨"addInteger", 2, 0, .batch1⟩
  | .subtractInteger => ⟨"subtractInteger", 2, 0, .batch1⟩
  | .multiplyInteger => ⟨"multiplyInteger", 2, 0, .batch1⟩
  | .divideInteger => ⟨"divideInteger", 2, 0, .batch1⟩
  | .quotientInteger => ⟨"quotientInteger", 2, 0, .batch1⟩
  | .remainderInteger => ⟨"remainderInteger", 2, 0, .batch1⟩
  | .modInteger => ⟨"modInteger", 2, 0, .batch1⟩
  | .equalsInteger => ⟨"equalsInteger", 2, 0, .batch1⟩
  | .lessThanInteger => ⟨"lessThanInteger", 2, 0, .batch1⟩
  | .lessThanEqualsInteger => ⟨"lessThanEqualsInteger", 2, 0, .batch1⟩
  | .appendByteString => ⟨"appendByteString", 2, 0, .batch1⟩
  | .consByteString => ⟨"consByteString", 2, 0, .batch1⟩
  | .sliceByteString => ⟨"sliceByteString", 3, 0, .batch1⟩
  | .lengthOfByteString => ⟨"lengthOfByteString", 1, 0, .batch1⟩
  | .indexByteString => ⟨"indexByteString", 2, 0, .batch1⟩
  | .equalsByteString => ⟨"equalsByteString", 2, 0, .batch1⟩
  | .lessThanByteString => ⟨"lessThanByteString", 2, 0, .batch1⟩
  | .lessThanEqualsByteString => ⟨"lessThanEqualsByteString", 2, 0, .batch1⟩
  | .sha256 => ⟨"sha2_256", 1, 0, .batch1⟩
  | .sha3 => ⟨"sha3_256", 1, 0, .batch1⟩
  | .blake2b256 => ⟨"blake2b_256", 1, 0, .batch1⟩
  | .verifyEd25519Signature => ⟨"verifyEd25519Signature", 3, 0, .batch1⟩
  | .appendString => ⟨"appendString", 2, 0, .batch1⟩
  | .equalsString => ⟨"equalsString", 2, 0, .batch1⟩
  | .encodeUtf8 => ⟨"encodeUtf8", 1, 0, .batch1⟩
  | .decodeUtf8 => ⟨"decodeUtf8", 1, 0, .batch1⟩
  | .ifThenElse => ⟨"ifThenElse", 3, 1, .batch1⟩
  | .chooseUnit => ⟨"chooseUnit", 2, 1, .batch1⟩
  | .trace => ⟨"trace", 2, 1, .batch1⟩
  | .fstPair => ⟨"fstPair", 1, 2, .batch1⟩
  | .sndPair => ⟨"sndPair", 1, 2, .batch1⟩
  | .chooseList => ⟨"chooseList", 3, 2, .batch1⟩
  | .mkCons => ⟨"mkCons", 2, 1, .batch1⟩
  | .headList => ⟨"headList", 1, 1, .batch1⟩
  | .tailList => ⟨"tailList", 1, 1, .batch1⟩
  | .nullList => ⟨"nullList", 1, 1, .batch1⟩
  | .chooseData => ⟨"chooseData", 6, 1, .batch1⟩
  | .constrData => ⟨"constrData", 2, 0, .batch1⟩
  | .mapData => ⟨"mapData", 1, 0, .batch1⟩
  | .listData => ⟨"listData", 1, 0, .batch1⟩
  | .iData => ⟨"iData", 1, 0, .batch1⟩
  | .bData => ⟨"bData", 1, 0, .batch1⟩
  | .unConstrData => ⟨"unConstrData", 1, 0, .batch1⟩
  | .unMapData => ⟨"unMapData", 1, 0, .batch1⟩
  | .unListData => ⟨"unListData", 1, 0, .batch1⟩
  | .unIData => ⟨"unIData", 1, 0, .batch1⟩
  | .unBData => ⟨"unBData", 1, 0, .batch1⟩
  | .equalsData => ⟨"equalsData", 2, 0, .batch1⟩
  | .mkPairData => ⟨"mkPairData", 2, 0, .batch1⟩
  | .mkNilData => ⟨"mkNilData", 1, 0, .batch1⟩
  | .mkNilPairData => ⟨"mkNilPairData", 1, 0, .batch1⟩
  | .serialiseData => ⟨"serialiseData", 1, 0, .batch2⟩
  | .verifyEcdsaSecp256k1Signature => ⟨"verifyEcdsaSecp256k1Signature", 3, 0, .batch3⟩
  | .verifySchnorrSecp256k1Signature => ⟨"verifySchnorrSecp256k1Signature", 3, 0, .batch3⟩
  | .g1Add => ⟨"bls12_381_G1_add", 2, 0, .batch4⟩
  | .g1Neg => ⟨"bls12_381_G1_neg", 1, 0, .batch4⟩
  | .g1ScalarMul => ⟨"bls12_381_G1_scalarMul", 2, 0, .batch4⟩
  | .g1Equal => ⟨"bls12_381_G1_equal", 2, 0, .batch4⟩
  | .g1Compress => ⟨"bls12_381_G1_compress", 1, 0, .batch4⟩
  | .g1Uncompress => ⟨"bls12_381_G1_uncompress", 1, 0, .batch4⟩
  | .g1HashToGroup => ⟨"bls12_381_G1_hashToGroup", 2, 0, .batch4⟩
  | .g2Add => ⟨"bls12_381_G2_add", 2, 0, .batch4⟩
  | .g2Neg => ⟨"bls12_381_G2_neg", 1, 0, .batch4⟩
  | .g2ScalarMul => ⟨"bls12_381_G2_scalarMul", 2, 0, .batch4⟩
  | .g2Equal => ⟨"bls12_381_G2_equal", 2, 0, .batch4⟩
  | .g2Compress => ⟨"bls12_381_G2_compress", 1, 0, .batch4⟩
  | .g2Uncompress => ⟨"bls12_381_G2_uncompress", 1, 0, .batch4⟩
  | .g2HashToGroup => ⟨"bls12_381_G2_hashToGroup", 2, 0, .batch4⟩
  | .millerLoop => ⟨"bls12_381_millerLoop", 2, 0, .batch4⟩
  | .mulMiller => ⟨"bls12_381_mulMlResult", 2, 0, .batch4⟩
  | .finalVerify => ⟨"bls12_381_finalVerify", 2, 0, .batch4⟩
  | .keccak => ⟨"keccak_256", 1, 0, .batch4⟩
  | .blake2b224 => ⟨"blake2b_224", 1, 0, .batch4⟩
  | .integerToByteString => ⟨"integerToByteString", 3, 0, .batch4⟩
  | .byteStringToInteger => ⟨"byteStringToInteger", 2, 0, .batch4⟩
  | .andByteString => ⟨"andByteString", 3, 0, .batch5⟩
  | .orByteString => ⟨"orByteString", 3, 0, .batch5⟩
  | .xorByteString => ⟨"xorByteString", 3, 0, .batch5⟩
  | .complementByteString => ⟨"complementByteString", 1, 0, .batch5⟩
  | .readBit => ⟨"readBit", 2, 0, .batch5⟩
  | .writeBits => ⟨"writeBits", 3, 0, .batch5⟩
  | .replicateByte => ⟨"replicateByte", 2, 0, .batch5⟩
  | .shiftByteString => ⟨"shiftByteString", 2, 0, .batch5⟩
  | .rotateByteString => ⟨"rotateByteString", 2, 0, .batch5⟩
  | .countSetBits => ⟨"countSetBits", 1, 0, .batch5⟩
  | .findFirstSetBit => ⟨"findFirstSetBit", 1, 0, .batch5⟩
  | .ripemd160 => ⟨"ripemd_160", 1, 0, .batch5⟩
  | .expModInteger => ⟨"expModInteger", 3, 0, .batch6⟩
  | .dropList => ⟨"dropList", 2, 1, .batch6⟩
  | .lengthOfArray => ⟨"lengthOfArray", 1, 1, .batch6⟩
  | .listToArray => ⟨"listToArray", 1, 1, .batch6⟩
  | .indexArray => ⟨"indexArray", 2, 1, .batch6⟩
  | .g1MultiScalarMul => ⟨"bls12_381_G1_multiScalarMul", 2, 0, .batch6⟩
  | .g2MultiScalarMul => ⟨"bls12_381_G2_multiScalarMul", 2, 0, .batch6⟩
  | .insertCoin => ⟨"insertCoin", 4, 0, .batch7⟩
  | .lookupCoin => ⟨"lookupCoin", 3, 0, .batch7⟩
  | .unionValue => ⟨"unionValue", 2, 0, .batch7⟩
  | .valueContains => ⟨"valueContains", 2, 0, .batch7⟩
  | .valueData => ⟨"valueData", 1, 0, .batch7⟩
  | .unValueData => ⟨"unValueData", 1, 0, .batch7⟩
  | .scaleValue => ⟨"scaleValue", 2, 0, .batch7⟩

/-- Every builtin, in the order of tags. -/
def all : List Builtin :=
  [.addInteger, .subtractInteger, .multiplyInteger, .divideInteger, .quotientInteger,
   .remainderInteger, .modInteger, .equalsInteger, .lessThanInteger, .lessThanEqualsInteger,
   .appendByteString, .consByteString, .sliceByteString, .lengthOfByteString, .indexByteString,
   .equalsByteString, .lessThanByteString, .lessThanEqualsByteString, .sha256, .sha3,
   .blake2b256, .verifyEd25519Signature, .appendString, .equalsString, .encodeUtf8, .decodeUtf8,
   .ifThenElse, .chooseUnit, .trace, .fstPair, .sndPair, .chooseList, .mkCons, .headList,
   .tailList, .nullList, .chooseData, .constrData, .mapData, .listData, .iData, .bData,
   .unConstrData, .unMapData, .unListData, .unIData, .unBData, .equalsData, .mkPairData,
   .mkNilData, .mkNilPairData, .serialiseData, .verifyEcdsaSecp256k1Signature,
   .verifySchnorrSecp256k1Signature, .g1Add, .g1Neg, .g1ScalarMul, .g1Equal, .g1Compress,
   .g1Uncompress, .g1HashToGroup, .g2Add, .g2Neg, .g2ScalarMul, .g2Equal, .g2Compress,
   .g2Uncompress, .g2HashToGroup, .millerLoop, .mulMiller, .finalVerify, .keccak, .blake2b224,
   .integerToByteString, .byteStringToInteger, .andByteString, .orByteString, .xorByteString,
   .complementByteString, .readBit, .writeBits, .replicateByte, .shiftByteString,
   .rotateByteString, .countSetBits, .findFirstSetBit, .ripemd160, .expModInteger, .dropList,
   .lengthOfArray, .listToArray, .indexArray, .g1MultiScalarMul, .g2MultiScalarMul, .insertCoin,
   .lookupCoin, .unionValue, .valueContains, .valueData, .unValueData, .scaleValue]

/-- The name in programs and cost parameters. -/
def name (f : Builtin) : String := f.signature.name

/-- Number of arguments. -/
def arity (f : Builtin) : Nat := f.signature.arity

/-- The most arguments a builtin takes. -/
def maxArity : Nat := 6

/-- Number of forces before the first argument. -/
def forceCount (f : Builtin) : Nat := f.signature.forces

/-- The release the builtin came with. -/
def batch (f : Builtin) : Batch := f.signature.batch

/-- The position in the table. -/
def tag (f : Builtin) : Nat := f.ctorIdx

/-- The builtin with a tag. -/
def ofTag? (t : Nat) : Option Builtin := all[t]?

/-- The builtin with a name. -/
def ofName? (s : String) : Option Builtin := all.find? fun f => f.name == s

/-- The complaint about a name without a builtin. -/
def unknownName (s : String) : String := "unknown builtin \x60" ++ s ++ "\x60"

/-- The complaint about a tag without a builtin. -/
def unknownTag (t : Nat) : String := s!"unknown builtin tag {t}"

/-- Number of builtins. -/
def count : Nat := 101

theorem length_all : all.length = count := rfl

/-- Tags are positions. -/
theorem ofTag?_tag (f : Builtin) : ofTag? f.tag = some f := by
  cases f <;> rfl

theorem tag_lt (f : Builtin) : f.tag < count := by
  cases f <;> decide

theorem arity_le (f : Builtin) : f.arity ≤ maxArity := by
  cases f <;> decide

example : chooseData.arity = maxArity := rfl

theorem forceCount_le (f : Builtin) : f.forceCount ≤ 2 := by
  cases f <;> decide

theorem mem_all (f : Builtin) : f ∈ all :=
  List.mem_of_getElem? (ofTag?_tag f)

/-- A builtin is determined by its tag. -/
theorem tag_injective {f g : Builtin} (h : f.tag = g.tag) : f = g := by
  have := ofTag?_tag f
  rw [h, ofTag?_tag g] at this
  exact (Option.some.inj this).symm

end Builtin

/-- A table with one entry per builtin. -/
structure BuiltinTable (α : Type) where
  entries : Vector α Builtin.count
deriving DecidableEq

namespace BuiltinTable

variable {α : Type}

/-- The builtin at a position. -/
def builtinAt (i : Fin Builtin.count) : Builtin :=
  Builtin.all.get (i.cast Builtin.length_all.symm)

/-- The table of a function. -/
def ofFn (g : Builtin → α) : BuiltinTable α :=
  ⟨Vector.ofFn fun i => g (builtinAt i)⟩

/-- The entry of a builtin. -/
def get (t : BuiltinTable α) (f : Builtin) : α :=
  have _h := f.tag_lt
  t.entries[f.tag]

/-- Replaces the entry of a builtin. -/
def set (t : BuiltinTable α) (f : Builtin) (a : α) : BuiltinTable α :=
  ⟨t.entries.set f.tag a f.tag_lt⟩

theorem builtinAt_tag (f : Builtin) : builtinAt ⟨f.tag, f.tag_lt⟩ = f := by
  have h := Builtin.ofTag?_tag f
  unfold Builtin.ofTag? at h
  obtain ⟨_, h⟩ := List.getElem?_eq_some_iff.1 h
  exact h

@[simp] theorem get_ofFn (g : Builtin → α) (f : Builtin) : (ofFn g).get f = g f := by
  simp [get, ofFn, builtinAt_tag]

@[simp] theorem get_set_self (t : BuiltinTable α) (f : Builtin) (a : α) :
    (t.set f a).get f = a := by
  simp [get, set]

theorem get_set_ne (t : BuiltinTable α) {f g : Builtin} (a : α) (h : f ≠ g) :
    (t.set f a).get g = t.get g := by
  have hne : f.tag ≠ g.tag := fun e => h (Builtin.tag_injective e)
  simp [get, set, Vector.getElem_set_ne, hne]

end BuiltinTable

end PlutusCek
