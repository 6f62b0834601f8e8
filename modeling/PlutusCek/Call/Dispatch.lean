import PlutusCek.Call.ByteString
import PlutusCek.Call.Coins
import PlutusCek.Call.Cryptography
import PlutusCek.Call.Data
import PlutusCek.Call.Integer
import PlutusCek.Call.Pairing
import PlutusCek.Call.Structure
import PlutusCek.Call.Text

/-!
# Call.Dispatch — the call of each builtin
-/

namespace PlutusCek

/-- Prepares the call of a builtin on arguments in order of application. -/
def Builtin.prepare (semantics : Semantics) (fn : Builtin) (args : List Value) :
    Except Failure Call :=
  match fn with
  | .addInteger => Call.arithmetic (· + ·) args
  | .subtractInteger => Call.arithmetic (· - ·) args
  | .multiplyInteger => Call.arithmetic (· * ·) args
  | .divideInteger => Call.division fn Int.fdiv args
  | .quotientInteger => Call.division fn Int.tdiv args
  | .remainderInteger => Call.division fn Int.tmod args
  | .modInteger => Call.division fn Int.fmod args
  | .equalsInteger => Call.compareIntegers (fun x y => decide (x = y)) args
  | .lessThanInteger => Call.compareIntegers (fun x y => decide (x < y)) args
  | .lessThanEqualsInteger => Call.compareIntegers (fun x y => decide (x ≤ y)) args
  | .appendByteString => Call.appendBytes args
  | .consByteString => Call.consByte fn semantics args
  | .sliceByteString => Call.sliceBytes args
  | .lengthOfByteString => Call.lengthBytes args
  | .indexByteString => Call.indexBytes fn args
  | .equalsByteString => Call.compareBytes (fun x y => decide (x = y)) args
  | .lessThanByteString => Call.compareBytes Bytes.lt args
  | .lessThanEqualsByteString => Call.compareBytes Bytes.le args
  | .sha256 => Call.digest Crypto.sha256 args
  | .sha3 => Call.digest Crypto.sha3 args
  | .blake2b256 => Call.digest (Crypto.blake2b 32) args
  | .verifyEd25519Signature => Call.verify fn Call.checkEd25519 args
  | .appendString => Call.appendString args
  | .equalsString => Call.equalsString args
  | .encodeUtf8 => Call.encodeString args
  | .decodeUtf8 => Call.decodeString fn args
  | .ifThenElse => Call.ifThenElse args
  | .chooseUnit => Call.chooseUnit args
  | .trace => Call.trace args
  | .fstPair => Call.fstPair args
  | .sndPair => Call.sndPair args
  | .chooseList => Call.chooseList args
  | .mkCons => Call.mkCons args
  | .headList => Call.headList fn args
  | .tailList => Call.tailList fn args
  | .nullList => Call.nullList args
  | .chooseData => Call.chooseData args
  | .constrData => Call.constrData args
  | .mapData => Call.mapData args
  | .listData => Call.listData args
  | .iData => Call.integerData args
  | .bData => Call.bytesData args
  | .unConstrData => Call.takeData fn "constructor" Call.constrParts args
  | .unMapData => Call.takeData fn "map" Call.mapParts args
  | .unListData => Call.takeData fn "list" Call.listParts args
  | .unIData => Call.takeData fn "integer" Call.integerPart args
  | .unBData => Call.takeData fn "bytestring" Call.bytesPart args
  | .equalsData => Call.equalsData args
  | .mkPairData => Call.mkPairData args
  | .mkNilData => Call.mkNil .data args
  | .mkNilPairData => Call.mkNil Call.dataPairType args
  | .serialiseData => Call.serialiseData args
  | .verifyEcdsaSecp256k1Signature => Call.verify fn Call.checkEcdsa args
  | .verifySchnorrSecp256k1Signature => Call.verify fn Call.checkSchnorr args
  | .g1Add => Call.addPoints .first args
  | .g1Neg => Call.negPoint .first args
  | .g1ScalarMul => Call.scalePoint .first args
  | .g1Equal => Call.equalPoints .first args
  | .g1Compress => Call.compressPoint .first args
  | .g1Uncompress => Call.uncompressPoint fn .first args
  | .g1HashToGroup => Call.hashToPoint fn .first args
  | .g2Add => Call.addPoints .second args
  | .g2Neg => Call.negPoint .second args
  | .g2ScalarMul => Call.scalePoint .second args
  | .g2Equal => Call.equalPoints .second args
  | .g2Compress => Call.compressPoint .second args
  | .g2Uncompress => Call.uncompressPoint fn .second args
  | .g2HashToGroup => Call.hashToPoint fn .second args
  | .millerLoop => Call.miller args
  | .mulMiller => Call.mulMiller args
  | .finalVerify => Call.finalVerify args
  | .keccak => Call.digest Crypto.keccak args
  | .blake2b224 => Call.digest (Crypto.blake2b 28) args
  | .integerToByteString => Call.integerToBytes fn args
  | .byteStringToInteger => Call.bytesToInteger args
  | .andByteString => Call.logicalBytes (· &&& ·) args
  | .orByteString => Call.logicalBytes (· ||| ·) args
  | .xorByteString => Call.logicalBytes (· ^^^ ·) args
  | .complementByteString => Call.complementBytes args
  | .readBit => Call.readBit fn args
  | .writeBits => Call.writeBits fn args
  | .replicateByte => Call.replicateBytes fn args
  | .shiftByteString => Call.moveBits Bits.shift args
  | .rotateByteString => Call.moveBits Bits.rotate args
  | .countSetBits => Call.measureBits (fun b => Bits.count b) args
  | .findFirstSetBit => Call.measureBits Bits.first args
  | .ripemd160 => Call.digest Crypto.ripemd160 args
  | .expModInteger => Call.expMod fn args
  | .dropList => Call.dropList args
  | .lengthOfArray => Call.lengthOfArray args
  | .listToArray => Call.listToArray args
  | .indexArray => Call.indexArray fn args
  | .g1MultiScalarMul => Call.multiScale .first args
  | .g2MultiScalarMul => Call.multiScale .second args
  | .insertCoin => Call.insertCoin fn args
  | .lookupCoin => Call.lookupCoin args
  | .unionValue => Call.unionValue fn args
  | .valueContains => Call.valueContains args
  | .valueData => Call.valueData args
  | .unValueData => Call.unValueData fn args
  | .scaleValue => Call.scaleValue fn args

end PlutusCek
