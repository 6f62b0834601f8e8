import PlutusCek.Cost.Model
import PlutusCek.Protocol

/-!
# Cost.Defaults — the calibrated costs of each language

The first two languages share their costs.  The builtins of the last release have no calibrated
costs, only shapes.
-/

namespace PlutusCek

namespace CostModel

/-- Costs that are the same in every language. -/
def sharedCosts : Builtin → Option BuiltinCost
  | .g1Add => some ⟨.constant 18, .constant 962335⟩
  | .g1Neg => some ⟨.constant 18, .constant 267929⟩
  | .g1ScalarMul => some ⟨.constant 18, .linearInX ⟨76433006, 8868⟩⟩
  | .g1Equal => some ⟨.constant 1, .constant 442008⟩
  | .g1Compress => some ⟨.constant 6, .constant 2780678⟩
  | .g1Uncompress => some ⟨.constant 18, .constant 52948122⟩
  | .g1HashToGroup => some ⟨.constant 18, .linearInX ⟨52538055, 3756⟩⟩
  | .g2Add => some ⟨.constant 36, .constant 1995836⟩
  | .g2Neg => some ⟨.constant 36, .constant 284546⟩
  | .g2ScalarMul => some ⟨.constant 36, .linearInX ⟨158221314, 26549⟩⟩
  | .g2Equal => some ⟨.constant 1, .constant 901022⟩
  | .g2Compress => some ⟨.constant 12, .constant 3227919⟩
  | .g2Uncompress => some ⟨.constant 36, .constant 74698472⟩
  | .g2HashToGroup => some ⟨.constant 36, .linearInX ⟨166917843, 4307⟩⟩
  | .millerLoop => some ⟨.constant 72, .constant 254006273⟩
  | .mulMiller => some ⟨.constant 72, .constant 2174038⟩
  | .finalVerify => some ⟨.constant 1, .constant 333849714⟩
  | .keccak => some ⟨.constant 4, .linearInX ⟨2261318, 64571⟩⟩
  | .blake2b224 => some ⟨.constant 4, .linearInX ⟨207616, 8310⟩⟩
  | .integerToByteString => some ⟨.literalInYOrLinearInZ ⟨0, 1⟩, .quadraticInZ ⟨1293828, 28716, 63⟩⟩
  | .byteStringToInteger => some ⟨.linearInY ⟨0, 1⟩, .quadraticInY ⟨1006041, 43623, 251⟩⟩
  | .andByteString => some ⟨.linearInMaxYZ ⟨0, 1⟩, .linearInYZ ⟨100181, 726, 719⟩⟩
  | .orByteString => some ⟨.linearInMaxYZ ⟨0, 1⟩, .linearInYZ ⟨100181, 726, 719⟩⟩
  | .xorByteString => some ⟨.linearInMaxYZ ⟨0, 1⟩, .linearInYZ ⟨100181, 726, 719⟩⟩
  | .complementByteString => some ⟨.linearInX ⟨0, 1⟩, .linearInX ⟨107878, 680⟩⟩
  | .readBit => some ⟨.constant 1, .constant 95336⟩
  | .writeBits => some ⟨.linearInX ⟨0, 1⟩, .linearInY ⟨281145, 18848⟩⟩
  | .replicateByte => some ⟨.linearInX ⟨1, 1⟩, .linearInX ⟨180194, 159⟩⟩
  | .shiftByteString => some ⟨.linearInX ⟨0, 1⟩, .linearInX ⟨158519, 8942⟩⟩
  | .rotateByteString => some ⟨.linearInX ⟨0, 1⟩, .linearInX ⟨159378, 8813⟩⟩
  | .countSetBits => some ⟨.constant 1, .linearInX ⟨107490, 3298⟩⟩
  | .findFirstSetBit => some ⟨.constant 1, .linearInX ⟨106057, 655⟩⟩
  | .ripemd160 => some ⟨.constant 3, .linearInX ⟨1964219, 24520⟩⟩
  | .expModInteger => some ⟨.linearInZ ⟨0, 1⟩, .power ⟨607153, 231697, 53144⟩⟩
  | .dropList => some ⟨.constant 4, .linearInX ⟨116711, 1957⟩⟩
  | .lengthOfArray => some ⟨.constant 10, .constant 231883⟩
  | .listToArray => some ⟨.linearInX ⟨7, 1⟩, .linearInX ⟨1000, 24838⟩⟩
  | .indexArray => some ⟨.constant 32, .constant 232010⟩
  | .g1MultiScalarMul => some ⟨.constant 18, .linearInX ⟨321837444, 25087669⟩⟩
  | .g2MultiScalarMul => some ⟨.constant 36, .linearInX ⟨617887431, 67302824⟩⟩
  | _ => none

/-- The processor cost of a division in the third language. -/
def divisionV3 : CostFunction :=
  .constAboveDiagonal 85848 (.quadraticInXY ⟨85848, 123203, 1716, 7305, 57, 549, -900⟩)

/-- The builtin costs of the third language. -/
def costsV3 : Builtin → Option BuiltinCost
  | .addInteger => some ⟨.maxSize ⟨1, 1⟩, .maxSize ⟨100788, 420⟩⟩
  | .subtractInteger => some ⟨.maxSize ⟨1, 1⟩, .maxSize ⟨100788, 420⟩⟩
  | .multiplyInteger => some ⟨.addedSizes ⟨0, 1⟩, .multipliedSizes ⟨90434, 519⟩⟩
  | .divideInteger => some ⟨.subtractedSizes ⟨0, 1⟩ 1, divisionV3⟩
  | .quotientInteger => some ⟨.subtractedSizes ⟨0, 1⟩ 1, divisionV3⟩
  | .remainderInteger => some ⟨.linearInY ⟨0, 1⟩, divisionV3⟩
  | .modInteger => some ⟨.linearInY ⟨0, 1⟩, divisionV3⟩
  | .equalsInteger => some ⟨.constant 1, .minSize ⟨51775, 558⟩⟩
  | .lessThanInteger => some ⟨.constant 1, .minSize ⟨44749, 541⟩⟩
  | .lessThanEqualsInteger => some ⟨.constant 1, .minSize ⟨43285, 552⟩⟩
  | .appendByteString => some ⟨.addedSizes ⟨0, 1⟩, .addedSizes ⟨1000, 173⟩⟩
  | .consByteString => some ⟨.addedSizes ⟨0, 1⟩, .linearInY ⟨72010, 178⟩⟩
  | .sliceByteString => some ⟨.linearInZ ⟨4, 0⟩, .linearInZ ⟨20467, 1⟩⟩
  | .lengthOfByteString => some ⟨.constant 10, .constant 22100⟩
  | .indexByteString => some ⟨.constant 4, .constant 13169⟩
  | .equalsByteString => some ⟨.constant 1, .linearOnDiagonal 24548 ⟨29498, 38⟩⟩
  | .lessThanByteString => some ⟨.constant 1, .minSize ⟨28999, 74⟩⟩
  | .lessThanEqualsByteString => some ⟨.constant 1, .minSize ⟨28999, 74⟩⟩
  | .sha256 => some ⟨.constant 4, .linearInX ⟨270652, 22588⟩⟩
  | .sha3 => some ⟨.constant 4, .linearInX ⟨1457325, 64566⟩⟩
  | .blake2b256 => some ⟨.constant 4, .linearInX ⟨201305, 8356⟩⟩
  | .verifyEd25519Signature => some ⟨.constant 10, .linearInY ⟨53384111, 14333⟩⟩
  | .appendString => some ⟨.addedSizes ⟨4, 1⟩, .addedSizes ⟨1000, 59957⟩⟩
  | .equalsString => some ⟨.constant 1, .linearOnDiagonal 39184 ⟨1000, 60594⟩⟩
  | .encodeUtf8 => some ⟨.linearInX ⟨4, 2⟩, .linearInX ⟨1000, 42921⟩⟩
  | .decodeUtf8 => some ⟨.linearInX ⟨4, 2⟩, .linearInX ⟨91189, 769⟩⟩
  | .ifThenElse => some ⟨.constant 1, .constant 76049⟩
  | .chooseUnit => some ⟨.constant 4, .constant 61462⟩
  | .trace => some ⟨.constant 32, .constant 59498⟩
  | .fstPair => some ⟨.constant 32, .constant 141895⟩
  | .sndPair => some ⟨.constant 32, .constant 141992⟩
  | .chooseList => some ⟨.constant 32, .constant 132994⟩
  | .mkCons => some ⟨.constant 32, .constant 72362⟩
  | .headList => some ⟨.constant 32, .constant 83150⟩
  | .tailList => some ⟨.constant 32, .constant 81663⟩
  | .nullList => some ⟨.constant 32, .constant 74433⟩
  | .chooseData => some ⟨.constant 32, .constant 94375⟩
  | .constrData => some ⟨.constant 32, .constant 22151⟩
  | .mapData => some ⟨.constant 32, .constant 68246⟩
  | .listData => some ⟨.constant 32, .constant 33852⟩
  | .iData => some ⟨.constant 32, .constant 15299⟩
  | .bData => some ⟨.constant 32, .constant 11183⟩
  | .unConstrData => some ⟨.constant 32, .constant 24588⟩
  | .unMapData => some ⟨.constant 32, .constant 24623⟩
  | .unListData => some ⟨.constant 32, .constant 25933⟩
  | .unIData => some ⟨.constant 32, .constant 20744⟩
  | .unBData => some ⟨.constant 32, .constant 20142⟩
  | .equalsData => some ⟨.constant 1, .minSize ⟨898148, 27279⟩⟩
  | .mkPairData => some ⟨.constant 32, .constant 11546⟩
  | .mkNilData => some ⟨.constant 32, .constant 7243⟩
  | .mkNilPairData => some ⟨.constant 32, .constant 7391⟩
  | .serialiseData => some ⟨.linearInX ⟨0, 2⟩, .linearInX ⟨955506, 213312⟩⟩
  | .verifyEcdsaSecp256k1Signature => some ⟨.constant 10, .constant 43053543⟩
  | .verifySchnorrSecp256k1Signature => some ⟨.constant 10, .linearInY ⟨43574283, 26308⟩⟩
  | f => sharedCosts f

/-- The processor cost of a division in the first two languages. -/
def divisionV1 : CostFunction :=
  .constAboveDiagonal 196500 (.multipliedSizes ⟨453240, 220⟩)

/-- The builtin costs of the first two languages. -/
def costsV1 : Builtin → Option BuiltinCost
  | .addInteger => some ⟨.maxSize ⟨1, 1⟩, .maxSize ⟨205665, 812⟩⟩
  | .subtractInteger => some ⟨.maxSize ⟨1, 1⟩, .maxSize ⟨205665, 812⟩⟩
  | .multiplyInteger => some ⟨.addedSizes ⟨0, 1⟩, .addedSizes ⟨69522, 11687⟩⟩
  | .divideInteger => some ⟨.subtractedSizes ⟨0, 1⟩ 1, divisionV1⟩
  | .quotientInteger => some ⟨.subtractedSizes ⟨0, 1⟩ 1, divisionV1⟩
  | .remainderInteger => some ⟨.linearInY ⟨0, 1⟩, divisionV1⟩
  | .modInteger => some ⟨.linearInY ⟨0, 1⟩, divisionV1⟩
  | .equalsInteger => some ⟨.constant 1, .minSize ⟨208512, 421⟩⟩
  | .lessThanInteger => some ⟨.constant 1, .minSize ⟨208896, 511⟩⟩
  | .lessThanEqualsInteger => some ⟨.constant 1, .minSize ⟨204924, 473⟩⟩
  | .appendByteString => some ⟨.addedSizes ⟨0, 1⟩, .addedSizes ⟨1000, 571⟩⟩
  | .consByteString => some ⟨.addedSizes ⟨0, 1⟩, .linearInY ⟨221973, 511⟩⟩
  | .sliceByteString => some ⟨.linearInZ ⟨4, 0⟩, .linearInZ ⟨265318, 0⟩⟩
  | .lengthOfByteString => some ⟨.constant 10, .constant 1000⟩
  | .indexByteString => some ⟨.constant 4, .constant 57667⟩
  | .equalsByteString => some ⟨.constant 1, .linearOnDiagonal 245000 ⟨216773, 62⟩⟩
  | .lessThanByteString => some ⟨.constant 1, .minSize ⟨197145, 156⟩⟩
  | .lessThanEqualsByteString => some ⟨.constant 1, .minSize ⟨197145, 156⟩⟩
  | .sha256 => some ⟨.constant 4, .linearInX ⟨806990, 30482⟩⟩
  | .sha3 => some ⟨.constant 4, .linearInX ⟨1927926, 82523⟩⟩
  | .blake2b256 => some ⟨.constant 4, .linearInX ⟨117366, 10475⟩⟩
  | .verifyEd25519Signature => some ⟨.constant 10, .linearInY ⟨57996947, 18975⟩⟩
  | .appendString => some ⟨.addedSizes ⟨4, 1⟩, .addedSizes ⟨1000, 24177⟩⟩
  | .equalsString => some ⟨.constant 1, .linearOnDiagonal 187000 ⟨1000, 52998⟩⟩
  | .encodeUtf8 => some ⟨.linearInX ⟨4, 2⟩, .linearInX ⟨1000, 28662⟩⟩
  | .decodeUtf8 => some ⟨.linearInX ⟨4, 2⟩, .linearInX ⟨497525, 14068⟩⟩
  | .ifThenElse => some ⟨.constant 1, .constant 80556⟩
  | .chooseUnit => some ⟨.constant 4, .constant 46417⟩
  | .trace => some ⟨.constant 32, .constant 212342⟩
  | .fstPair => some ⟨.constant 32, .constant 80436⟩
  | .sndPair => some ⟨.constant 32, .constant 85931⟩
  | .chooseList => some ⟨.constant 32, .constant 175354⟩
  | .mkCons => some ⟨.constant 32, .constant 65493⟩
  | .headList => some ⟨.constant 32, .constant 43249⟩
  | .tailList => some ⟨.constant 32, .constant 41182⟩
  | .nullList => some ⟨.constant 32, .constant 60091⟩
  | .chooseData => some ⟨.constant 32, .constant 19537⟩
  | .constrData => some ⟨.constant 32, .constant 89141⟩
  | .mapData => some ⟨.constant 32, .constant 64832⟩
  | .listData => some ⟨.constant 32, .constant 52467⟩
  | .iData => some ⟨.constant 32, .constant 1000⟩
  | .bData => some ⟨.constant 32, .constant 1000⟩
  | .unConstrData => some ⟨.constant 32, .constant 32696⟩
  | .unMapData => some ⟨.constant 32, .constant 38314⟩
  | .unListData => some ⟨.constant 32, .constant 32247⟩
  | .unIData => some ⟨.constant 32, .constant 43357⟩
  | .unBData => some ⟨.constant 32, .constant 31220⟩
  | .equalsData => some ⟨.constant 1, .minSize ⟨1060367, 12586⟩⟩
  | .mkPairData => some ⟨.constant 32, .constant 76511⟩
  | .mkNilData => some ⟨.constant 32, .constant 22558⟩
  | .mkNilPairData => some ⟨.constant 32, .constant 16563⟩
  | .serialiseData => some ⟨.linearInX ⟨0, 2⟩, .linearInX ⟨1159724, 392670⟩⟩
  | .verifyEcdsaSecp256k1Signature => some ⟨.constant 10, .constant 35892428⟩
  | .verifySchnorrSecp256k1Signature => some ⟨.constant 10, .linearInY ⟨38887044, 32947⟩⟩
  | f => sharedCosts f

/-- The cost of starting the machine. -/
def defaultStartup : Budget := ⟨100, 100⟩

/-- The default cost model of a language. -/
def ofLanguage : Language → CostModel
  | .v1 => ⟨defaultStartup, .uniform ⟨100, 23000⟩, .ofFn costsV1⟩
  | .v2 => ⟨defaultStartup, .uniform ⟨100, 23000⟩, .ofFn costsV1⟩
  | .v3 => ⟨defaultStartup, .uniform ⟨100, 16000⟩, .ofFn costsV3⟩

/-- The shape of the costs of a builtin that has no calibrated ones; every parameter is zero. -/
def template? : Builtin → Option BuiltinCost
  | .insertCoin => some ⟨.linearInU ⟨0, 0⟩, .linearInU ⟨0, 0⟩⟩
  | .lookupCoin => some ⟨.constant 0, .linearInZ ⟨0, 0⟩⟩
  | .unionValue => some ⟨.addedSizes ⟨0, 0⟩, .addedSizes ⟨0, 0⟩⟩
  | .valueContains => some ⟨.constant 0, .addedSizes ⟨0, 0⟩⟩
  | .valueData => some ⟨.linearInX ⟨0, 0⟩, .linearInX ⟨0, 0⟩⟩
  | .unValueData => some ⟨.linearInX ⟨0, 0⟩, .linearInX ⟨0, 0⟩⟩
  | .scaleValue => some ⟨.linearInY ⟨0, 0⟩, .linearInY ⟨0, 0⟩⟩
  | _ => none

end CostModel

end PlutusCek
