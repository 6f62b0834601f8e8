import PlutusCek.Proofs.Bytewise
import PlutusCek.Proofs.Charging
import PlutusCek.Proofs.Conversion
import PlutusCek.Proofs.Powers
import PlutusCek.Proofs.Shifting
import PlutusCek.Proofs.Threshold
import PlutusCek.Proofs.Words

/-!
# Proofs.Allowance — the memory charged by default covers the result

Some builtins give results that grow with their operands (`Builtin.growing`).  By the default costs
of every language each of them is charged for as much memory as its result takes, or more
(`Machine.callBuiltin_allowance`).  One lemma for each family bounds the words of the result by
those of the operands; the shape of the default cost is above that bound.
-/

namespace PlutusCek

/-! ### Lines of sizes -/

/-- A size that is cut off is below a line of sizes that are cut off, if it is so without. -/
theorem Linear.le_eval {result n : Amount} {r k : Int} (hr : result.Caps r) (hn : n.Caps k)
    (intercept slope : Nat) (h : r ≤ intercept + slope * k) :
    result ≤ Linear.eval ⟨Amount.clamp intercept, Amount.clamp slope⟩ n :=
  hr.le ((Amount.caps_clamp intercept).add ((Amount.caps_clamp slope).mul hn)) h

namespace Size

/-- The words of as many characters. -/
def stringWords (length : Nat) : Nat := (length + 7) / 8

theorem caps_string (s : String) : (string s).Caps (stringWords s.length) := Amount.caps_clamp _

theorem bytesAsWords_zero : bytesAsWords 0 = 0 := rfl

/-- As many bytes as can be asked for are measured as they are. -/
theorem bytesAsWords_of_mem {n : Int} (hlower : 0 ≤ n) (hupper : n ≤ maxConversionBytes) :
    bytesAsWords n = Amount.clamp ((n.toNat + 7) / 8 : Nat) := by
  have hmax : (maxConversionBytes : Int) = 8192 := rfl
  have habs : n.natAbs = n.toNat := by omega
  unfold bytesAsWords
  rw [if_pos (by omega), habs]
  rfl

end Size

/-! ### Text -/

/-- Every character is encoded by a byte or more. -/
theorem length_le_flatMap_utf8 (cs : List Char) :
    cs.length ≤ (cs.flatMap String.utf8EncodeChar).length := by
  induction cs with
  | nil => exact Nat.le_refl 0
  | cons c cs ih =>
    have hc := c.utf8Size_pos
    rw [List.flatMap_cons, List.length_append, String.length_utf8EncodeChar, List.length_cons]
    omega

theorem length_le_of_decodeUtf8? {b : Bytes} {s : String} (h : decodeUtf8? b = some s) :
    s.length ≤ b.length := by
  simp only [decodeUtf8?, String.fromUTF8?] at h
  split at h
  · rename_i hvalid
    cases h
    have hle := length_le_flatMap_utf8 (String.fromUTF8 b.toByteArray hvalid).toList
    have hsize : ((String.fromUTF8 b.toByteArray hvalid).toList.flatMap
        String.utf8EncodeChar).length = b.length := by
      rw [← List.size_toByteArray, ← List.size_toByteArray]
      exact congrArg ByteArray.size String.utf8Encode_toList
    rwa [hsize, String.length_toList] at hle
  · cases h

/-! ### Bits -/

theorem Bits.length_write? {b w : Bytes} {j : Int} {v : Bool} (h : write? b j v = some w) :
    w.length = b.length := by
  obtain ⟨i, -, rfl⟩ := Option.map_eq_some_iff.1 h
  exact List.length_modify ..

namespace Call

theorem length_writeAll {fn : Builtin} {v : Bool} {b w : Bytes} {indices : List Constant}
    (h : writeAll fn v b indices = .ok w) : w.length = b.length := by
  fun_induction writeAll fn v b indices with
  | case1 b =>
    cases h
    rfl
  | case2 b index rest b' hwrite ih => rw [ih h, Bits.length_write? hwrite]
  | case3 b index rest hwrite => cases h
  | case4 b c rest hc => cases h

/-! ### Calls -/

/-- The memory that is charged for a prepared call covers what it gives. -/
def Covers (mem : CostFunction) (prepared : Except Failure Call) : Prop :=
  ∀ {call r}, prepared = .ok call → call.perform () = .ok r → r.value.size ≤ mem.cost call.size

variable {mem : CostFunction} {size : Nat → Amount}

theorem covers_error (f : Failure) : Covers mem (.error f) := fun h => by cases h

/-- What is read off an operand may be used. -/
theorem covers_bind {α : Type} {x : Except Failure α} {k : α → Except Failure Call}
    (h : ∀ a, x = .ok a → Covers mem (k a)) : Covers mem (x >>= k) := by
  cases x with
  | error f => exact covers_error f
  | ok a => exact h a rfl

theorem covers_total {result : Unit → Constant}
    (h : Size.constant (result ()) ≤ mem.cost size) : Covers mem (.ok (total size result)) := by
  intro call r hcall hr
  cases hcall
  cases hr
  exact h

theorem covers_guarded {fn : Builtin} {result : Unit → Except Refusal Constant}
    (h : ∀ c, result () = .ok c → Size.constant c ≤ mem.cost size) :
    Covers mem (.ok (guarded fn size result)) := by
  intro call r hcall hr
  cases hcall
  simp only [guarded] at hr
  split at hr
  · rename_i c hc
    cases hr
    exact h c hc
  · cases hr

theorem covers_checked {result : Unit → Except Failure Constant}
    (h : ∀ c, result () = .ok c → Size.constant c ≤ mem.cost size) :
    Covers mem (.ok (checked size result)) := by
  intro call r hcall hr
  cases hcall
  simp only [checked] at hr
  split at hr
  · rename_i c hc
    cases hr
    exact h c hc
  · cases hr

/-! ### Integers -/

theorem covers_arithmetic {op : Int → Int → Int}
    (h : ∀ x y, Size.integer (op x y) ≤ mem.cost (integerSizes x y)) (args : List Value) :
    Covers mem (arithmetic op args) := by
  unfold arithmetic
  split
  · refine covers_bind fun x _ => covers_bind fun y _ => covers_total ?_
    exact h x y
  · exact covers_error _

/-- A sum or difference takes one word more at most. -/
theorem covers_additive {op : Int → Int → Int}
    (hop : ∀ x y, (op x y).natAbs ≤ x.natAbs + y.natAbs) (args : List Value) :
    Covers (.maxSize ⟨1, 1⟩) (arithmetic op args) := by
  refine covers_arithmetic (fun x y => ?_) args
  have hwords := Size.integerWords_le_of_natAbs_le_add (hop x y)
  have hmax := (Size.caps_integer x).max (Size.caps_integer y)
  refine Linear.le_eval (Size.caps_integer _) hmax 1 1 ?_
  omega

theorem covers_multiply (args : List Value) :
    Covers (.addedSizes ⟨0, 1⟩) (arithmetic (· * ·) args) := by
  refine covers_arithmetic (fun x y => ?_) args
  have hwords := Size.integerWords_mul_le x y
  have hsum := (Size.caps_integer x).add (Size.caps_integer y)
  refine Linear.le_eval (Size.caps_integer _) hsum 0 1 ?_
  omega

theorem natAbs_tmod_le (x : Int) {y : Int} (hy : y ≠ 0) : (x.tmod y).natAbs ≤ y.natAbs := by
  rw [Int.natAbs_tmod]
  exact Nat.le_of_lt (Nat.mod_lt _ (Int.natAbs_pos.2 hy))

theorem natAbs_fmod_le (x : Int) {y : Int} (hy : y ≠ 0) : (x.fmod y).natAbs ≤ y.natAbs := by
  have hnonneg := Int.emod_nonneg x hy
  have hlt := Int.emod_lt x hy
  rw [Int.fmod_eq_emod]
  split <;> omega

/-- A remainder is no greater than the divisor. -/
theorem covers_remainder (fn : Builtin) {op : Int → Int → Int}
    (hop : ∀ x y, y ≠ 0 → (op x y).natAbs ≤ y.natAbs) (args : List Value) :
    Covers (.linearInY ⟨0, 1⟩) (division fn op args) := by
  unfold division
  split
  · refine covers_bind fun x _ => covers_bind fun y _ => ?_
    by_cases hzero : y = 0
    · simp only [if_pos hzero]
      exact covers_error _
    · simp only [if_neg hzero]
      have hwords := Size.integerWords_mono (hop x y hzero)
      refine covers_total ?_
      refine Linear.le_eval (Size.caps_integer _) (Size.caps_integer y) 0 1 ?_
      omega
  · exact covers_error _

/-- A power is smaller than the modulus. -/
theorem covers_expMod (fn : Builtin) (args : List Value) :
    Covers (.linearInZ ⟨0, 1⟩) (expMod fn args) := by
  unfold expMod
  split
  · refine covers_bind fun b _ => covers_bind fun e _ => covers_bind fun m _ => ?_
    refine covers_guarded fun c hc => ?_
    by_cases hundefined : Undefined b e m
    · obtain ⟨fault, hfault⟩ := modularPower_of_undefined hundefined
      simp only [hfault] at hc
      cases hc
    · obtain ⟨r, hr, hnonneg, hlt, -⟩ := modularPower_of_not_undefined hundefined
      simp only [hr] at hc
      cases hc
      have hwords : Size.integerWords r ≤ Size.integerWords m :=
        Size.integerWords_mono (by omega)
      refine Linear.le_eval (Size.caps_integer r) (Size.caps_integer m) 0 1 ?_
      omega
  · exact covers_error _

/-! ### Byte strings -/

theorem covers_appendBytes (args : List Value) :
    Covers (.addedSizes ⟨0, 1⟩) (appendBytes args) := by
  unfold appendBytes
  split
  · refine covers_bind fun x _ => covers_bind fun y _ => covers_total ?_
    have hsum := (Size.caps_bytes x).add (Size.caps_bytes y)
    refine Linear.le_eval (Size.caps_bytes _) hsum 0 1 ?_
    rw [List.length_append]
    unfold Size.byteWords
    omega
  · exact covers_error _

theorem covers_consByte (fn : Builtin) (semantics : Semantics) (args : List Value) :
    Covers (.addedSizes ⟨0, 1⟩) (consByte fn semantics args) := by
  unfold consByte
  split
  · refine covers_bind fun n _ => covers_bind fun x _ => covers_guarded fun c hc => ?_
    split at hc
    · cases hc
      have hpos := Size.integerWords_pos n
      have hsum := (Size.caps_integer n).add (Size.caps_bytes x)
      refine Linear.le_eval (Size.caps_bytes _) hsum 0 1 ?_
      rw [List.length_cons]
      unfold Size.byteWords
      omega
    · cases hc
  · exact covers_error _

/-- A logical operation gives as many bytes as the longer or the shorter operand has. -/
theorem covers_logicalBytes (op : UInt8 → UInt8 → UInt8) (args : List Value) :
    Covers (.linearInMaxYZ ⟨0, 1⟩) (logicalBytes op args) := by
  unfold logicalBytes
  split
  · refine covers_bind fun pad _ => covers_bind fun x _ => covers_bind fun y _ => covers_total ?_
    have hlength : (Bits.logical op pad x y).length ≤ max x.length y.length := by
      rw [Bits.length_logical]
      split <;> omega
    have hmax := (Size.caps_bytes x).max (Size.caps_bytes y)
    refine Linear.le_eval (Size.caps_bytes _) hmax 0 1 ?_
    unfold Size.byteWords
    omega
  · exact covers_error _

/-- What is as long as an operand takes as many words. -/
theorem le_linearInX_of_length {b x : Bytes} {size : Nat → Amount} (hsize : size 0 = Size.bytes x)
    (h : b.length = x.length) :
    Size.constant (.bytes b) ≤ CostFunction.cost size (.linearInX ⟨0, 1⟩) := by
  rw [CostFunction.cost, hsize]
  refine Linear.le_eval (Size.caps_bytes b) (Size.caps_bytes x) 0 1 ?_
  rw [h]
  omega

theorem covers_complementBytes (args : List Value) :
    Covers (.linearInX ⟨0, 1⟩) (complementBytes args) := by
  unfold complementBytes
  split
  · refine covers_bind fun x _ => covers_total ?_
    exact le_linearInX_of_length rfl (List.length_map _)
  · exact covers_error _

theorem covers_writeBits (fn : Builtin) (args : List Value) :
    Covers (.linearInX ⟨0, 1⟩) (writeBits fn args) := by
  unfold writeBits
  split
  · refine covers_bind fun x _ => covers_bind fun indices _ => covers_bind fun v _ => ?_
    refine covers_checked fun c hc => ?_
    cases hwritten : writeAll fn v x indices with
    | error f =>
      rw [hwritten] at hc
      cases hc
    | ok b =>
      rw [hwritten] at hc
      cases hc
      exact le_linearInX_of_length rfl (length_writeAll hwritten)
  · exact covers_error _

theorem covers_moveBits {op : Bytes → Int → Bytes} (hop : ∀ b k, (op b k).length = b.length)
    (args : List Value) : Covers (.linearInX ⟨0, 1⟩) (moveBits op args) := by
  unfold moveBits
  split
  · refine covers_bind fun x _ => covers_bind fun k _ => covers_total ?_
    exact le_linearInX_of_length rfl (hop x k)
  · exact covers_error _

/-- A repetition of bytes is charged for by their number, and none of them for a word. -/
theorem covers_replicateBytes (fn : Builtin) (args : List Value) :
    Covers (.linearInX ⟨1, 1⟩) (replicateBytes fn args) := by
  unfold replicateBytes
  split
  · refine covers_bind fun n _ => covers_bind fun byte _ => covers_guarded fun c hc => ?_
    by_cases hrange : n < 0 ∨ (maxConversionBytes : Int) < n
    · simp only [replicateByte, if_pos hrange] at hc
      cases hc
    · have hwords := Size.bytesAsWords_of_mem (n := n) (by omega) (by omega)
      simp only [replicateByte, if_neg hrange] at hc
      split at hc
      · rename_i x _
        cases hc
        simp only [CostFunction.cost, sizes, CostFunction.sizesOf, List.getD_cons_zero, hwords]
        refine Linear.le_eval (Size.caps_bytes _) (Amount.caps_clamp _) 1 1 ?_
        rw [List.length_replicate]
        unfold Size.byteWords
        omega
      · cases hc
  · exact covers_error _

/-! ### Conversions -/

/-- The fewest bytes of an integer are no more than those of its words. -/
theorem length_le_integerWords {bigEndian : Bool} {n : Int} {b : Bytes}
    (h : Encodes bigEndian 0 n b) : b.length ≤ 8 * Size.integerWords n := by
  refine (h.isLeast_length rfl).2 ?_
  have hlt := Size.natAbs_lt_integerWords n
  have hbytes : 2 ^ (64 * Size.integerWords n) = 256 ^ (8 * Size.integerWords n) := by
    rw [show (256 : Nat) = 2 ^ 8 from rfl, ← Nat.pow_mul, ← Nat.mul_assoc]
  rw [hbytes] at hlt
  have hcast : (n.natAbs : Int) < 256 ^ (8 * Size.integerWords n) := by exact_mod_cast hlt
  exact Int.lt_of_le_of_lt Int.le_natAbs hcast

/-- A width that is asked for is charged for as it is, and otherwise the words of the integer. -/
theorem covers_integerToBytes (fn : Builtin) (args : List Value) :
    Covers (.literalInYOrLinearInZ ⟨0, 1⟩) (integerToBytes fn args) := by
  unfold integerToBytes
  split
  · refine covers_bind fun e _ => covers_bind fun width _ => covers_bind fun n _ => ?_
    refine covers_guarded fun c hc => ?_
    cases hb : bytesOfInteger e width n with
    | error why =>
      rw [hb] at hc
      cases hc
    | ok b =>
      rw [hb] at hc
      cases hc
      have hencodes := (answers_bytesOfInteger e width n b).2 hb
      obtain ⟨hlower, hupper, -, -⟩ := ((encodes_iff e width n b).1 hencodes).1
      simp only [CostFunction.cost, sizes, CostFunction.sizesOf, List.getD_cons_succ,
        List.getD_cons_zero]
      by_cases hzero : width = 0
      · subst hzero
        rw [if_pos Size.bytesAsWords_zero]
        have hlength := length_le_integerWords hencodes
        have hpos := Size.integerWords_pos n
        refine Linear.le_eval (Size.caps_bytes b) (Size.caps_integer n) 0 1 ?_
        unfold Size.byteWords
        omega
      · have hlength := hencodes.length_eq_width (by omega)
        have hwords : (width.toNat + 7) / 8 = Size.byteWords b.length := by
          unfold Size.byteWords
          omega
        rw [Size.bytesAsWords_of_mem hlower hupper, hwords,
          if_neg (Amount.clamp_ne_zero (Size.byteWords_pos _))]
        exact (Size.caps_bytes b).le (Amount.caps_clamp _) (Int.le_refl _)
  · exact covers_error _

/-- The number that bytes stand for is below the bound that their words set. -/
theorem covers_bytesToInteger (args : List Value) :
    Covers (.linearInY ⟨0, 1⟩) (bytesToInteger args) := by
  unfold bytesToInteger
  split
  · refine covers_bind fun e _ => covers_bind fun x _ => covers_total ?_
    have hwords : Size.integerWords (integerOfBytes e x) ≤ Size.byteWords x.length := by
      have hlt := Bytes.toNatLE_lt (Bytes.reorder e x)
      rw [Bytes.length_reorder] at hlt
      rw [Size.integerWords_le_iff _ (Size.byteWords_pos x.length), integerOfBytes_eq,
        Int.natAbs_natCast]
      exact Nat.lt_of_lt_of_le hlt (Size.pow_le_pow_byteWords x.length)
    refine Linear.le_eval (Size.caps_integer _) (Size.caps_bytes x) 0 1 ?_
    omega
  · exact covers_error _

/-! ### Strings and arrays -/

theorem covers_appendString (args : List Value) :
    Covers (.addedSizes ⟨4, 1⟩) (appendString args) := by
  unfold appendString
  split
  · refine covers_bind fun x _ => covers_bind fun y _ => covers_total ?_
    have hsum := (Size.caps_string x).add (Size.caps_string y)
    refine Linear.le_eval (Size.caps_string _) hsum 4 1 ?_
    rw [String.length_append]
    unfold Size.stringWords
    omega
  · exact covers_error _

/-- A string has no more characters than its encoding has bytes. -/
theorem covers_decodeString (fn : Builtin) (args : List Value) :
    Covers (.linearInX ⟨4, 2⟩) (decodeString fn args) := by
  unfold decodeString
  split
  · refine covers_bind fun x _ => covers_guarded fun c hc => ?_
    split at hc
    · rename_i s hs
      cases hc
      have hlength := length_le_of_decodeUtf8? hs
      refine Linear.le_eval (Size.caps_string s) (Size.caps_bytes x) 4 2 ?_
      unfold Size.stringWords Size.byteWords
      omega
    · cases hc
  · exact covers_error _

theorem covers_listToArray (args : List Value) :
    Covers (.linearInX ⟨7, 1⟩) (listToArray args) := by
  unfold listToArray
  split
  · refine covers_bind fun items _ => covers_total ?_
    refine Linear.le_eval (Amount.caps_clamp _) (Amount.caps_clamp _) 7 1 ?_
    omega
  · exact covers_error _

end Call

/-! ### The table -/

namespace Builtin

/-- The builtins whose results grow with their operands. -/
def growing : List Builtin :=
  [.addInteger, .subtractInteger, .multiplyInteger, .remainderInteger, .modInteger, .expModInteger,
    .appendByteString, .consByteString, .appendString, .decodeUtf8, .integerToByteString,
    .byteStringToInteger, .andByteString, .orByteString, .xorByteString, .complementByteString,
    .writeBits, .replicateByte, .shiftByteString, .rotateByteString, .listToArray]

/-- The memory that every language charges for these by default. -/
def allowance? : Builtin → Option CostFunction
  | .addInteger => some (.maxSize ⟨1, 1⟩)
  | .subtractInteger => some (.maxSize ⟨1, 1⟩)
  | .multiplyInteger => some (.addedSizes ⟨0, 1⟩)
  | .remainderInteger => some (.linearInY ⟨0, 1⟩)
  | .modInteger => some (.linearInY ⟨0, 1⟩)
  | .expModInteger => some (.linearInZ ⟨0, 1⟩)
  | .appendByteString => some (.addedSizes ⟨0, 1⟩)
  | .consByteString => some (.addedSizes ⟨0, 1⟩)
  | .appendString => some (.addedSizes ⟨4, 1⟩)
  | .decodeUtf8 => some (.linearInX ⟨4, 2⟩)
  | .integerToByteString => some (.literalInYOrLinearInZ ⟨0, 1⟩)
  | .byteStringToInteger => some (.linearInY ⟨0, 1⟩)
  | .andByteString => some (.linearInMaxYZ ⟨0, 1⟩)
  | .orByteString => some (.linearInMaxYZ ⟨0, 1⟩)
  | .xorByteString => some (.linearInMaxYZ ⟨0, 1⟩)
  | .complementByteString => some (.linearInX ⟨0, 1⟩)
  | .writeBits => some (.linearInX ⟨0, 1⟩)
  | .replicateByte => some (.linearInX ⟨1, 1⟩)
  | .shiftByteString => some (.linearInX ⟨0, 1⟩)
  | .rotateByteString => some (.linearInX ⟨0, 1⟩)
  | .listToArray => some (.linearInX ⟨7, 1⟩)
  | _ => none

theorem isSome_allowance? : ∀ fn ∈ growing, fn.allowance?.isSome = true := by decide

variable {fn : Builtin} {mem : CostFunction}

/-- The allowance is above the size of what the builtin gives. -/
theorem covers_prepare (h : fn.allowance? = some mem) (semantics : Semantics) (args : List Value) :
    Call.Covers mem (fn.prepare semantics args) := by
  cases fn with
  | addInteger =>
    cases h
    exact Call.covers_additive Int.natAbs_add_le args
  | subtractInteger =>
    cases h
    exact Call.covers_additive (fun x y => by omega) args
  | multiplyInteger =>
    cases h
    exact Call.covers_multiply args
  | remainderInteger =>
    cases h
    exact Call.covers_remainder _ (fun x _ hy => Call.natAbs_tmod_le x hy) args
  | modInteger =>
    cases h
    exact Call.covers_remainder _ (fun x _ hy => Call.natAbs_fmod_le x hy) args
  | expModInteger =>
    cases h
    exact Call.covers_expMod _ args
  | appendByteString =>
    cases h
    exact Call.covers_appendBytes args
  | consByteString =>
    cases h
    exact Call.covers_consByte _ semantics args
  | appendString =>
    cases h
    exact Call.covers_appendString args
  | decodeUtf8 =>
    cases h
    exact Call.covers_decodeString _ args
  | integerToByteString =>
    cases h
    exact Call.covers_integerToBytes _ args
  | byteStringToInteger =>
    cases h
    exact Call.covers_bytesToInteger args
  | andByteString | orByteString | xorByteString =>
    cases h
    exact Call.covers_logicalBytes _ args
  | complementByteString =>
    cases h
    exact Call.covers_complementBytes args
  | writeBits =>
    cases h
    exact Call.covers_writeBits _ args
  | replicateByte =>
    cases h
    exact Call.covers_replicateBytes _ args
  | shiftByteString =>
    cases h
    exact Call.covers_moveBits Bits.length_shift args
  | rotateByteString =>
    cases h
    exact Call.covers_moveBits Bits.length_rotate args
  | listToArray =>
    cases h
    exact Call.covers_listToArray args
  | _ => cases h

theorem costsV1_of_allowance (h : fn.allowance? = some mem) :
    ∃ cpu, CostModel.costsV1 fn = some ⟨mem, cpu⟩ := by
  cases fn <;> cases h <;> exact ⟨_, rfl⟩

theorem costsV3_of_allowance (h : fn.allowance? = some mem) :
    ∃ cpu, CostModel.costsV3 fn = some ⟨mem, cpu⟩ := by
  cases fn <;> cases h <;> exact ⟨_, rfl⟩

/-- The allowance is what the default costs have for the memory, whatever the language. -/
theorem builtinCost?_of_allowance (h : fn.allowance? = some mem) (l : Language) :
    ∃ cpu, (CostModel.ofLanguage l).builtinCost? fn = some ⟨mem, cpu⟩ := by
  cases l with
  | v1 | v2 =>
    simpa only [CostModel.ofLanguage, CostModel.builtinCost?, BuiltinTable.get_ofFn] using
      costsV1_of_allowance h
  | v3 =>
    simpa only [CostModel.ofLanguage, CostModel.builtinCost?, BuiltinTable.get_ofFn] using
      costsV3_of_allowance h

end Builtin

/-! ### The charge -/

theorem Account.remaining_note (a : Account) (message : Option String) :
    (a.note message).remaining = a.remaining := by
  cases message <;> rfl

/-- What is deducted leaves the account by as much, if anything is left. -/
theorem Account.spent_of_spend {a b : Account} {cost : Budget} (h : a.spend cost = .ok b)
    (r : Resource) (hcost : 0 ≤ cost.units r) : a.spent b r = cost.units r := by
  obtain ⟨rfl, hleft⟩ := spend_ok h
  have hnonneg := Budget.not_isExhausted_iff.1 hleft r
  have hgreatest := a.remaining.units_le_greatest r
  rw [Account.spent, Budget.units_sub]
  rw [Budget.units_sub] at hnonneg
  unfold Amount.least Amount.greatest at *
  omega

namespace Machine

/-- A call that succeeds has been prepared, paid for and performed. -/
theorem callBuiltin_ok {m : Machine} {fn : Builtin} {entry : BuiltinCost}
    (hentry : m.costs.builtinCost? fn = some entry) {args : List Value} {v : Value} {a b : Account}
    (h : m.callBuiltin fn args a = .ok (v, b)) :
    ∃ call paid message, fn.prepare m.semantics args = .ok call ∧
      a.spend (entry.cost (CostFunction.sizesOf (fn.operandSizes args))) = .ok paid ∧
      call.perform () = .ok ⟨v, message⟩ ∧ b = paid.note message := by
  cases hprep : fn.prepare m.semantics args with
  | error f =>
    simp only [callBuiltin, hprep] at h
    cases h
  | ok call =>
    rw [m.callBuiltin_of_prepare hprep hentry] at h
    split at h
    · cases h
    · rename_i paid hspend
      split at h
      · cases h
      · rename_i reply hperform
        cases h
        exact ⟨call, paid, reply.message, rfl, hspend, hperform, rfl⟩

/-- **The memory charged by default covers the result.**  Take any of the builtins whose results
grow, under the default costs of any language, and a successful call of it on any operands.  The
memory that its cost function gives for the sizes of the operands is what the account has lost, and
it is no less than the size of the result. -/
theorem callBuiltin_allowance (m : Machine) {l : Language} (hcosts : m.costs = .ofLanguage l)
    {fn : Builtin} (hfn : fn ∈ Builtin.growing) {args : List Value} {v : Value} {a b : Account}
    (h : m.callBuiltin fn args a = .ok (v, b)) :
    ∃ entry, m.costs.builtinCost? fn = some entry ∧
      let charged := entry.mem.cost (CostFunction.sizesOf (fn.operandSizes args))
      v.size ≤ charged ∧ a.spent b .mem = charged.toInt := by
  obtain ⟨mem, hmem⟩ := Option.isSome_iff_exists.1 (Builtin.isSome_allowance? fn hfn)
  obtain ⟨cpu, hentry⟩ := Builtin.builtinCost?_of_allowance hmem l
  rw [← hcosts] at hentry
  obtain ⟨call, paid, message, hprep, hspend, hperform, rfl⟩ := callBuiltin_ok hentry h
  have hcovers : v.size ≤ mem.cost call.size :=
    Builtin.covers_prepare hmem m.semantics args hprep hperform
  rw [(Builtin.bill_of_ok hprep).size] at hcovers
  have hnonneg := Int.le_trans (Value.size_nonneg v) (Amount.le_iff.1 hcovers)
  refine ⟨⟨mem, cpu⟩, hentry, hcovers, ?_⟩
  rw [Account.spent, Account.remaining_note]
  exact Account.spent_of_spend hspend .mem hnonneg

/-- The greatest integer of one word, and one. -/
def carrying : List Value := [.con (.integer 18446744073709551615), .con (.integer 1)]

/-- The carry takes a second word, for which the sum has been charged. -/
theorem callBuiltin_allowance_carry : ∃ b : Account,
    (ofLanguage .v3).costs = .ofLanguage .v3 ∧ Builtin.addInteger ∈ Builtin.growing ∧
    (ofLanguage .v3).callBuiltin .addInteger carrying (.ofBudget ⟨10, 200000⟩) =
      .ok (.con (.integer 18446744073709551616), b) ∧
    (Value.con (.integer 18446744073709551616)).size = 2 ∧
    2 ≤ (Account.ofBudget ⟨10, 200000⟩).spent b .mem := by
  have hsize : (Value.con (.integer 18446744073709551616)).size = 2 := by decide
  have hgrows : Builtin.addInteger ∈ Builtin.growing := by decide
  obtain ⟨b, hb⟩ : ∃ b, (ofLanguage .v3).callBuiltin .addInteger carrying
      (.ofBudget ⟨10, 200000⟩) = .ok (.con (.integer 18446744073709551616), b) := ⟨_, rfl⟩
  obtain ⟨entry, -, hcovers, hspent⟩ :=
    (ofLanguage .v3).callBuiltin_allowance (l := .v3) rfl hgrows hb
  refine ⟨b, rfl, hgrows, hb, hsize, ?_⟩
  rw [hspent]
  rw [hsize] at hcovers
  exact Amount.le_iff.1 hcovers

end Machine

end PlutusCek
