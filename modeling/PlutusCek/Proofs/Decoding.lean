import PlutusCek.Data.Cbor
import PlutusCek.Proofs.Digits

/-!
# Proofs.Decoding — the encoding of data can be read back

A decoder for the items that stand for data.  A head may have an argument of any length; a byte
string is of one piece or of pieces up to a closing mark, an integer is a number or a tagged byte
string, a list is empty or goes up to a closing mark, a map says how many entries follow, and a tag
before a list makes it a constructor.  It reads every encoding back, whatever comes after it
(`readItem_encode`), so no encoding is the beginning of another one (`decode_encode_append`).
-/

namespace PlutusCek

namespace Data

/-- Induction over data, with the hypothesis for every immediate part. -/
@[elab_as_elim]
theorem ind {P : Data → Prop}
    (constr : ∀ tag fields, (∀ d ∈ fields, P d) → P (.constr tag fields))
    (map : ∀ entries, (∀ e ∈ entries, P e.1 ∧ P e.2) → P (.map entries))
    (list : ∀ items, (∀ d ∈ items, P d) → P (.list items)) (integer : ∀ n, P (.integer n))
    (bytes : ∀ b, P (.bytes b)) (d : Data) : P d := by
  refine @Data.rec P (fun ds => ∀ d ∈ ds, P d) (fun es => ∀ e ∈ es, P e.1 ∧ P e.2)
    (fun e => P e.1 ∧ P e.2) constr map list integer bytes ?_ ?_ ?_ ?_ ?_ d
  · intro d hd
    cases hd
  · intro head tail hhead htail
    exact List.forall_mem_cons.2 ⟨hhead, htail⟩
  · intro e he
    cases he
  · intro head tail hhead htail
    exact List.forall_mem_cons.2 ⟨hhead, htail⟩
  · intro k v hk hv
    exact ⟨hk, hv⟩

mutual

/-- Every map in the data has fewer than `2 ^ 64` entries, so its length fits in a head. -/
def fits : Data → Bool
  | .constr _ fields => fitsAll fields
  | .map entries => decide (entries.length < 0x10000000000000000) && fitsEntries entries
  | .list items => fitsAll items
  | .integer _ => true
  | .bytes _ => true

/-- Every map in each of the data fits. -/
def fitsAll : List Data → Bool
  | [] => true
  | d :: ds => fits d && fitsAll ds

/-- Every map in the keys and values fits. -/
def fitsEntries : List (Data × Data) → Bool
  | [] => true
  | (k, v) :: es => (fits k && fits v) && fitsEntries es

end

theorem fitsAll_iff {ds : List Data} : fitsAll ds = true ↔ ∀ d ∈ ds, d.fits = true := by
  induction ds with
  | nil => simp [fitsAll]
  | cons d ds ih => simp [fitsAll, ih]

theorem fitsEntries_iff {es : List (Data × Data)} :
    fitsEntries es = true ↔ ∀ e ∈ es, e.1.fits = true ∧ e.2.fits = true := by
  induction es with
  | nil => simp [fitsEntries]
  | cons e es ih => simp [fitsEntries, ih]

end Data

namespace Cbor

/-! ### The decoder -/

/-- The head of an item: its major type, and its argument unless its length is left open. -/
structure Head where
  major : Nat
  argument : Option Nat

/-- Takes `k` bytes, if there are as many. -/
def readBlock (k : Nat) (b : Bytes) : Option (Bytes × Bytes) :=
  if k ≤ b.length then some (b.take k, b.drop k) else none

/-- Reads a head.  The low five bits of the first byte are the argument, or say by how many bytes
it follows, or leave it open. -/
def readHead : Bytes → Option (Head × Bytes)
  | [] => none
  | x :: rest =>
    let major := x.toNat / 32
    let info := x.toNat % 32
    if info < 24 then some (⟨major, some info⟩, rest)
    else if info < 28 then do
      let (digits, rest) ← readBlock (2 ^ (info - 24)) rest
      return (⟨major, some digits.toNatBE⟩, rest)
    else if info = 31 then some (⟨major, none⟩, rest)
    else none

/-- Reads pieces of a byte string up to the closing mark. -/
def readPieces : Nat → Bytes → Option (Bytes × Bytes)
  | 0, _ => none
  | n + 1, b =>
    match readHead b with
    | some (⟨7, none⟩, rest) => some ([], rest)
    | some (⟨2, some k⟩, rest) => do
      let (piece, rest) ← readBlock k rest
      let (more, rest) ← readPieces n rest
      return (piece ++ more, rest)
    | _ => none

/-- Reads a byte string after its head. -/
def readString (h : Head) (b : Bytes) : Option (Bytes × Bytes) :=
  match h with
  | ⟨2, some k⟩ => readBlock k b
  | ⟨2, none⟩ => readPieces b.length b
  | _ => none

/-- Reads a number given by its digits. -/
def readDigits (b : Bytes) : Option (Nat × Bytes) := do
  let (h, rest) ← readHead b
  let (digits, rest) ← readString h rest
  return (digits.toNatBE, rest)

/-- Reads an integer after its head. -/
def readInteger (h : Head) (b : Bytes) : Option (Int × Bytes) :=
  match h with
  | ⟨0, some n⟩ => some (.ofNat n, b)
  | ⟨1, some n⟩ => some (.negSucc n, b)
  | ⟨6, some 2⟩ => (readDigits b).map fun (n, rest) => (.ofNat n, rest)
  | ⟨6, some 3⟩ => (readDigits b).map fun (n, rest) => (.negSucc n, rest)
  | _ => none

/-- The constructor a tag stands for. -/
def constrOf? (t : Nat) : Option Int :=
  if 121 ≤ t ∧ t ≤ 127 then some (t - 121)
  else if 1280 ≤ t ∧ t ≤ 1400 then some (t - 1280 + 7)
  else none

section Parts

variable (item : Bytes → Option (Data × Bytes))

/-- Reads items up to the closing mark. -/
def readItems : Nat → Bytes → Option (List Data × Bytes)
  | 0, _ => none
  | n + 1, b =>
    match readHead b with
    | some (⟨7, none⟩, rest) => some ([], rest)
    | _ => do
      let (d, rest) ← item b
      let (ds, rest) ← readItems n rest
      return (d :: ds, rest)

/-- Reads a list after its head. -/
def readList (h : Head) (b : Bytes) : Option (List Data × Bytes) :=
  match h with
  | ⟨4, some 0⟩ => some ([], b)
  | ⟨4, none⟩ => readItems item b.length b
  | _ => none

/-- Reads a list with its head. -/
def readFields (b : Bytes) : Option (List Data × Bytes) := do
  let (h, rest) ← readHead b
  readList item h rest

/-- Reads so many entries of a map. -/
def readEntries : Nat → Bytes → Option (List (Data × Data) × Bytes)
  | 0, b => some ([], b)
  | n + 1, b => do
    let (k, rest) ← item b
    let (v, rest) ← item rest
    let (es, rest) ← readEntries n rest
    return ((k, v) :: es, rest)

/-- Reads a constructor without a tag of its own: a pair of the constructor and its fields. -/
def readWrapped (b : Bytes) : Option (Data × Bytes) :=
  match readHead b with
  | some (⟨4, some 2⟩, rest) => do
    let (h, rest) ← readHead rest
    let (tag, rest) ← readInteger h rest
    let (fields, rest) ← readFields item rest
    if 0 ≤ tag ∧ tag < 128 then none else return (.constr tag fields, rest)
  | _ => none

/-- Reads what follows the head of an item. -/
def readBody (h : Head) (b : Bytes) : Option (Data × Bytes) :=
  match h with
  | ⟨0, _⟩ => (readInteger h b).map fun (n, rest) => (.integer n, rest)
  | ⟨1, _⟩ => (readInteger h b).map fun (n, rest) => (.integer n, rest)
  | ⟨2, _⟩ => (readString h b).map fun (x, rest) => (.bytes x, rest)
  | ⟨4, _⟩ => (readList item h b).map fun (ds, rest) => (.list ds, rest)
  | ⟨5, some n⟩ => (readEntries item n b).map fun (es, rest) => (.map es, rest)
  | ⟨6, some 2⟩ => (readInteger h b).map fun (n, rest) => (.integer n, rest)
  | ⟨6, some 3⟩ => (readInteger h b).map fun (n, rest) => (.integer n, rest)
  | ⟨6, some 102⟩ => readWrapped item b
  | ⟨6, some t⟩ => do
    let tag ← constrOf? t
    let (fields, rest) ← readFields item b
    return (.constr tag fields, rest)
  | _ => none

end Parts

/-- Reads an item whose parts are nested at most so deep. -/
def readItem : Nat → Bytes → Option (Data × Bytes)
  | 0, _ => none
  | depth + 1, b => do
    let (h, rest) ← readHead b
    readBody (readItem depth) h rest

/-- Reads data off the front of a byte string.  Every item takes at least one byte, so the length
bounds the depth. -/
def decode (b : Bytes) : Option (Data × Bytes) := readItem b.length b

-- pieces and heads that are not the ones the encoder writes are read as well
example : decode [0x5f, 0x41, 1, 0x58, 2, 2, 3, 0xff, 0x80] = some (.bytes [1, 2, 3], [0x80]) := rfl

/-! ### Heads -/

theorem readBlock_append (x rest : Bytes) : readBlock x.length (x ++ rest) = some (x, rest) := by
  have hlen : x.length ≤ (x ++ rest).length := by
    rw [List.length_append]
    omega
  rw [readBlock, if_pos hlen, List.take_left, List.drop_left]

/-- The two parts of the first byte of a head. -/
theorem toNat_first {major info : Nat} (hmajor : major < 8) (hinfo : info < 32) :
    (UInt8.ofNat (32 * major + info)).toNat / 32 = major ∧
      (UInt8.ofNat (32 * major + info)).toNat % 32 = info := by
  have hbyte : (UInt8.ofNat (32 * major + info)).toNat = 32 * major + info := by
    rw [UInt8.toNat_ofNat']
    omega
  omega

/-- A head whose argument follows in `2 ^ i` bytes. -/
theorem readHead_digits {major i n : Nat} (hmajor : major < 8) (hi : i < 4)
    (hn : n < 256 ^ 2 ^ i) (rest : Bytes) :
    readHead (UInt8.ofNat (32 * major + (24 + i)) :: Bytes.digitsBE (2 ^ i) n ++ rest) =
      some (⟨major, some n⟩, rest) := by
  obtain ⟨hdiv, hmod⟩ := toNat_first hmajor (show 24 + i < 32 by omega)
  have hblock := readBlock_append (Bytes.digitsBE (2 ^ i) n) rest
  rw [Bytes.length_digitsBE] at hblock
  have hsub : 24 + i - 24 = i := by omega
  rw [List.cons_append]
  simp only [readHead, hdiv, hmod, hsub]
  rw [if_neg (by omega), if_pos (by omega), hblock]
  simp only [Option.bind_eq_bind, Option.bind_some, Bytes.toNatBE_digitsBE hn]
  rfl

theorem readHead_head {major n : Nat} (hmajor : major < 8) (hn : n < 0x10000000000000000)
    (rest : Bytes) : readHead (head major n ++ rest) = some (⟨major, some n⟩, rest) := by
  unfold head
  dsimp only
  by_cases h₀ : n < 24
  · obtain ⟨hdiv, hmod⟩ := toNat_first hmajor (show n < 32 by omega)
    rw [if_pos h₀, List.cons_append, List.nil_append]
    simp only [readHead, hdiv, hmod]
    rw [if_pos h₀]
  rw [if_neg h₀]
  by_cases h₁ : n < 0x100
  · rw [if_pos h₁]
    exact readHead_digits (i := 0) hmajor (by decide) h₁ rest
  rw [if_neg h₁]
  by_cases h₂ : n < 0x10000
  · rw [if_pos h₂]
    exact readHead_digits (i := 1) hmajor (by decide) h₂ rest
  rw [if_neg h₂]
  by_cases h₃ : n < 0x100000000
  · rw [if_pos h₃]
    exact readHead_digits (i := 2) hmajor (by decide) h₃ rest
  · rw [if_neg h₃]
    exact readHead_digits (i := 3) hmajor (by decide) hn rest

theorem head_ne_nil (major n : Nat) : head major n ≠ [] := by
  unfold head
  dsimp only
  repeat' split
  all_goals exact List.cons_ne_nil _ _

/-! ### Byte strings and integers -/

/-- The pieces of a byte string between its marks. -/
theorem readPieces_flatMap {pieces : List Bytes} (hpieces : ∀ c ∈ pieces, c.length ≤ chunkSize)
    {n : Nat} (hn : pieces.length < n) (rest : Bytes) :
    readPieces n (pieces.flatMap (fun c => head 2 c.length ++ c) ++ 0xff :: rest) =
      some (pieces.flatten, rest) := by
  induction pieces generalizing n with
  | nil =>
    obtain ⟨n, rfl⟩ : ∃ k, n = k + 1 := ⟨n - 1, by omega⟩
    rfl
  | cons c pieces ih =>
    obtain ⟨n, rfl⟩ : ∃ k, n = k + 1 := ⟨n - 1, by omega⟩
    obtain ⟨hc, hmore⟩ := List.forall_mem_cons.1 hpieces
    have hlen : c.length < 0x10000000000000000 := Nat.lt_of_le_of_lt hc (by decide)
    have hrest := ih hmore (Nat.lt_of_succ_lt_succ hn)
    rw [List.flatMap_cons, List.append_assoc, List.append_assoc]
    simp only [readPieces, readHead_head (show 2 < 8 by decide) hlen, readBlock_append, hrest,
      Option.bind_eq_bind, Option.bind_some, List.flatten_cons]
    rfl

theorem length_le_flatMap_head (pieces : List Bytes) :
    pieces.length ≤ (pieces.flatMap fun c => head 2 c.length ++ c).length := by
  induction pieces with
  | nil => exact Nat.le_refl 0
  | cons c pieces ih =>
    have hpos : 0 < (head 2 c.length).length := List.length_pos_iff.2 (head_ne_nil 2 c.length)
    rw [List.flatMap_cons, List.length_append, List.length_append, List.length_cons]
    omega

/-- A byte string is read after its head. -/
theorem readHead_bytes (b rest : Bytes) :
    ∃ k r, readHead (bytes b ++ rest) = some (⟨2, k⟩, r) ∧
      readString ⟨2, k⟩ r = some (b, rest) := by
  unfold bytes
  by_cases hb : b.length ≤ chunkSize
  · have hlen : b.length < 0x10000000000000000 := Nat.lt_of_le_of_lt hb (by decide)
    refine ⟨some b.length, b ++ rest, ?_, readBlock_append b rest⟩
    rw [if_pos hb, List.append_assoc]
    exact readHead_head (by decide) hlen _
  · let pieces := b.chunks chunkSize
    refine ⟨none, pieces.flatMap (fun c => head 2 c.length ++ c) ++ 0xff :: rest, ?_, ?_⟩
    · rw [if_neg hb, List.append_assoc]
      rfl
    · have hsmall : ∀ c ∈ pieces, c.length ≤ chunkSize :=
        fun c hc => Bytes.length_le_of_mem_chunks hc
      have hcount := length_le_flatMap_head pieces
      have hflat : pieces.flatten = b := Bytes.flatten_chunks (by decide) b
      simp only [readString]
      rw [readPieces_flatMap hsmall, hflat]
      rw [List.length_append, List.length_cons]
      omega

theorem readDigits_bytes (n : Nat) (rest : Bytes) :
    readDigits (bytes (Bytes.ofNatBE n) ++ rest) = some (n, rest) := by
  obtain ⟨k, r, hhead, hstring⟩ := readHead_bytes (Bytes.ofNatBE n) rest
  simp only [readDigits, hhead, hstring, Option.bind_eq_bind, Option.bind_some,
    Bytes.toNatBE_ofNatBE]
  rfl

/-- An integer is read after its head. -/
theorem readHead_integer (n : Int) (rest : Bytes) :
    ∃ h r, readHead (integer n ++ rest) = some (h, r) ∧ readInteger h r = some (n, rest) := by
  cases n with
  | ofNat k =>
    simp only [integer]
    by_cases hk : k < 0x10000000000000000
    · rw [if_pos hk]
      exact ⟨_, _, readHead_head (by decide) hk rest, rfl⟩
    · rw [if_neg hk, List.append_assoc]
      refine ⟨_, _, readHead_head (by decide) (by decide) _, ?_⟩
      simp only [readInteger, readDigits_bytes, Option.map_some]
  | negSucc k =>
    simp only [integer]
    by_cases hk : k < 0x10000000000000000
    · rw [if_pos hk]
      exact ⟨_, _, readHead_head (by decide) hk rest, rfl⟩
    · rw [if_neg hk, List.append_assoc]
      refine ⟨_, _, readHead_head (by decide) (by decide) _, ?_⟩
      simp only [readInteger, readDigits_bytes, Option.map_some]

/-- An item that has the head of an integer is one. -/
theorem readBody_of_readInteger {item : Bytes → Option (Data × Bytes)} {h : Head} {b rest : Bytes}
    {n : Int} (hn : readInteger h b = some (n, rest)) :
    readBody item h b = some (.integer n, rest) := by
  have hbody : readBody item h b = (readInteger h b).map fun (n, rest) => (.integer n, rest) := by
    unfold readInteger at hn
    split at hn
    · rfl
    · rfl
    · rfl
    · rfl
    · cases hn
  rw [hbody, hn]
  rfl

/-! ### Constructors -/

/-- The tag of a constructor stands for it. -/
theorem constrOf?_of_constrTag? {tag : Int} {t : Nat} (h : constrTag? tag = some t) :
    constrOf? t = some tag := by
  cases tag with
  | negSucc k => cases h
  | ofNat k =>
    simp only [constrTag?] at h
    by_cases h₀ : k < 7
    · rw [if_pos h₀] at h
      cases h
      rw [constrOf?, if_pos (by omega)]
      simp only [Option.some.injEq, Int.ofNat_eq_natCast]
      omega
    rw [if_neg h₀] at h
    by_cases h₁ : k < 128
    · rw [if_pos h₁] at h
      cases h
      rw [constrOf?, if_neg (by omega), if_pos (by omega)]
      simp only [Option.some.injEq, Int.ofNat_eq_natCast]
      omega
    · rw [if_neg h₁] at h
      cases h

/-- A constructor without a tag of its own is none of the first 128. -/
theorem not_small_of_constrTag? {tag : Int} (h : constrTag? tag = none) :
    ¬ (0 ≤ tag ∧ tag < 128) := by
  rintro ⟨hnonneg, hsmall⟩
  obtain ⟨k, rfl⟩ := Int.eq_ofNat_of_zero_le hnonneg
  have hk : k < 128 := by omega
  have hne : constrTag? (k : Int) ≠ none := by
    show (if k < 7 then some (121 + k) else if k < 128 then some (1280 + (k - 7)) else none) ≠ none
    rw [if_pos hk]
    split <;> exact Option.some_ne_none _
  exact hne h

/-! ### Parts -/

theorem encodeList_eq_map (ds : List Data) : encodeList ds = ds.map encode := by
  induction ds with
  | nil => rfl
  | cons d ds ih => rw [encodeList, ih, List.map_cons]

theorem encodeEntries_eq_flatMap (es : List (Data × Data)) :
    (encodeEntries es).flatten = es.flatMap fun e => encode e.1 ++ encode e.2 := by
  induction es with
  | nil => rfl
  | cons e es ih =>
    rw [encodeEntries, List.flatten_cons, List.flatten_cons, ih, List.flatMap_cons,
      List.append_assoc]

section Parts

variable {item : Bytes → Option (Data × Bytes)}

/-- The decoder of parts refuses the closing mark. -/
def RefusesMark (item : Bytes → Option (Data × Bytes)) : Prop :=
  ∀ b r, readHead b = some (⟨7, none⟩, r) → item b = none

theorem readItems_flatMap (hmark : RefusesMark item) {ds : List Data}
    (hds : ∀ d ∈ ds, ∀ rest, item (encode d ++ rest) = some (d, rest)) {n : Nat}
    (hn : ds.length < n) (rest : Bytes) :
    readItems item n (ds.flatMap encode ++ 0xff :: rest) = some (ds, rest) := by
  induction ds generalizing n with
  | nil =>
    obtain ⟨n, rfl⟩ : ∃ k, n = k + 1 := ⟨n - 1, by omega⟩
    rfl
  | cons d ds ih =>
    obtain ⟨n, rfl⟩ : ∃ k, n = k + 1 := ⟨n - 1, by omega⟩
    obtain ⟨hd, hmore⟩ := List.forall_mem_cons.1 hds
    have hitem := hd (ds.flatMap encode ++ 0xff :: rest)
    have hrest := ih hmore (Nat.lt_of_succ_lt_succ hn)
    rw [List.flatMap_cons, List.append_assoc, readItems]
    -- an item that is read does not begin with the closing mark
    split
    · rename_i r hhead
      rw [hmark _ r hhead] at hitem
      cases hitem
    · simp only [hitem, hrest, Option.bind_eq_bind, Option.bind_some]
      rfl

theorem readEntries_flatMap {es : List (Data × Data)}
    (hes : ∀ e ∈ es, (∀ rest, item (encode e.1 ++ rest) = some (e.1, rest)) ∧
      ∀ rest, item (encode e.2 ++ rest) = some (e.2, rest)) (rest : Bytes) :
    readEntries item es.length ((es.flatMap fun e => encode e.1 ++ encode e.2) ++ rest) =
      some (es, rest) := by
  induction es with
  | nil => rfl
  | cons e es ih =>
    obtain ⟨⟨hk, hv⟩, hmore⟩ := List.forall_mem_cons.1 hes
    rw [List.flatMap_cons, List.append_assoc, List.append_assoc, List.length_cons]
    simp only [readEntries, hk, hv, ih hmore, Option.bind_eq_bind, Option.bind_some]
    rfl

end Parts

theorem encode_ne_nil (d : Data) : encode d ≠ [] := by
  have hlist : ∀ items : List Bytes, listOf items ≠ [] := by
    intro items
    unfold listOf
    split
    · exact head_ne_nil 4 0
    · exact List.cons_ne_nil _ _
  intro h
  cases d with
  | constr tag fields =>
    rw [encode] at h
    exact hlist _ (List.append_eq_nil_iff.1 h).2
  | map entries =>
    rw [encode] at h
    exact head_ne_nil _ _ (List.append_eq_nil_iff.1 h).1
  | list items =>
    rw [encode] at h
    exact hlist _ h
  | integer n =>
    obtain ⟨k, r, hhead, -⟩ := readHead_integer n []
    rw [encode] at h
    rw [h] at hhead
    cases hhead
  | bytes b =>
    obtain ⟨k, r, hhead, -⟩ := readHead_bytes b []
    rw [encode] at h
    rw [h] at hhead
    cases hhead

theorem length_le_flatMap_encode (ds : List Data) : ds.length ≤ (ds.flatMap encode).length := by
  induction ds with
  | nil => exact Nat.le_refl 0
  | cons d ds ih =>
    have hpos : 0 < (encode d).length := List.length_pos_iff.2 (encode_ne_nil d)
    rw [List.flatMap_cons, List.length_append, List.length_cons]
    omega

theorem length_encode_le_flatMap {d : Data} {ds : List Data} (hd : d ∈ ds) :
    (encode d).length ≤ (ds.flatMap encode).length := by
  rw [List.flatMap_def]
  exact (List.sublist_flatten_of_mem (List.mem_map_of_mem hd)).length_le

/-- A list is read after its head. -/
theorem readHead_listOf {item : Bytes → Option (Data × Bytes)} (hmark : RefusesMark item)
    {ds : List Data} (hds : ∀ d ∈ ds, ∀ rest, item (encode d ++ rest) = some (d, rest))
    (rest : Bytes) :
    ∃ k r, readHead (listOf (encodeList ds) ++ rest) = some (⟨4, k⟩, r) ∧
      readList item ⟨4, k⟩ r = some (ds, rest) := by
  cases ds with
  | nil => exact ⟨some 0, rest, rfl, rfl⟩
  | cons d ds =>
    have hcount := length_le_flatMap_encode (d :: ds)
    refine ⟨none, (d :: ds).flatMap encode ++ 0xff :: rest, ?_, ?_⟩
    · rw [encodeList_eq_map, List.flatMap_def, listOf, if_neg (by simp), List.append_assoc]
      rfl
    · simp only [readList]
      have henough : (d :: ds).length <
          ((d :: ds).flatMap encode ++ 0xff :: rest).length := by
        have hmark : 0 < ((0xff : UInt8) :: rest).length := Nat.succ_pos _
        rw [List.length_append]
        omega
      exact readItems_flatMap hmark hds henough rest

theorem readFields_listOf {item : Bytes → Option (Data × Bytes)} (hmark : RefusesMark item)
    {ds : List Data} (hds : ∀ d ∈ ds, ∀ rest, item (encode d ++ rest) = some (d, rest))
    (rest : Bytes) : readFields item (listOf (encodeList ds) ++ rest) = some (ds, rest) := by
  obtain ⟨k, r, hhead, hlist⟩ := readHead_listOf hmark hds rest
  simp only [readFields, hhead, hlist, Option.bind_eq_bind, Option.bind_some]

/-- The tags that stand for a constructor. -/
theorem range_of_constrOf? {t : Nat} {tag : Int} (h : constrOf? t = some tag) :
    121 ≤ t ∧ t ≤ 1400 := by
  unfold constrOf? at h
  split at h
  · omega
  · split at h
    · omega
    · cases h

/-- The tag of a constructor is not one of those that have another meaning. -/
theorem readBody_constr {item : Bytes → Option (Data × Bytes)} {t : Nat} {tag : Int}
    (ht : constrOf? t = some tag) {b rest : Bytes} {fields : List Data}
    (hfields : readFields item b = some (fields, rest)) :
    readBody item ⟨6, some t⟩ b = some (.constr tag fields, rest) := by
  have hrange : t ≠ 2 ∧ t ≠ 3 ∧ t ≠ 102 := by
    have hr := range_of_constrOf? ht
    omega
  unfold readBody
  split
  all_goals try (rename_i heq; cases heq)
  · exact absurd rfl hrange.1
  · exact absurd rfl hrange.2.1
  · exact absurd rfl hrange.2.2
  · simp only [ht, hfields, Option.bind_eq_bind, Option.bind_some]
    rfl
  · rename_i hno
    exact absurd rfl (hno t)

theorem readWrapped_constr {item : Bytes → Option (Data × Bytes)} {tag : Int}
    (htag : constrTag? tag = none) {b rest : Bytes} {fields : List Data}
    (hfields : readFields item b = some (fields, rest)) :
    readWrapped item (head 4 2 ++ (integer tag ++ b)) = some (.constr tag fields, rest) := by
  obtain ⟨h, r, hhead, hinteger⟩ := readHead_integer tag b
  unfold readWrapped
  rw [readHead_head (by decide) (by decide)]
  simp only [hhead, hinteger, hfields, Option.bind_eq_bind, Option.bind_some]
  rw [if_neg (not_small_of_constrTag? htag)]
  rfl

/-! ### Items -/

theorem refusesMark_readItem (depth : Nat) : RefusesMark (readItem depth) := by
  intro b r hhead
  cases depth with
  | zero => rfl
  | succ depth =>
    simp only [readItem, hhead, Option.bind_eq_bind, Option.bind_some]
    rfl

section Items

variable {depth : Nat}

theorem readItem_succ {b r : Bytes} {h : Head} (hhead : readHead b = some (h, r)) :
    readItem (depth + 1) b = readBody (readItem depth) h r := by
  simp only [readItem, hhead, Option.bind_eq_bind, Option.bind_some]

theorem readItem_constr {fields : List Data}
    (hfields : ∀ d ∈ fields, ∀ rest, readItem depth (encode d ++ rest) = some (d, rest))
    (tag : Int) (rest : Bytes) :
    readItem (depth + 1) (encode (.constr tag fields) ++ rest) =
      some (.constr tag fields, rest) := by
  have hlist := readFields_listOf (refusesMark_readItem depth) hfields rest
  rw [encode, constrHead, List.append_assoc]
  cases htag : constrTag? tag with
  | some t =>
    have hconstr := constrOf?_of_constrTag? htag
    have hrange := range_of_constrOf? hconstr
    simp only
    rw [readItem_succ (readHead_head (by decide) (by omega) _)]
    exact readBody_constr hconstr hlist
  | none =>
    simp only [List.append_assoc]
    rw [readItem_succ (readHead_head (by decide) (by decide) _)]
    exact readWrapped_constr htag hlist

theorem readItem_map {entries : List (Data × Data)} (hcount : entries.length < 0x10000000000000000)
    (hentries : ∀ e ∈ entries,
      (∀ rest, readItem depth (encode e.1 ++ rest) = some (e.1, rest)) ∧
        ∀ rest, readItem depth (encode e.2 ++ rest) = some (e.2, rest)) (rest : Bytes) :
    readItem (depth + 1) (encode (.map entries) ++ rest) = some (.map entries, rest) := by
  rw [encode, encodeEntries_eq_flatMap, List.append_assoc,
    readItem_succ (readHead_head (by decide) hcount _)]
  simp only [readBody, readEntries_flatMap hentries, Option.map_some]

theorem readItem_list {items : List Data}
    (hitems : ∀ d ∈ items, ∀ rest, readItem depth (encode d ++ rest) = some (d, rest))
    (rest : Bytes) :
    readItem (depth + 1) (encode (.list items) ++ rest) = some (.list items, rest) := by
  obtain ⟨k, r, hhead, hlist⟩ := readHead_listOf (refusesMark_readItem depth) hitems rest
  rw [encode, readItem_succ hhead]
  simp only [readBody, hlist, Option.map_some]

theorem readItem_integer (n : Int) (rest : Bytes) :
    readItem (depth + 1) (encode (.integer n) ++ rest) = some (.integer n, rest) := by
  obtain ⟨h, r, hhead, hinteger⟩ := readHead_integer n rest
  rw [encode, readItem_succ hhead]
  exact readBody_of_readInteger hinteger

theorem readItem_bytes (b rest : Bytes) :
    readItem (depth + 1) (encode (.bytes b) ++ rest) = some (.bytes b, rest) := by
  obtain ⟨k, r, hhead, hstring⟩ := readHead_bytes b rest
  rw [encode, readItem_succ hhead]
  simp only [readBody, hstring, Option.map_some]

end Items

/-! ### Lengths -/

theorem length_flatMap_lt_listOf (ds : List Data) :
    (ds.flatMap encode).length < (listOf (encodeList ds)).length := by
  cases ds with
  | nil => exact List.length_pos_iff.2 (head_ne_nil 4 0)
  | cons d ds =>
    rw [encodeList_eq_map, List.flatMap_def, listOf, if_neg (by simp), List.length_append,
      List.length_cons]
    omega

theorem flatMap_entries (es : List (Data × Data)) :
    (es.flatMap fun e => encode e.1 ++ encode e.2) =
      (es.flatMap fun e => [e.1, e.2]).flatMap encode := by
  rw [List.flatMap_assoc]
  simp only [List.flatMap_cons, List.flatMap_nil, List.append_nil]

/-- Data is longer in writing than each of its parts. -/
theorem length_encode_lt {d part : Data} (h : part ∈ d.children) :
    (encode part).length < (encode d).length := by
  have hpart := length_encode_le_flatMap h
  cases d with
  | constr tag fields =>
    have hlist := length_flatMap_lt_listOf fields
    rw [encode, List.length_append]
    simp only [Data.children] at hpart
    omega
  | map entries =>
    have hhead : 0 < (head 5 entries.length).length := List.length_pos_iff.2 (head_ne_nil _ _)
    rw [encode, List.length_append, encodeEntries_eq_flatMap, flatMap_entries]
    simp only [Data.children] at hpart
    omega
  | list items =>
    have hlist := length_flatMap_lt_listOf items
    rw [encode]
    simp only [Data.children] at hpart
    omega
  | integer n => cases h
  | bytes b => cases h

/-! ### Data -/

theorem exists_depth {d : Data} {depth : Nat} (h : (encode d).length ≤ depth) :
    ∃ k, depth = k + 1 := by
  have hpos : 0 < (encode d).length := List.length_pos_iff.2 (encode_ne_nil d)
  exact ⟨depth - 1, by omega⟩

/-- **An encoding is read back**, whatever comes after it, if the depth is not below its length. -/
theorem readItem_encode {d : Data} (hd : d.fits = true) {depth : Nat}
    (hdepth : (encode d).length ≤ depth) (rest : Bytes) :
    readItem depth (encode d ++ rest) = some (d, rest) := by
  induction d using Data.ind generalizing depth rest with
  | constr tag fields ih =>
    obtain ⟨depth, rfl⟩ := exists_depth hdepth
    refine readItem_constr (fun f hf r => ?_) tag rest
    have hlt : (encode f).length < (encode (.constr tag fields)).length := length_encode_lt hf
    exact ih f hf (Data.fitsAll_iff.1 hd f hf) (by omega) r
  | map entries ih =>
    obtain ⟨depth, rfl⟩ := exists_depth hdepth
    simp only [Data.fits, Bool.and_eq_true, decide_eq_true_eq] at hd
    obtain ⟨hcount, hentries⟩ := hd
    refine readItem_map hcount (fun e he => ?_) rest
    obtain ⟨hk, hv⟩ := Data.fitsEntries_iff.1 hentries e he
    have hmem : ∀ part ∈ [e.1, e.2], (encode part).length ≤ depth := by
      intro part hpart
      have hlt : (encode part).length < (encode (.map entries)).length :=
        length_encode_lt (List.mem_flatMap.2 ⟨e, he, hpart⟩)
      omega
    exact ⟨(ih e he).1 hk (hmem e.1 (by simp)), (ih e he).2 hv (hmem e.2 (by simp))⟩
  | list items ih =>
    obtain ⟨depth, rfl⟩ := exists_depth hdepth
    refine readItem_list (fun f hf r => ?_) rest
    have hlt : (encode f).length < (encode (.list items)).length := length_encode_lt hf
    exact ih f hf (Data.fitsAll_iff.1 hd f hf) (by omega) r
  | integer n =>
    obtain ⟨depth, rfl⟩ := exists_depth hdepth
    exact readItem_integer n rest
  | bytes b =>
    obtain ⟨depth, rfl⟩ := exists_depth hdepth
    exact readItem_bytes b rest

theorem decode_encode {d : Data} (hd : d.fits = true) (rest : Bytes) :
    decode (encode d ++ rest) = some (d, rest) := by
  refine readItem_encode hd ?_ rest
  rw [List.length_append]
  omega

/-- **The encoding is uniquely decodable.**  Take data in which every map has fewer than `2 ^ 64`
entries; nothing else is asked of its depth, its integers, its constructors, its lists and its byte
strings.  Decoding its encoding, whatever comes after it, gives the data and what comes after.
Hence no other such data has the same encoding, or one that begins with it. -/
theorem decode_encode_append (d : Data) (hd : d.fits = true) :
    (∀ rest, decode (encode d ++ rest) = some (d, rest)) ∧
    ∀ e : Data, e.fits = true →
      (encode d = encode e → d = e) ∧ (encode d <+: encode e → encode d = encode e) := by
  refine ⟨decode_encode hd, fun e he => ?_⟩
  have hstart : encode d <+: encode e → d = e := by
    rintro ⟨rest, hrest⟩
    have hread := decode_encode he []
    rw [List.append_nil, ← hrest, decode_encode hd rest] at hread
    cases hread
    rfl
  refine ⟨fun heq => hstart (heq ▸ List.prefix_refl _), fun hpre => ?_⟩
  rw [hstart hpre]

/-- A constructor without a tag of its own over a map with a large key and a byte string of two
pieces, an empty list, and the least integer that has a head of its own. -/
def nested : Data :=
  .constr (-1) [.map [(.integer 0x10000000000000000, .bytes (List.replicate 65 7))], .list [],
    .integer (-0x10000000000000000)]

theorem decode_encode_append_nested : nested.fits = true ∧
    decode (encode nested ++ [0xff]) = some (nested, [0xff]) ∧
      (encode nested <+: encode (.list []) → encode nested = encode (.list [])) := by
  have hfits : nested.fits = true := rfl
  obtain ⟨hread, hothers⟩ := decode_encode_append nested hfits
  exact ⟨hfits, hread [0xff], (hothers (.list []) rfl).2⟩

end Cbor

end PlutusCek
