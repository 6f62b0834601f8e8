import PlutusCek.Call.Dispatch
import PlutusCek.Proofs.Profile

/-!
# Proofs.Conformance — every builtin has a profile

One lemma for each family of builtins, put together in `Builtin.profile`: a builtin takes as many
operands as its table entry says, is charged by its measures and logs what it should, whatever the
semantics.  Its contract, its tariff and its uniformity follow (`Builtin.contract`,
`Builtin.tariff`, `Builtin.prepare_uniform`).
-/

namespace PlutusCek.Call

variable {fn : Builtin} {args : List Value}

/-! ### Integers -/

theorem profile_arithmetic (op : Int → Int → Int) :
    Profile fn [.memory, .memory] Silent (arithmetic op) := by
  refine profile_two rfl (fun _ => rfl) (fun _ _ _ _ => rfl) fun ha hb => ?_
  refine reads_asInteger.outcome ha fun x hx _ => reads_asInteger.outcome hb fun y hy _ => ?_
  rw [Value.asInteger_ok hx, Value.asInteger_ok hy]
  exact outcome_total rfl fun _ => rfl

theorem profile_division (hfn : fn.divides = true) (op : Int → Int → Int) :
    Profile fn [.memory, .memory] Silent (division fn op) := by
  refine profile_two rfl (fun _ => rfl) (fun _ _ _ _ => rfl) fun ha hb => ?_
  refine reads_asInteger.outcome ha fun x hx _ => reads_asInteger.outcome hb fun y hy _ => ?_
  rw [Value.asInteger_ok hx, Value.asInteger_ok hy]
  by_cases hzero : y = 0
  · simp only [if_pos hzero]
    exact .error (.zeroDivisor hfn)
  · simp only [if_neg hzero]
    exact outcome_total rfl fun _ => rfl

theorem profile_compareIntegers (op : Int → Int → Bool) :
    Profile fn [.memory, .memory] Silent (compareIntegers op) := by
  refine profile_two rfl (fun _ => rfl) (fun _ _ _ _ => rfl) fun ha hb => ?_
  refine reads_asInteger.outcome ha fun x hx _ => reads_asInteger.outcome hb fun y hy _ => ?_
  rw [Value.asInteger_ok hx, Value.asInteger_ok hy]
  exact outcome_total rfl fun _ => rfl

theorem profile_expMod (fn : Builtin) :
    Profile fn [.memory, .memory, .memory] Silent (expMod fn) := by
  refine profile_three rfl (fun _ => rfl) (fun _ _ => rfl) (fun _ _ _ _ _ => rfl)
    fun hb he hm => ?_
  refine reads_asInteger.outcome hb fun base hbase _ => ?_
  refine reads_asInteger.outcome he fun exponent hexp _ => ?_
  refine reads_asInteger.outcome hm fun modulus hmod _ => ?_
  rw [Value.asInteger_ok hbase, Value.asInteger_ok hexp, Value.asInteger_ok hmod]
  refine outcome_guarded rfl ?_
  split
  · exact .ok fun _ => rfl
  · exact .error nofun

/-! ### Byte strings -/

theorem profile_appendBytes : Profile fn [.memory, .memory] Silent appendBytes := by
  refine profile_two rfl (fun _ => rfl) (fun _ _ _ _ => rfl) fun ha hb => ?_
  refine reads_asBytes.outcome ha fun x hx _ => reads_asBytes.outcome hb fun y hy _ => ?_
  rw [Value.asBytes_ok hx, Value.asBytes_ok hy]
  exact outcome_total rfl fun _ => rfl

theorem profile_consByte (fn : Builtin) (semantics : Semantics) :
    Profile fn [.memory, .memory] Silent (consByte fn semantics) := by
  refine profile_two rfl (fun _ => rfl) (fun _ _ _ _ => rfl) fun ha hb => ?_
  refine reads_asInteger.outcome ha fun n hn _ => reads_asBytes.outcome hb fun x hx _ => ?_
  rw [Value.asInteger_ok hn, Value.asBytes_ok hx]
  refine outcome_guarded rfl ?_
  split
  · exact .ok fun _ => rfl
  · exact .error nofun

theorem profile_sliceBytes : Profile fn [.memory, .memory, .memory] Silent sliceBytes := by
  refine profile_three rfl (fun _ => rfl) (fun _ _ => rfl) (fun _ _ _ _ _ => rfl)
    fun hs hn hb => ?_
  refine reads_asInteger.outcome hs fun start hstart _ => ?_
  refine reads_asInteger.outcome hn fun length hlength _ => ?_
  refine reads_asBytes.outcome hb fun x hx _ => ?_
  rw [Value.asInteger_ok hstart, Value.asInteger_ok hlength, Value.asBytes_ok hx]
  exact outcome_total rfl fun _ => rfl

theorem profile_lengthBytes : Profile fn [.memory] Silent lengthBytes := by
  refine profile_one rfl (fun _ _ _ => rfl) fun hb => ?_
  refine reads_asBytes.outcome hb fun x hx _ => ?_
  rw [Value.asBytes_ok hx]
  exact outcome_total rfl fun _ => rfl

theorem profile_indexBytes (fn : Builtin) :
    Profile fn [.memory, .memory] Silent (indexBytes fn) := by
  refine profile_two rfl (fun _ => rfl) (fun _ _ _ _ => rfl) fun hb hi => ?_
  refine reads_asBytes.outcome hb fun x hx _ => reads_asInteger.outcome hi fun index hindex _ => ?_
  rw [Value.asBytes_ok hx, Value.asInteger_ok hindex]
  refine outcome_guarded rfl ?_
  split
  · exact .error nofun
  · split
    · exact .ok fun _ => rfl
    · exact .error nofun

theorem profile_compareBytes (op : Bytes → Bytes → Bool) :
    Profile fn [.memory, .memory] Silent (compareBytes op) := by
  refine profile_two rfl (fun _ => rfl) (fun _ _ _ _ => rfl) fun ha hb => ?_
  refine reads_asBytes.outcome ha fun x hx _ => reads_asBytes.outcome hb fun y hy _ => ?_
  rw [Value.asBytes_ok hx, Value.asBytes_ok hy]
  exact outcome_total rfl fun _ => rfl

theorem bytesOfInteger_ne_error (bigEndian : Bool) (width n : Int) :
    bytesOfInteger bigEndian width n ≠ .error .divisionByZero := by
  unfold bytesOfInteger
  dsimp only
  split_ifs <;> simp

theorem profile_integerToBytes (fn : Builtin) :
    Profile fn [.memory, .words, .memory] Silent (integerToBytes fn) := by
  refine profile_three rfl (fun _ => rfl) (fun _ _ => rfl) (fun _ _ _ _ _ => rfl)
    fun he hw hi => ?_
  refine reads_asBool.outcome he fun bigEndian hb _ => ?_
  refine reads_asInteger.outcome hw fun width hwidth _ => ?_
  refine reads_asInteger.outcome hi fun n hn _ => ?_
  rw [Value.asBool_ok hb, Value.asInteger_ok hwidth, Value.asInteger_ok hn]
  exact outcome_guarded rfl
    (grants_map (bytesOfInteger_ne_error bigEndian width n) fun _ => rfl)

theorem profile_bytesToInteger : Profile fn [.memory, .memory] Silent bytesToInteger := by
  refine profile_two rfl (fun _ => rfl) (fun _ _ _ _ => rfl) fun he hb => ?_
  refine reads_asBool.outcome he fun bigEndian hend _ => reads_asBytes.outcome hb fun x hx _ => ?_
  rw [Value.asBool_ok hend, Value.asBytes_ok hx]
  exact outcome_total rfl fun _ => rfl

theorem profile_logicalBytes (op : UInt8 → UInt8 → UInt8) :
    Profile fn [.memory, .memory, .memory] Silent (logicalBytes op) := by
  refine profile_three rfl (fun _ => rfl) (fun _ _ => rfl) (fun _ _ _ _ _ => rfl)
    fun hp ha hb => ?_
  refine reads_asBool.outcome hp fun pad hpad _ => ?_
  refine reads_asBytes.outcome ha fun x hx _ => reads_asBytes.outcome hb fun y hy _ => ?_
  rw [Value.asBool_ok hpad, Value.asBytes_ok hx, Value.asBytes_ok hy]
  exact outcome_total rfl fun _ => rfl

theorem profile_complementBytes : Profile fn [.memory] Silent complementBytes := by
  refine profile_one rfl (fun _ _ _ => rfl) fun hb => ?_
  refine reads_asBytes.outcome hb fun x hx _ => ?_
  rw [Value.asBytes_ok hx]
  exact outcome_total rfl fun _ => rfl

theorem profile_readBit (fn : Builtin) : Profile fn [.memory, .memory] Silent (readBit fn) := by
  refine profile_two rfl (fun _ => rfl) (fun _ _ _ _ => rfl) fun hb hi => ?_
  refine reads_asBytes.outcome hb fun x hx _ => reads_asInteger.outcome hi fun index hindex _ => ?_
  rw [Value.asBytes_ok hx, Value.asInteger_ok hindex]
  refine outcome_guarded rfl ?_
  split
  · exact .ok fun _ => rfl
  · exact .error nofun

/-- A bit that cannot be written, or an item that is no integer, stops the writing. -/
theorem checks_writeAll {indices : List Constant}
    (hindices : Typed args → GoodItems (.integer, indices)) {v : Bool} {b : Bytes} {f : Failure}
    (h : writeAll fn v b indices = .error f) : Checks fn args (.error f) := by
  induction indices generalizing b with
  | nil => cases h
  | cons c cs ih =>
    cases c with
    | integer index =>
      simp only [writeAll] at h
      split at h
      · exact ih (fun htyped => (hindices htyped).tail) h
      · cases h
        exact .refused nofun
    | _ =>
      cases h
      refine .mismatch (fun htyped => ?_) _ _
      have htype := (hindices htyped).head.1
      cases htype

theorem profile_writeBits (fn : Builtin) :
    Profile fn [.memory, .length, .memory] Silent (writeBits fn) := by
  refine profile_three rfl (fun _ => rfl) (fun _ _ => rfl) (fun _ _ _ _ _ => rfl)
    fun hb hl hv => ?_
  refine reads_asBytes.outcome hb fun x hx _ => ?_
  refine (reads_asListOf _).outcome hl fun indices hlist hindices => ?_
  refine reads_asBool.outcome hv fun value hvalue _ => ?_
  obtain rfl := Value.asBytes_ok hx
  obtain rfl := asListOf_ok hlist
  obtain rfl := Value.asBool_ok hvalue
  exact outcome_checked rfl (checks_map (checks_writeAll hindices) fun _ => rfl)

theorem replicateByte_ne_error (count byte : Int) :
    replicateByte count byte ≠ .error .divisionByZero := by
  unfold replicateByte
  split
  · simp
  · split <;> simp

theorem profile_replicateBytes (fn : Builtin) :
    Profile fn [.words, .memory] Silent (replicateBytes fn) := by
  refine profile_two rfl (fun _ => rfl) (fun _ _ _ _ => rfl) fun hn hb => ?_
  refine reads_asInteger.outcome hn fun count hcount _ => ?_
  refine reads_asInteger.outcome hb fun byte hbyte _ => ?_
  rw [Value.asInteger_ok hcount, Value.asInteger_ok hbyte]
  exact outcome_guarded rfl (grants_map (replicateByte_ne_error count byte) fun _ => rfl)

theorem profile_moveBits (op : Bytes → Int → Bytes) :
    Profile fn [.memory, .literal] Silent (moveBits op) := by
  refine profile_two rfl (fun _ => rfl) (fun _ _ _ _ => rfl) fun hb hi => ?_
  refine reads_asBytes.outcome hb fun x hx _ => reads_asInteger.outcome hi fun k hk _ => ?_
  rw [Value.asBytes_ok hx, Value.asInteger_ok hk]
  exact outcome_total rfl fun _ => rfl

theorem profile_measureBits (op : Bytes → Int) : Profile fn [.memory] Silent (measureBits op) := by
  refine profile_one rfl (fun _ _ _ => rfl) fun hb => ?_
  refine reads_asBytes.outcome hb fun x hx _ => ?_
  rw [Value.asBytes_ok hx]
  exact outcome_total rfl fun _ => rfl

/-! ### Text -/

theorem profile_appendString : Profile fn [.memory, .memory] Silent appendString := by
  refine profile_two rfl (fun _ => rfl) (fun _ _ _ _ => rfl) fun ha hb => ?_
  refine reads_asString.outcome ha fun x hx _ => reads_asString.outcome hb fun y hy _ => ?_
  rw [Value.asString_ok hx, Value.asString_ok hy]
  exact outcome_total rfl fun _ => rfl

theorem profile_equalsString : Profile fn [.memory, .memory] Silent equalsString := by
  refine profile_two rfl (fun _ => rfl) (fun _ _ _ _ => rfl) fun ha hb => ?_
  refine reads_asString.outcome ha fun x hx _ => reads_asString.outcome hb fun y hy _ => ?_
  rw [Value.asString_ok hx, Value.asString_ok hy]
  exact outcome_total rfl fun _ => rfl

theorem profile_encodeString : Profile fn [.memory] Silent encodeString := by
  refine profile_one rfl (fun _ _ _ => rfl) fun ha => ?_
  refine reads_asString.outcome ha fun s hs _ => ?_
  rw [Value.asString_ok hs]
  exact outcome_total rfl fun _ => rfl

theorem profile_decodeString (fn : Builtin) : Profile fn [.memory] Silent (decodeString fn) := by
  refine profile_one rfl (fun _ _ _ => rfl) fun ha => ?_
  refine reads_asBytes.outcome ha fun b hb _ => ?_
  rw [Value.asBytes_ok hb]
  refine outcome_guarded rfl ?_
  split
  · exact .ok fun _ => rfl
  · exact .error nofun

/-! ### Choices and traces -/

theorem profile_ifThenElse : Profile fn [.memory, .memory, .memory] Silent ifThenElse := by
  refine profile_three rfl (fun _ => rfl) (fun _ _ => rfl) (fun _ _ _ _ _ => rfl)
    fun hc ha hb => ?_
  refine reads_asBool.outcome hc fun cond _ _ => ?_
  cases cond with
  | true => exact outcome_select (sizesOfArgs_eq _) ha
  | false => exact outcome_select (sizesOfArgs_eq _) hb

theorem profile_chooseUnit : Profile fn [.memory, .memory] Silent chooseUnit := by
  refine profile_two rfl (fun _ => rfl) (fun _ _ _ _ => rfl) fun hu ha => ?_
  refine reads_asUnit.outcome hu fun _ _ _ => ?_
  exact outcome_select (sizesOfArgs_eq _) ha

theorem profile_trace : Profile fn [.memory, .memory] Announces trace := by
  refine profile_two rfl (fun _ => rfl) (fun _ _ _ _ => rfl) fun hs ha => ?_
  refine reads_asString.outcome hs fun message hmessage _ => ?_
  obtain rfl := Value.asString_ok hmessage
  exact .ok (sizesOfArgs_eq _) (.operand ha ⟨message, rfl, rfl⟩)

/-! ### Pairs, lists and arrays -/

theorem profile_fstPair : Profile fn [.memory] Silent fstPair := by
  refine profile_one rfl (fun _ _ _ => rfl) fun hp => ?_
  refine reads_asPair.outcome hp fun x _ hparts => ?_
  exact outcome_total (sizesOfArgs_eq _) fun htyped => (hparts htyped).1

theorem profile_sndPair : Profile fn [.memory] Silent sndPair := by
  refine profile_one rfl (fun _ _ _ => rfl) fun hp => ?_
  refine reads_asPair.outcome hp fun x _ hparts => ?_
  exact outcome_total (sizesOfArgs_eq _) fun htyped => (hparts htyped).2

theorem profile_chooseList : Profile fn [.memory, .memory, .memory] Silent chooseList := by
  refine profile_three rfl (fun _ => rfl) (fun _ _ => rfl) (fun _ _ _ _ _ => rfl)
    fun hl ha hb => ?_
  refine reads_asList.outcome hl fun ⟨t, items⟩ _ _ => ?_
  cases items with
  | nil => exact outcome_select (sizesOfArgs_eq _) ha
  | cons c items => exact outcome_select (sizesOfArgs_eq _) hb

theorem profile_mkCons : Profile fn [.memory, .memory] Silent mkCons := by
  refine profile_two rfl (fun _ => rfl) (fun _ _ _ _ => rfl) fun hhead htail => ?_
  refine reads_asList.outcome htail fun ⟨t, items⟩ _ hitems => ?_
  refine (reads_asConstant _).outcome hhead fun c _ hc => ?_
  by_cases htype : c.type ≠ t
  · simp only [if_pos htype]
    exact .error (.mismatch _ _)
  · simp only [if_neg htype]
    refine outcome_total (sizesOfArgs_eq _) fun htyped => Constant.wellTyped_list.2 ?_
    exact List.forall_mem_cons.2 ⟨⟨not_not.1 htype, hc htyped⟩, hitems htyped⟩

theorem profile_headList (fn : Builtin) : Profile fn [.memory] Silent (headList fn) := by
  refine profile_one rfl (fun _ _ _ => rfl) fun hl => ?_
  refine reads_asList.outcome hl fun ⟨t, items⟩ _ hitems => ?_
  refine outcome_guarded (sizesOfArgs_eq _) ?_
  cases items with
  | nil => exact .error nofun
  | cons c items => exact .ok fun htyped => (hitems htyped).head.2

theorem profile_tailList (fn : Builtin) : Profile fn [.memory] Silent (tailList fn) := by
  refine profile_one rfl (fun _ _ _ => rfl) fun hl => ?_
  refine reads_asList.outcome hl fun ⟨t, items⟩ _ hitems => ?_
  refine outcome_guarded (sizesOfArgs_eq _) ?_
  cases items with
  | nil => exact .error nofun
  | cons c items => exact .ok fun htyped => Constant.wellTyped_list.2 (hitems htyped).tail

theorem profile_nullList : Profile fn [.memory] Silent nullList := by
  refine profile_one rfl (fun _ _ _ => rfl) fun hl => ?_
  refine reads_asList.outcome hl fun ⟨t, items⟩ _ _ => ?_
  exact outcome_total (sizesOfArgs_eq _) fun _ => rfl

theorem profile_dropList : Profile fn [.literal, .memory] Silent dropList := by
  refine profile_two rfl (fun _ => rfl) (fun _ _ _ _ => rfl) fun hn hl => ?_
  refine reads_asInteger.outcome hn fun count hcount _ => ?_
  refine reads_asList.outcome hl fun ⟨t, items⟩ _ hitems => ?_
  obtain rfl := Value.asInteger_ok hcount
  refine outcome_total (dropSizes_eq count _) fun htyped => Constant.wellTyped_list.2 fun c hc => ?_
  exact hitems htyped c (List.mem_of_mem_drop hc)

theorem profile_lengthOfArray : Profile fn [.memory] Silent lengthOfArray := by
  refine profile_one rfl (fun _ _ _ => rfl) fun ha => ?_
  refine reads_asArray.outcome ha fun ⟨t, items⟩ _ _ => ?_
  exact outcome_total rfl fun _ => rfl

theorem profile_listToArray : Profile fn [.length] Silent listToArray := by
  refine profile_one rfl (fun _ _ _ => rfl) fun hl => ?_
  refine reads_asList.outcome hl fun ⟨t, items⟩ hlist hitems => ?_
  obtain rfl := Value.asList_ok hlist
  exact outcome_total rfl fun htyped => Constant.wellTyped_array.2 (hitems htyped)

theorem profile_indexArray (fn : Builtin) :
    Profile fn [.memory, .memory] Silent (indexArray fn) := by
  refine profile_two rfl (fun _ => rfl) (fun _ _ _ _ => rfl) fun ha hi => ?_
  refine reads_asArray.outcome ha fun ⟨t, items⟩ _ hitems => ?_
  refine reads_asInteger.outcome hi fun index hindex _ => ?_
  obtain rfl := Value.asInteger_ok hindex
  refine outcome_guarded rfl ?_
  split
  · exact .error nofun
  · split
    · rename_i c hc
      exact .ok fun htyped => (hitems htyped c (List.mem_of_getElem? hc)).2
    · exact .error nofun

/-! ### Data -/

/-- A computation in two parts fails in one of them. -/
theorem error_of_bind {ε α β : Type} {e : ε} {x : Except ε α} {k : α → Except ε β}
    (h : (x >>= k) = .error e) : x = .error e ∨ ∃ a, k a = .error e := by
  cases x with
  | error e' =>
    cases h
    exact .inl rfl
  | ok a => exact .inr ⟨a, h⟩

theorem dataOf_error {c : Constant} {f : Failure} (h : dataOf c = .error f) :
    c.type ≠ .data ∧ ∃ wanted got, f = .typeMismatch wanted got := by
  cases c with
  | data d => cases h
  | _ =>
    cases h
    exact ⟨fun h => (by cases h), _, _, rfl⟩

/-- An item that is no data is to blame if a list of data cannot be read. -/
theorem dataItems_error {cs : List Constant} {f : Failure} (h : dataItems cs = .error f) :
    ¬ GoodItems (.data, cs) ∧ ∃ wanted got, f = .typeMismatch wanted got := by
  induction cs with
  | nil => cases h
  | cons c cs ih =>
    rw [dataItems] at h
    rcases error_of_bind h with hc | ⟨d, h⟩
    · obtain ⟨hbad, hf⟩ := dataOf_error hc
      exact ⟨fun hgood => hbad hgood.head.1, hf⟩
    rcases error_of_bind h with hcs | ⟨ds, h⟩
    · obtain ⟨hbad, hf⟩ := ih hcs
      exact ⟨fun hgood => hbad hgood.tail, hf⟩
    · cases h

/-- An item that is no pair of data is to blame if a list of such pairs cannot be read. -/
theorem dataEntries_error {cs : List Constant} {f : Failure} (h : dataEntries cs = .error f) :
    ¬ GoodItems (dataPairType, cs) ∧ ∃ wanted got, f = .typeMismatch wanted got := by
  induction cs with
  | nil => cases h
  | cons c cs ih =>
    cases c with
    | pair s t a b =>
      -- the components of a well-typed pair of data are data
      have hparts : GoodItems (dataPairType, .pair s t a b :: cs) →
          a.type = .data ∧ b.type = .data := by
        intro hgood
        obtain ⟨htype, hwell⟩ := hgood.head
        obtain ⟨⟨ha, -⟩, hb, -⟩ := Constant.wellTyped_pair.1 hwell
        cases htype
        exact ⟨ha, hb⟩
      rw [dataEntries] at h
      rcases error_of_bind h with ha | ⟨k, h⟩
      · obtain ⟨hbad, hf⟩ := dataOf_error ha
        exact ⟨fun hgood => hbad (hparts hgood).1, hf⟩
      rcases error_of_bind h with hb | ⟨v, h⟩
      · obtain ⟨hbad, hf⟩ := dataOf_error hb
        exact ⟨fun hgood => hbad (hparts hgood).2, hf⟩
      rcases error_of_bind h with hcs | ⟨es, h⟩
      · obtain ⟨hbad, hf⟩ := ih hcs
        exact ⟨fun hgood => hbad hgood.tail, hf⟩
      · cases h
    | _ =>
      cases h
      refine ⟨fun hgood => ?_, _, _, rfl⟩
      have htype := hgood.head.1
      cases htype

theorem profile_chooseData : Profile fn (List.replicate 6 .memory) Silent chooseData where
  outcome {R args args'} hlen h := by
    rcases h with _ | ⟨hx, _ | ⟨hconstr, _ | ⟨hmap, _ | ⟨hlist, _ | ⟨hinteger, _ | ⟨hbytes,
      _ | _⟩⟩⟩⟩⟩⟩
    all_goals try cases hlen
    refine reads_asData.outcome hx fun d _ _ => ?_
    cases d with
    | constr tag fields => exact outcome_select (sizesOfArgs_eq _) hconstr
    | map entries => exact outcome_select (sizesOfArgs_eq _) hmap
    | list items => exact outcome_select (sizesOfArgs_eq _) hlist
    | integer n => exact outcome_select (sizesOfArgs_eq _) hinteger
    | bytes b => exact outcome_select (sizesOfArgs_eq _) hbytes
  malformed {args} hlen := by
    rcases args with _ | ⟨x, _ | ⟨onConstr, _ | ⟨onMap, _ | ⟨onList, _ | ⟨onInteger, _ | ⟨onBytes,
      _ | ⟨_, rest⟩⟩⟩⟩⟩⟩⟩
    all_goals first | rfl | exact absurd rfl hlen

theorem profile_constrData : Profile fn [.memory, .memory] Silent constrData := by
  refine profile_two rfl (fun _ => rfl) (fun _ _ _ _ => rfl) fun ht hf => ?_
  refine reads_asInteger.outcome ht fun tag _ _ => ?_
  refine (reads_asListOf _).outcome hf fun fields _ hfields => ?_
  refine outcome_checked (sizesOfArgs_eq _) (checks_map (fun h => ?_) fun _ => rfl)
  exact checks_of_items hfields (dataItems_error h)

theorem profile_mapData : Profile fn [.memory] Silent mapData := by
  refine profile_one rfl (fun _ _ _ => rfl) fun hm => ?_
  refine (reads_asListOf _).outcome hm fun entries _ hentries => ?_
  refine outcome_checked (sizesOfArgs_eq _) (checks_map (fun h => ?_) fun _ => rfl)
  exact checks_of_items hentries (dataEntries_error h)

theorem profile_listData : Profile fn [.memory] Silent listData := by
  refine profile_one rfl (fun _ _ _ => rfl) fun hl => ?_
  refine (reads_asListOf _).outcome hl fun items _ hitems => ?_
  refine outcome_checked (sizesOfArgs_eq _) (checks_map (fun h => ?_) fun _ => rfl)
  exact checks_of_items hitems (dataItems_error h)

theorem profile_integerData : Profile fn [.memory] Silent integerData := by
  refine profile_one rfl (fun _ _ _ => rfl) fun hi => ?_
  refine reads_asInteger.outcome hi fun n _ _ => ?_
  exact outcome_total (sizesOfArgs_eq _) fun _ => rfl

theorem profile_bytesData : Profile fn [.memory] Silent bytesData := by
  refine profile_one rfl (fun _ _ _ => rfl) fun hb => ?_
  refine reads_asBytes.outcome hb fun x _ _ => ?_
  exact outcome_total (sizesOfArgs_eq _) fun _ => rfl

theorem profile_takeData (fn : Builtin) (wanted : String) {part : Data → Option Constant}
    (hpart : ∀ {d c}, part d = some c → c.WellTyped) :
    Profile fn [.memory] Silent (takeData fn wanted part) := by
  refine profile_one rfl (fun _ _ _ => rfl) fun hx => ?_
  refine reads_asData.outcome hx fun d _ _ => ?_
  refine outcome_guarded (sizesOfArgs_eq _) ?_
  split
  · rename_i c hc
    exact .ok fun _ => hpart hc
  · exact .error nofun

theorem wellTyped_constrParts {d : Data} {c : Constant} (h : constrParts d = some c) :
    c.WellTyped := by
  cases d with
  | constr tag fields =>
    cases h
    exact Constant.wellTyped_pairOf rfl (Constant.wellTyped_dataList fields)
  | _ => cases h

theorem wellTyped_mapParts {d : Data} {c : Constant} (h : mapParts d = some c) : c.WellTyped := by
  cases d with
  | map entries =>
    cases h
    exact Constant.wellTyped_dataPairs entries
  | _ => cases h

theorem wellTyped_listParts {d : Data} {c : Constant} (h : listParts d = some c) :
    c.WellTyped := by
  cases d with
  | list items =>
    cases h
    exact Constant.wellTyped_dataList items
  | _ => cases h

theorem wellTyped_integerPart {d : Data} {c : Constant} (h : integerPart d = some c) :
    c.WellTyped := by
  cases d with
  | integer n =>
    cases h
    rfl
  | _ => cases h

theorem wellTyped_bytesPart {d : Data} {c : Constant} (h : bytesPart d = some c) :
    c.WellTyped := by
  cases d with
  | bytes b =>
    cases h
    rfl
  | _ => cases h

theorem profile_equalsData :
    Profile fn [.comparison, .comparison] Silent equalsData := by
  refine profile_two rfl (fun _ => rfl) (fun _ _ _ _ => rfl) fun ha hb => ?_
  refine reads_asData.outcome ha fun x hx _ => reads_asData.outcome hb fun y hy _ => ?_
  rw [Value.asData_ok hx, Value.asData_ok hy]
  exact outcome_total rfl fun _ => rfl

theorem profile_mkPairData : Profile fn [.memory, .memory] Silent mkPairData := by
  refine profile_two rfl (fun _ => rfl) (fun _ _ _ _ => rfl) fun ha hb => ?_
  refine reads_asData.outcome ha fun x _ _ => reads_asData.outcome hb fun y _ _ => ?_
  exact outcome_total (sizesOfArgs_eq _) fun _ => Constant.wellTyped_pairOf rfl rfl

theorem profile_mkNil (t : ConstType) : Profile fn [.memory] Silent (mkNil t) := by
  refine profile_one rfl (fun _ _ _ => rfl) fun hu => ?_
  refine reads_asUnit.outcome hu fun _ _ _ => ?_
  exact outcome_total (sizesOfArgs_eq _) fun _ => rfl

theorem profile_serialiseData : Profile fn [.memory] Silent serialiseData := by
  refine profile_one rfl (fun _ _ _ => rfl) fun hx => ?_
  refine reads_asData.outcome hx fun d _ _ => ?_
  exact outcome_total (sizesOfArgs_eq _) fun _ => rfl

/-! ### Digests and signatures -/

theorem profile_digest (hash : Bytes → Bytes) : Profile fn [.memory] Silent (digest hash) := by
  refine profile_one rfl (fun _ _ _ => rfl) fun hb => ?_
  refine reads_asBytes.outcome hb fun x hx _ => ?_
  rw [Value.asBytes_ok hx]
  exact outcome_total rfl fun _ => rfl

theorem bind_ne_error {ε α β : Type} {e : ε} {x : Except ε α} {k : α → Except ε β}
    (hx : x ≠ .error e) (hk : ∀ a, k a ≠ .error e) : (x >>= k) ≠ .error e := by
  intro h
  rcases error_of_bind h with h | ⟨a, h⟩
  · exact hx h
  · exact hk a h

theorem checkLength_ne_error (what : String) (expected : Nat) (b : Bytes) :
    checkLength what expected b ≠ .error .divisionByZero := by
  unfold checkLength
  split <;> simp

theorem orMalformed_ne_error {α : Type} (what : String) (x : Option α) :
    orMalformed what x ≠ .error .divisionByZero := by
  cases x <;> simp [orMalformed]

theorem checkEd25519_ne_error (key message signature : Bytes) :
    checkEd25519 key message signature ≠ .error .divisionByZero := by
  refine bind_ne_error (checkLength_ne_error _ _ _) fun _ => ?_
  refine bind_ne_error (orMalformed_ne_error _ _) fun point => ?_
  refine bind_ne_error (checkLength_ne_error _ _ _) fun _ h => ?_
  cases h

theorem checkEcdsa_ne_error (key message signature : Bytes) :
    checkEcdsa key message signature ≠ .error .divisionByZero := by
  refine bind_ne_error (checkLength_ne_error _ _ _) fun _ => ?_
  refine bind_ne_error (checkLength_ne_error _ _ _) fun _ => ?_
  refine bind_ne_error (checkLength_ne_error _ _ _) fun _ => ?_
  refine bind_ne_error (orMalformed_ne_error _ _) fun point => ?_
  refine bind_ne_error (orMalformed_ne_error _ _) fun rs h => ?_
  cases h

theorem checkSchnorr_ne_error (key message signature : Bytes) :
    checkSchnorr key message signature ≠ .error .divisionByZero := by
  refine bind_ne_error (checkLength_ne_error _ _ _) fun _ => ?_
  refine bind_ne_error (checkLength_ne_error _ _ _) fun _ => ?_
  refine bind_ne_error (orMalformed_ne_error _ _) fun point => ?_
  refine bind_ne_error (orMalformed_ne_error _ _) fun rs h => ?_
  cases h

theorem profile_verify (fn : Builtin) {check : Bytes → Bytes → Bytes → Except Refusal Bool}
    (hcheck : ∀ key message signature, check key message signature ≠ .error .divisionByZero) :
    Profile fn [.memory, .memory, .memory] Silent (verify fn check) := by
  refine profile_three rfl (fun _ => rfl) (fun _ _ => rfl) (fun _ _ _ _ _ => rfl)
    fun hk hm hs => ?_
  refine reads_asBytes.outcome hk fun key hkey _ => ?_
  refine reads_asBytes.outcome hm fun message hmessage _ => ?_
  refine reads_asBytes.outcome hs fun signature hsignature _ => ?_
  rw [Value.asBytes_ok hkey, Value.asBytes_ok hmessage, Value.asBytes_ok hsignature]
  exact outcome_guarded rfl (grants_map (hcheck key message signature) fun _ => rfl)

/-! ### Points -/

/-- What is asked of a group of points: its constants are those of its type. -/
structure Group.Sound {F : Type} (g : Group F) : Prop where
  read : Reads g.read Any
  point : ∀ {c : Constant}, c.type = g.type → ∃ p, g.point? c = some p
  wrap : ∀ p, (g.wrap p).WellTyped

theorem sound_first : Group.first.Sound where
  read := reads_asG1
  point h := by
    obtain ⟨p, rfl⟩ := Constant.eq_g1 h
    exact ⟨p, rfl⟩
  wrap _ := rfl

theorem sound_second : Group.second.Sound where
  read := reads_asG2
  point h := by
    obtain ⟨p, rfl⟩ := Constant.eq_g2 h
    exact ⟨p, rfl⟩
  wrap _ := rfl

section Points

variable {F : Type} {g : Group F} (hg : g.Sound)
include hg

theorem profile_uncompressPoint (fn : Builtin) :
    Profile fn [.memory] Silent (uncompressPoint fn g) := by
  refine profile_one rfl (fun _ _ _ => rfl) fun ha => ?_
  refine reads_asBytes.outcome ha fun b hb _ => ?_
  rw [Value.asBytes_ok hb]
  refine outcome_guarded rfl ?_
  split
  · exact .error nofun
  · split
    · exact .ok fun _ => hg.wrap _
    · exact .error nofun

theorem profile_hashToPoint (fn : Builtin) :
    Profile fn [.memory, .memory] Silent (hashToPoint fn g) := by
  refine profile_two rfl (fun _ => rfl) (fun _ _ _ _ => rfl) fun hm hd => ?_
  refine reads_asBytes.outcome hm fun message hmessage _ => ?_
  refine reads_asBytes.outcome hd fun tag htag _ => ?_
  rw [Value.asBytes_ok hmessage, Value.asBytes_ok htag]
  refine outcome_guarded rfl ?_
  split
  · exact .error nofun
  · exact .ok fun _ => hg.wrap _

theorem profile_compressPoint : Profile fn [.memory] Silent (compressPoint g) := by
  refine profile_one rfl (fun _ _ _ => rfl) fun ha => ?_
  refine hg.read.outcome ha fun p _ _ => ?_
  exact outcome_total rfl fun _ => rfl

theorem profile_equalPoints [DecidableEq F] :
    Profile fn [.memory, .memory] Silent (equalPoints g) := by
  refine profile_two rfl (fun _ => rfl) (fun _ _ _ _ => rfl) fun ha hb => ?_
  refine hg.read.outcome ha fun p _ _ => hg.read.outcome hb fun q _ _ => ?_
  exact outcome_total rfl fun _ => rfl

variable [Crypto.CoordinateField F]

theorem profile_negPoint : Profile fn [.memory] Silent (negPoint g) := by
  refine profile_one rfl (fun _ _ _ => rfl) fun ha => ?_
  refine hg.read.outcome ha fun p _ _ => ?_
  exact outcome_total rfl fun _ => hg.wrap _

variable [DecidableEq F]

theorem profile_addPoints : Profile fn [.memory, .memory] Silent (addPoints g) := by
  refine profile_two rfl (fun _ => rfl) (fun _ _ _ _ => rfl) fun ha hb => ?_
  refine hg.read.outcome ha fun p _ _ => hg.read.outcome hb fun q _ _ => ?_
  exact outcome_total rfl fun _ => hg.wrap _

theorem profile_scalePoint : Profile fn [.memory, .memory] Silent (scalePoint g) := by
  refine profile_two rfl (fun _ => rfl) (fun _ _ _ _ => rfl) fun hi ha => ?_
  refine reads_asInteger.outcome hi fun n hn _ => hg.read.outcome ha fun p _ _ => ?_
  rw [Value.asInteger_ok hn]
  exact outcome_total rfl fun _ => hg.wrap _

/-- A sum of multiples fails only at a scalar that is no integer or at what is no point. -/
theorem addMultiples_error {acc : Crypto.Point F} {ss ps : List Constant} {f : Failure}
    (h : addMultiples g acc ss ps = .error f) :
    ¬ (GoodItems (.integer, ss) ∧ GoodItems (g.type, ps)) ∧
      ∃ wanted got, f = .typeMismatch wanted got := by
  induction ss generalizing acc ps with
  | nil => cases h
  | cons s ss ih =>
    cases ps with
    | nil => cases h
    | cons p ps =>
      cases s with
      | integer n =>
        simp only [addMultiples] at h
        cases hp : g.point? p with
        | some q =>
          rw [hp] at h
          obtain ⟨hbad, hf⟩ := ih h
          exact ⟨fun hgood => hbad ⟨hgood.1.tail, hgood.2.tail⟩, hf⟩
        | none =>
          rw [hp] at h
          cases h
          refine ⟨fun hgood => ?_, _, _, rfl⟩
          obtain ⟨q, hq⟩ := hg.point hgood.2.head.1
          rw [hp] at hq
          cases hq
      | _ =>
        cases h
        refine ⟨fun hgood => ?_, _, _, rfl⟩
        have htype := hgood.1.head.1
        cases htype

theorem profile_multiScale : Profile fn [.length, .length] Silent (multiScale g) := by
  refine profile_two rfl (fun _ => rfl) (fun _ _ _ _ => rfl) fun hs hp => ?_
  refine (reads_asListOf _).outcome hs fun scalars hscalars hintegers => ?_
  refine (reads_asListOf _).outcome hp fun points hpoints hgroup => ?_
  obtain rfl := asListOf_ok hscalars
  obtain rfl := asListOf_ok hpoints
  refine outcome_checked rfl (checks_map (fun h => ?_) hg.wrap)
  exact checks_of_items (fun htyped => ⟨hintegers htyped, hgroup htyped⟩) (addMultiples_error hg h)

end Points

theorem profile_miller : Profile fn [.memory, .memory] Silent miller := by
  refine profile_two rfl (fun _ => rfl) (fun _ _ _ _ => rfl) fun ha hb => ?_
  refine reads_asG1.outcome ha fun p _ _ => reads_asG2.outcome hb fun q _ _ => ?_
  exact outcome_total rfl fun _ => rfl

theorem profile_mulMiller : Profile fn [.memory, .memory] Silent mulMiller := by
  refine profile_two rfl (fun _ => rfl) (fun _ _ _ _ => rfl) fun ha hb => ?_
  refine reads_asMiller.outcome ha fun x _ _ => reads_asMiller.outcome hb fun y _ _ => ?_
  exact outcome_total rfl fun _ => rfl

theorem profile_finalVerify : Profile fn [.memory, .memory] Silent finalVerify := by
  refine profile_two rfl (fun _ => rfl) (fun _ _ _ _ => rfl) fun ha hb => ?_
  refine reads_asMiller.outcome ha fun x _ _ => reads_asMiller.outcome hb fun y _ _ => ?_
  exact outcome_total rfl fun _ => rfl

/-! ### Assets -/

theorem grants_bundle (x : Except AssetError Assets) : Grants args (bundle x) := by
  cases x with
  | ok a => exact .ok fun _ => rfl
  | error e => exact .error nofun

theorem profile_insertCoin (fn : Builtin) :
    Profile fn (List.replicate 4 .memory) Silent (insertCoin fn) where
  outcome {R args args'} hlen h := by
    rcases h with _ | ⟨hc, _ | ⟨ht, _ | ⟨hq, _ | ⟨hv, _ | _⟩⟩⟩⟩
    all_goals try cases hlen
    refine reads_asBytes.outcome hc fun currency hcurrency _ => ?_
    refine reads_asBytes.outcome ht fun token htoken _ => ?_
    refine reads_asInteger.outcome hq fun quantity hquantity _ => ?_
    refine reads_asAssets.outcome hv fun a _ _ => ?_
    rw [Value.asBytes_ok hcurrency, Value.asBytes_ok htoken, Value.asInteger_ok hquantity]
    exact outcome_guarded rfl (grants_bundle _)
  malformed {args} hlen := by
    rcases args with _ | ⟨c, _ | ⟨t, _ | ⟨q, _ | ⟨v, _ | ⟨_, rest⟩⟩⟩⟩⟩
    all_goals first | rfl | exact absurd rfl hlen

theorem profile_lookupCoin : Profile fn [.memory, .memory, .memory] Silent lookupCoin := by
  refine profile_three rfl (fun _ => rfl) (fun _ _ => rfl) (fun _ _ _ _ _ => rfl)
    fun hc ht hv => ?_
  refine reads_asBytes.outcome hc fun currency hcurrency _ => ?_
  refine reads_asBytes.outcome ht fun token htoken _ => reads_asAssets.outcome hv fun a _ _ => ?_
  rw [Value.asBytes_ok hcurrency, Value.asBytes_ok htoken]
  exact outcome_total rfl fun _ => rfl

theorem profile_unionValue (fn : Builtin) :
    Profile fn [.memory, .memory] Silent (unionValue fn) := by
  refine profile_two rfl (fun _ => rfl) (fun _ _ _ _ => rfl) fun hv hw => ?_
  refine reads_asAssets.outcome hv fun a _ _ => reads_asAssets.outcome hw fun b _ _ => ?_
  exact outcome_guarded rfl (grants_bundle _)

theorem profile_valueContains : Profile fn [.memory, .memory] Silent valueContains := by
  refine profile_two rfl (fun _ => rfl) (fun _ _ _ _ => rfl) fun hv hw => ?_
  refine reads_asAssets.outcome hv fun a _ _ => reads_asAssets.outcome hw fun b _ _ => ?_
  exact outcome_total rfl fun _ => rfl

theorem profile_valueData : Profile fn [.memory] Silent valueData := by
  refine profile_one rfl (fun _ _ _ => rfl) fun hv => ?_
  refine reads_asAssets.outcome hv fun a _ _ => ?_
  exact outcome_total rfl fun _ => rfl

theorem profile_unValueData (fn : Builtin) : Profile fn [.memory] Silent (unValueData fn) := by
  refine profile_one rfl (fun _ _ _ => rfl) fun hx => ?_
  refine reads_asData.outcome hx fun d _ _ => ?_
  exact outcome_guarded rfl (grants_bundle _)

theorem profile_scaleValue (fn : Builtin) :
    Profile fn [.memory, .memory] Silent (scaleValue fn) := by
  refine profile_two rfl (fun _ => rfl) (fun _ _ _ _ => rfl) fun hi hv => ?_
  refine reads_asInteger.outcome hi fun n hn _ => reads_asAssets.outcome hv fun a _ _ => ?_
  rw [Value.asInteger_ok hn]
  exact outcome_guarded rfl (grants_bundle _)

end PlutusCek.Call

namespace PlutusCek.Builtin

open Call

/-- **Every builtin has a profile**, for the measures of its operands and what it logs. -/
theorem profile (semantics : Semantics) (fn : Builtin) :
    Profile fn fn.measures fn.Logs (fn.prepare semantics) := by
  cases fn with
  | addInteger => exact profile_arithmetic _
  | subtractInteger => exact profile_arithmetic _
  | multiplyInteger => exact profile_arithmetic _
  | divideInteger => exact profile_division rfl _
  | quotientInteger => exact profile_division rfl _
  | remainderInteger => exact profile_division rfl _
  | modInteger => exact profile_division rfl _
  | equalsInteger => exact profile_compareIntegers _
  | lessThanInteger => exact profile_compareIntegers _
  | lessThanEqualsInteger => exact profile_compareIntegers _
  | appendByteString => exact profile_appendBytes
  | consByteString => exact profile_consByte _ _
  | sliceByteString => exact profile_sliceBytes
  | lengthOfByteString => exact profile_lengthBytes
  | indexByteString => exact profile_indexBytes _
  | equalsByteString => exact profile_compareBytes _
  | lessThanByteString => exact profile_compareBytes _
  | lessThanEqualsByteString => exact profile_compareBytes _
  | sha256 => exact profile_digest _
  | sha3 => exact profile_digest _
  | blake2b256 => exact profile_digest _
  | verifyEd25519Signature => exact profile_verify _ checkEd25519_ne_error
  | appendString => exact profile_appendString
  | equalsString => exact profile_equalsString
  | encodeUtf8 => exact profile_encodeString
  | decodeUtf8 => exact profile_decodeString _
  | ifThenElse => exact profile_ifThenElse
  | chooseUnit => exact profile_chooseUnit
  | trace => exact profile_trace
  | fstPair => exact profile_fstPair
  | sndPair => exact profile_sndPair
  | chooseList => exact profile_chooseList
  | mkCons => exact profile_mkCons
  | headList => exact profile_headList _
  | tailList => exact profile_tailList _
  | nullList => exact profile_nullList
  | chooseData => exact profile_chooseData
  | constrData => exact profile_constrData
  | mapData => exact profile_mapData
  | listData => exact profile_listData
  | iData => exact profile_integerData
  | bData => exact profile_bytesData
  | unConstrData => exact profile_takeData _ _ wellTyped_constrParts
  | unMapData => exact profile_takeData _ _ wellTyped_mapParts
  | unListData => exact profile_takeData _ _ wellTyped_listParts
  | unIData => exact profile_takeData _ _ wellTyped_integerPart
  | unBData => exact profile_takeData _ _ wellTyped_bytesPart
  | equalsData => exact profile_equalsData
  | mkPairData => exact profile_mkPairData
  | mkNilData => exact profile_mkNil _
  | mkNilPairData => exact profile_mkNil _
  | serialiseData => exact profile_serialiseData
  | verifyEcdsaSecp256k1Signature => exact profile_verify _ checkEcdsa_ne_error
  | verifySchnorrSecp256k1Signature => exact profile_verify _ checkSchnorr_ne_error
  | g1Add => exact profile_addPoints sound_first
  | g1Neg => exact profile_negPoint sound_first
  | g1ScalarMul => exact profile_scalePoint sound_first
  | g1Equal => exact profile_equalPoints sound_first
  | g1Compress => exact profile_compressPoint sound_first
  | g1Uncompress => exact profile_uncompressPoint sound_first _
  | g1HashToGroup => exact profile_hashToPoint sound_first _
  | g2Add => exact profile_addPoints sound_second
  | g2Neg => exact profile_negPoint sound_second
  | g2ScalarMul => exact profile_scalePoint sound_second
  | g2Equal => exact profile_equalPoints sound_second
  | g2Compress => exact profile_compressPoint sound_second
  | g2Uncompress => exact profile_uncompressPoint sound_second _
  | g2HashToGroup => exact profile_hashToPoint sound_second _
  | millerLoop => exact profile_miller
  | mulMiller => exact profile_mulMiller
  | finalVerify => exact profile_finalVerify
  | keccak => exact profile_digest _
  | blake2b224 => exact profile_digest _
  | integerToByteString => exact profile_integerToBytes _
  | byteStringToInteger => exact profile_bytesToInteger
  | andByteString => exact profile_logicalBytes _
  | orByteString => exact profile_logicalBytes _
  | xorByteString => exact profile_logicalBytes _
  | complementByteString => exact profile_complementBytes
  | readBit => exact profile_readBit _
  | writeBits => exact profile_writeBits _
  | replicateByte => exact profile_replicateBytes _
  | shiftByteString => exact profile_moveBits _
  | rotateByteString => exact profile_moveBits _
  | countSetBits => exact profile_measureBits _
  | findFirstSetBit => exact profile_measureBits _
  | ripemd160 => exact profile_digest _
  | expModInteger => exact profile_expMod _
  | dropList => exact profile_dropList
  | lengthOfArray => exact profile_lengthOfArray
  | listToArray => exact profile_listToArray
  | indexArray => exact profile_indexArray _
  | g1MultiScalarMul => exact profile_multiScale sound_first
  | g2MultiScalarMul => exact profile_multiScale sound_second
  | insertCoin => exact profile_insertCoin _
  | lookupCoin => exact profile_lookupCoin
  | unionValue => exact profile_unionValue _
  | valueContains => exact profile_valueContains
  | valueData => exact profile_valueData
  | unValueData => exact profile_unValueData _
  | scaleValue => exact profile_scaleValue _

/-- **Every builtin keeps its contract**, for the number of operands in its table entry. -/
theorem contract (semantics : Semantics) (fn : Builtin) :
    Contract fn fn.arity (fn.prepare semantics) := by
  rw [← fn.length_measures]
  exact (fn.profile semantics).contract

/-- **The tariff of every builtin**: what its operands are measured by, what it logs, and that only
a division rejects operands of the right types. -/
theorem tariff (semantics : Semantics) (fn : Builtin) :
    Tariff fn fn.measures fn.Logs (fn.prepare semantics) :=
  (fn.profile semantics).tariff

/-- **Builtin calls are uniform in their operands.** -/
theorem prepare_uniform (semantics : Semantics) (fn : Builtin) :
    Uniform fn.arity (fn.prepare semantics) := by
  rw [← fn.length_measures]
  exact (fn.profile semantics).uniform

end PlutusCek.Builtin
