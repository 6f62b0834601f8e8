import PlutusCek.Proofs.Typed
import PlutusCek.Proofs.Uniform

/-!
# Proofs.Contract — what every builtin call keeps to

A builtin takes as many operands as its table entry says, and reports any other number as a
malformed call.  It rejects operands by naming a type, by handing back the term of the operand that
is no constant, or by a refusal in its own name.  A call it accepts is charged by sizes that are not
negative, and gives one of its operands or a constant, or is refused in the builtin's name.  The
constant is well typed if the constants among the operands are, and then the call cannot find an
item of the wrong type any more (`Call.Contract`).  Operands are read one by one: each reading takes
constants of one form, and fails in the ways in which a call may reject its operands (`Call.Reads`).
-/

namespace PlutusCek.Value

/-- A reading that takes only the constants made by `wrap` gives back what was wrapped. -/
theorem eq_of_inspect {α : Type} {wanted : String} {inspect : Constant → Except Failure α}
    (wrap : α → Constant) (hinspect : ∀ {c x}, inspect c = .ok x → c = wrap x) {v : Value} {x : α}
    (h : (v.asConstant wanted >>= inspect) = .ok x) : v = .con (wrap x) := by
  cases v with
  | con c =>
    have hx : inspect c = .ok x := h
    rw [hinspect hx]
  | _ => cases h

theorem asInteger_ok {v : Value} {n : Int} (h : v.asInteger = .ok n) : v = .con (.integer n) :=
  eq_of_inspect .integer (fun {c _} h => by cases c <;> cases h; rfl) h

theorem asBytes_ok {v : Value} {b : Bytes} (h : v.asBytes = .ok b) : v = .con (.bytes b) :=
  eq_of_inspect .bytes (fun {c _} h => by cases c <;> cases h; rfl) h

theorem asString_ok {v : Value} {s : String} (h : v.asString = .ok s) : v = .con (.string s) :=
  eq_of_inspect .string (fun {c _} h => by cases c <;> cases h; rfl) h

theorem asBool_ok {v : Value} {b : Bool} (h : v.asBool = .ok b) : v = .con (.bool b) :=
  eq_of_inspect .bool (fun {c _} h => by cases c <;> cases h; rfl) h

theorem asData_ok {v : Value} {d : Data} (h : v.asData = .ok d) : v = .con (.data d) :=
  eq_of_inspect .data (fun {c _} h => by cases c <;> cases h; rfl) h

theorem asList_ok {v : Value} {x : ConstType × List Constant} (h : v.asList = .ok x) :
    v = .con (.list x.1 x.2) :=
  eq_of_inspect (fun x => .list x.1 x.2) (fun {c _} h => by cases c <;> cases h; rfl) h

end PlutusCek.Value

namespace PlutusCek.Call

variable {fn : Builtin} {args : List Value}

/-- The constants among the operands are well typed. -/
def Typed (args : List Value) : Prop := ∀ c, Value.con c ∈ args → c.WellTyped

/-- How operands are rejected before a call is charged for. -/
inductive Rejection (fn : Builtin) (args : List Value) : Failure → Prop
  | mismatch (wanted got : String) : Rejection fn args (.typeMismatch wanted got)
  | notConstant {v : Value} (hv : v ∈ args) (wanted : String) :
    Rejection fn args (.notConstant wanted v.toTerm)
  | refused (why : Refusal) : Rejection fn args (.refused fn why)

/-- How a call fails once it has been charged for: a refusal, or an item of the wrong type. -/
inductive Breach (fn : Builtin) (args : List Value) : Failure → Prop
  | refused (why : Refusal) : Breach fn args (.refused fn why)
  | mismatch (h : ¬ Typed args) (wanted got : String) : Breach fn args (.typeMismatch wanted got)

/-- What a prepared call keeps to. -/
structure Keeps (fn : Builtin) (args : List Value) (call : Call) : Prop where
  size : ∀ i, 0 ≤ (call.size i).toInt
  failure : ∀ {f}, call.perform () = .error f → Breach fn args f
  reply : ∀ {r}, call.perform () = .ok r →
    r.value ∈ args ∨ ∃ c, r.value = .con c ∧ (Typed args → c.WellTyped)

/-- What comes of preparing a call. -/
inductive Prepared (fn : Builtin) (args : List Value) : Except Failure Call → Prop
  | error {f : Failure} (h : Rejection fn args f) : Prepared fn args (.error f)
  | ok {call : Call} (h : call.Keeps fn args) : Prepared fn args (.ok call)

/-- A preparation for a builtin that takes `n` operands. -/
structure Contract (fn : Builtin) (n : Nat) (prepare : List Value → Except Failure Call) :
    Prop where
  prepared : ∀ {args}, args.length = n → Prepared fn args (prepare args)
  malformed : ∀ {args}, args.length ≠ n → prepare args = .error .malformedCall

section Conclusions

variable {n : Nat} {prepare : List Value → Except Failure Call} (hc : Contract fn n prepare)
include hc

theorem Contract.of_ok {call : Call} (h : prepare args = .ok call) :
    args.length = n ∧ call.Keeps fn args := by
  by_cases hlen : args.length = n
  · have hp := hc.prepared hlen
    rw [h] at hp
    cases hp with
    | ok hkeeps => exact ⟨hlen, hkeeps⟩
  · rw [hc.malformed hlen] at h
    cases h

theorem Contract.of_error {f : Failure} (h : prepare args = .error f) :
    args.length = n ∧ Rejection fn args f ∨ args.length ≠ n ∧ f = .malformedCall := by
  by_cases hlen : args.length = n
  · have hp := hc.prepared hlen
    rw [h] at hp
    cases hp with
    | error hreject => exact .inl ⟨hlen, hreject⟩
  · rw [hc.malformed hlen] at h
    cases h
    exact .inr ⟨hlen, rfl⟩

/-- A call is malformed exactly if the number of operands is wrong. -/
theorem Contract.malformed_iff : prepare args = .error .malformedCall ↔ args.length ≠ n := by
  refine ⟨fun h => ?_, hc.malformed⟩
  rcases hc.of_error h with ⟨-, hreject⟩ | ⟨hlen, -⟩
  · cases hreject
  · exact hlen

end Conclusions

/-! ### Reading operands -/

/-- A reading of constants, the same for values with the same term.  What it reads off a well-typed
constant is good. -/
structure Reads {α : Type} (read : Value → Except Failure α) (Good : α → Prop) : Prop where
  same : Reading read
  ok : ∀ {v x}, read v = .ok x → ∃ c, v = .con c ∧ (c.WellTyped → Good x)
  error : ∀ {v f}, read v = .error f →
    (∃ wanted got, f = .typeMismatch wanted got) ∨ ∃ wanted, f = .notConstant wanted v.toTerm

theorem reads_asConstant (wanted : String) :
    Reads (Value.asConstant wanted) Constant.WellTyped where
  same := reading_asConstant wanted
  ok {v x} h := by
    cases v with
    | con c =>
      cases h
      exact ⟨_, rfl, id⟩
    | _ => cases h
  error {v f} h := by
    cases v with
    | con c => cases h
    | _ =>
      cases h
      exact .inr ⟨wanted, rfl⟩

/-- Reading a constant and then inspecting it. -/
theorem reads_inspect {α : Type} {wanted : String} {inspect : Constant → Except Failure α}
    {Good : α → Prop}
    (h : ∀ c, (∃ x, inspect c = .ok x ∧ (c.WellTyped → Good x)) ∨
      ∃ wanted got, inspect c = .error (.typeMismatch wanted got)) :
    Reads (fun v => v.asConstant wanted >>= inspect) Good where
  same v w hterm := by
    show (v.asConstant wanted >>= inspect) = (w.asConstant wanted >>= inspect)
    rw [reading_asConstant wanted hterm]
  ok {v x} hx := by
    cases v with
    | con c =>
      have hx : inspect c = .ok x := hx
      rcases h c with ⟨y, hy, hgood⟩ | ⟨wanted, got, herr⟩
      · rw [hy] at hx
        cases hx
        exact ⟨c, rfl, hgood⟩
      · rw [herr] at hx
        cases hx
    | _ => cases hx
  error {v f} hf := by
    cases v with
    | con c =>
      have hf : inspect c = .error f := hf
      rcases h c with ⟨y, hy, -⟩ | ⟨wanted, got, herr⟩
      · rw [hy] at hf
        cases hf
      · rw [herr] at hf
        cases hf
        exact .inl ⟨wanted, got, rfl⟩
    | _ =>
      cases hf
      exact .inr ⟨wanted, rfl⟩

/-- Nothing is asked of what is read. -/
abbrev Any {α : Type} (_ : α) : Prop := True

theorem reads_asInteger : Reads Value.asInteger Any := by
  refine reads_inspect fun c => ?_
  cases c with
  | integer n => exact .inl ⟨n, rfl, fun _ => trivial⟩
  | _ => exact .inr ⟨_, _, rfl⟩

theorem reads_asBytes : Reads Value.asBytes Any := by
  refine reads_inspect fun c => ?_
  cases c with
  | bytes b => exact .inl ⟨b, rfl, fun _ => trivial⟩
  | _ => exact .inr ⟨_, _, rfl⟩

theorem reads_asString : Reads Value.asString Any := by
  refine reads_inspect fun c => ?_
  cases c with
  | string s => exact .inl ⟨s, rfl, fun _ => trivial⟩
  | _ => exact .inr ⟨_, _, rfl⟩

theorem reads_asBool : Reads Value.asBool Any := by
  refine reads_inspect fun c => ?_
  cases c with
  | bool b => exact .inl ⟨b, rfl, fun _ => trivial⟩
  | _ => exact .inr ⟨_, _, rfl⟩

theorem reads_asUnit : Reads Value.asUnit Any := by
  refine reads_inspect fun c => ?_
  cases c with
  | unit => exact .inl ⟨(), rfl, fun _ => trivial⟩
  | _ => exact .inr ⟨_, _, rfl⟩

theorem reads_asData : Reads Value.asData Any := by
  refine reads_inspect fun c => ?_
  cases c with
  | data d => exact .inl ⟨d, rfl, fun _ => trivial⟩
  | _ => exact .inr ⟨_, _, rfl⟩

theorem reads_asG1 : Reads Value.asG1 Any := by
  refine reads_inspect fun c => ?_
  cases c with
  | g1 p => exact .inl ⟨p, rfl, fun _ => trivial⟩
  | _ => exact .inr ⟨_, _, rfl⟩

theorem reads_asG2 : Reads Value.asG2 Any := by
  refine reads_inspect fun c => ?_
  cases c with
  | g2 p => exact .inl ⟨p, rfl, fun _ => trivial⟩
  | _ => exact .inr ⟨_, _, rfl⟩

theorem reads_asMiller : Reads Value.asMiller Any := by
  refine reads_inspect fun c => ?_
  cases c with
  | miller r => exact .inl ⟨r, rfl, fun _ => trivial⟩
  | _ => exact .inr ⟨_, _, rfl⟩

theorem reads_asAssets : Reads Value.asAssets Any := by
  refine reads_inspect fun c => ?_
  cases c with
  | assets a => exact .inl ⟨a, rfl, fun _ => trivial⟩
  | _ => exact .inr ⟨_, _, rfl⟩

/-- Items of the declared type. -/
def GoodItems (x : ConstType × List Constant) : Prop := ∀ c ∈ x.2, c.type = x.1 ∧ c.WellTyped

section Items

variable {t : ConstType} {c : Constant} {cs : List Constant} (h : GoodItems (t, c :: cs))
include h

theorem GoodItems.head : c.type = t ∧ c.WellTyped := h c List.mem_cons_self

theorem GoodItems.tail : GoodItems (t, cs) := fun e he => h e (List.mem_cons_of_mem c he)

end Items

theorem reads_asList : Reads Value.asList GoodItems := by
  refine reads_inspect fun c => ?_
  cases c with
  | list t items => exact .inl ⟨(t, items), rfl, Constant.wellTyped_list.1⟩
  | _ => exact .inr ⟨_, _, rfl⟩

theorem reads_asArray : Reads Value.asArray GoodItems := by
  refine reads_inspect fun c => ?_
  cases c with
  | array t items => exact .inl ⟨(t, items), rfl, Constant.wellTyped_array.1⟩
  | _ => exact .inr ⟨_, _, rfl⟩

theorem reads_asPair :
    Reads Value.asPair fun x : Constant × Constant => x.1.WellTyped ∧ x.2.WellTyped := by
  refine reads_inspect fun c => ?_
  cases c with
  | pair s t a b =>
    refine .inl ⟨(a, b), rfl, fun h => ?_⟩
    obtain ⟨⟨-, ha⟩, -, hb⟩ := Constant.wellTyped_pair.1 h
    exact ⟨ha, hb⟩
  | _ => exact .inr ⟨_, _, rfl⟩

/-- The items of a list declared with item type `t`. -/
def itemsOf (t : ConstType) : Constant → Except Failure (List Constant)
  | .list s items =>
    if s = t then .ok items
    else .error (.typeMismatch (ConstType.list t).render (ConstType.list s).render)
  | c => .error (Value.mismatch "list" c)

theorem asListOf_eq (t : ConstType) (v : Value) :
    v.asListOf t = v.asConstant "list" >>= itemsOf t := by
  cases v with
  | con c => cases c <;> rfl
  | _ => rfl

theorem asListOf_ok {t : ConstType} {v : Value} {items : List Constant}
    (h : v.asListOf t = .ok items) : v = .con (.list t items) := by
  rw [asListOf_eq] at h
  refine Value.eq_of_inspect (.list t) (fun {c x} hc => ?_) h
  cases c with
  | list s xs =>
    simp only [itemsOf] at hc
    split at hc
    · rename_i hs
      cases hc
      rw [hs]
    · cases hc
  | _ => cases hc

theorem reads_asListOf (t : ConstType) :
    Reads (Value.asListOf t) fun items => GoodItems (t, items) := by
  have heq : Value.asListOf t = fun v => v.asConstant "list" >>= itemsOf t :=
    funext (asListOf_eq t)
  rw [heq]
  refine reads_inspect fun c => ?_
  cases c with
  | list s items =>
    by_cases hs : s = t
    · subst hs
      exact .inl ⟨items, if_pos rfl, Constant.wellTyped_list.1⟩
    · exact .inr ⟨_, _, if_neg hs⟩
  | _ => exact .inr ⟨_, _, rfl⟩

end PlutusCek.Call
