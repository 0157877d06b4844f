import PageScript.Embedding.Stock
import PageScript.Proofs.Arrays.Sorting
import PageScript.Proofs.Elements
import PageScript.Proofs.Ending
import PageScript.Proofs.Numbers.Doubles

/-! # Equality with conversion

An object is converted only where the other side is a primitive that something can equal, so at most one of the
two sides runs any script, and it is the same one in either order.  What the conversion yields is a primitive,
and two primitives are compared at once.
-/

set_option autoImplicit false

namespace PageScript

/-- Whether a comparison with another value converts this one: it is an object, and the other value is a
primitive that is not nothing. -/
def Value.ConvertsFor (a b : Value) : Prop := a.id?.isSome ∧ b.id? = none ∧ b.isNothing = false

theorem Value.not_convertsFor {a b : Value} (h : a.id? = none) : ¬a.ConvertsFor b := by
  rintro ⟨hsome, -⟩
  rw [h] at hsome
  cases hsome

namespace Script

variable {a b : Value}

/-! ## Primitives -/

theorem toNumber_of_primitive (hb : b.id? = none) : ∃ y, toNumber b = pure y := by
  cases b with
  | object id receiver => cases hb
  | _ => exact ⟨_, rfl⟩

/-- With a primitive on one side it does not matter which side is converted first. -/
theorem primitivesEqual_comm (hb : b.id? = none) : primitivesEqual a b = primitivesEqual b a := by
  have hnumbers : (do return (← toNumber a).equal (← toNumber b) : Script Bool)
      = (do return (← toNumber b).equal (← toNumber a)) := by
    obtain ⟨y, hy⟩ := toNumber_of_primitive hb
    rw [hy]
    show (do return (← toNumber a).equal y : Script Bool) = (do return y.equal (← toNumber a))
    simp only [Number.equal_comm]
  cases b with
  | object id receiver => cases hb
  | undefined => cases a <;> rfl
  | null => cases a <;> rfl
  | string t =>
    cases a with
    | undefined => rfl
    | null => rfl
    | _ => exact congrArg pure BEq.comm
  | _ =>
    cases a with
    | undefined => rfl
    | null => rfl
    | string s => exact congrArg pure BEq.comm
    | _ => exact hnumbers

/-- Primitives are compared at once. -/
theorem primitivesEqual_settled (ha : a.id? = none) (hb : b.id? = none) :
    ∃ r, primitivesEqual a b = pure r := by
  obtain ⟨x, hx⟩ := toNumber_of_primitive ha
  obtain ⟨y, hy⟩ := toNumber_of_primitive hb
  unfold primitivesEqual
  split
  case h_7 => exact ⟨x.equal y, by rw [hx, hy]; rfl⟩
  all_goals exact ⟨_, rfl⟩

/-! ## Conversions -/

theorem raise_yields {α : Type} (P : α → Prop) (kind : ErrorKind) (message : String) :
    Yields P (raise kind message : Script α) := by
  have hnever : ∀ c, Yields P (abrupt c : Script α) := fun c e m v n hv => nomatch hv
  refine .after fun depth => ?_
  split
  · exact .after fun v => hnever _
  · refine .after fun going => ?_
    split
    · exact .after fun _ => hnever _
    · exact hnever _

theorem id?_eq_none (h : ∀ id receiver, some a = some (.object id receiver) → False) : a.id? = none := by
  cases a with
  | object id receiver => exact absurd rfl (h id receiver)
  | _ => rfl

/-- No object is left over by a conversion. -/
theorem toPrimitive_yields (v : Value) : Yields (·.id? = none) (toPrimitive v) := by
  cases v with
  | object id receiver =>
    have hbyText : Yields (·.id? = none) (primitiveByText id) := by
      refine .after fun found => ?_
      split
      · exact raise_yields _ _ _
      · exact raise_yields _ _ _
      · rename_i hp
        exact .pure (id?_eq_none fun id receiver h => hp id receiver (Option.some.inj h))
    refine .after fun found => ?_
    split
    · exact hbyText
    · exact hbyText
    · rename_i hp
      exact .pure (id?_eq_none fun id receiver h => hp id receiver (Option.some.inj h))
  | _ => exact .pure rfl

/-- Continuations that agree on all that may be yielded go on alike. -/
theorem Yields.bind_congr {α β : Type} {P : α → Prop} {x : Script α} {f g : α → Script β} (hx : Yields P x)
    (h : ∀ v, P v → f v = g v) : (x >>= f) = (x >>= g) := by
  funext e m
  show Script.bind x f e m = Script.bind x g e m
  unfold Script.bind
  cases ho : x e m with
  | value v n => exact congrFun (congrFun (h v (hx e m v n ho)) e) n
  | _ => rfl

/-! ## Equality -/

theorem looselyEqual_of_primitives (ha : a.id? = none) (hb : b.id? = none) :
    looselyEqual a b = primitivesEqual a b := by
  cases a with
  | object id receiver => cases ha
  | _ =>
    cases b with
    | object id receiver => cases hb
    | _ => rfl

/-- What an object is converted for comes first or second. -/
theorem looselyEqual_converted (id : ObjectId) (receiver : Option ObjectId) (hb : b.id? = none)
    (hsome : b.isNothing = false) :
    looselyEqual (.object id receiver) b = (do primitivesEqual (← toPrimitive (.object id receiver)) b) ∧
      looselyEqual b (.object id receiver) = (do primitivesEqual b (← toPrimitive (.object id receiver))) := by
  cases b with
  | object id receiver => cases hb
  | undefined => cases hsome
  | null => cases hsome
  | _ => exact ⟨rfl, rfl⟩

theorem looselyEqual_object_comm (id : ObjectId) (receiver : Option ObjectId) (b : Value) :
    looselyEqual (.object id receiver) b = looselyEqual b (.object id receiver) := by
  cases hnothing : b.isNothing with
  | true => cases b <;> first | rfl | cases hnothing
  | false =>
    cases hb : b.id? with
    | none =>
      obtain ⟨hfirst, hsecond⟩ := looselyEqual_converted id receiver hb hnothing
      rw [hfirst, hsecond]
      simp only [primitivesEqual_comm hb]
    | some other =>
      cases b with
      | object other receiver =>
        show (pure (id == other) : Script Bool) = pure (other == id)
        rw [BEq.comm]
      | _ => cases hb

theorem looselyEqual_comm (a b : Value) : looselyEqual a b = looselyEqual b a := by
  cases ha : a.id? with
  | some id =>
    cases a with
    | object id receiver => exact looselyEqual_object_comm id receiver b
    | _ => cases ha
  | none =>
    cases hb : b.id? with
    | some id =>
      cases b with
      | object id receiver => exact (looselyEqual_object_comm id receiver a).symm
      | _ => cases hb
    | none => rw [looselyEqual_of_primitives ha hb, looselyEqual_of_primitives hb ha, primitivesEqual_comm hb]

theorem looselyEqual_of_strictEquals (h : a.strictEquals b = true) : looselyEqual a b = pure true := by
  cases a with
  | boolean x =>
    cases b with
    | boolean y =>
      obtain rfl : x = y := eq_of_beq h
      have hself : ∀ n : Nat, n ≤ 1 → (Number.ofNat n).equal (.ofNat n) = true := by decide
      show (pure ((Number.ofNat _).equal (.ofNat _)) : Script Bool) = pure true
      rw [hself _ (by cases x <;> decide)]
    | _ => cases h
  | number x =>
    cases b with
    | number y =>
      have h : x.equal y = true := h
      show (pure (x.equal y) : Script Bool) = pure true
      rw [h]
    | _ => cases h
  | string s =>
    cases b with
    | string t => exact congrArg pure h
    | _ => cases h
  | object id receiver =>
    cases b with
    | object other receiver => exact congrArg pure h
    | _ => cases h
  | _ => cases b <;> first | rfl | cases h

/-- A comparison that converts a side goes on as the comparison of what it was converted to. -/
theorem looselyEqual_converts (h : a.ConvertsFor b) :
    looselyEqual a b = (do looselyEqual (← toPrimitive a) b) := by
  obtain ⟨ha, hb, hsome⟩ := h
  cases a with
  | object id receiver =>
    rw [(looselyEqual_converted id receiver hb hsome).1]
    exact (toPrimitive_yields _).bind_congr fun p hp => (looselyEqual_of_primitives hp hb).symm
  | _ => cases ha

/-- An object that is not converted is compared at once. -/
theorem looselyEqual_object_settled {id : ObjectId} {receiver : Option ObjectId}
    (h : ¬(Value.object id receiver).ConvertsFor b) : ∃ r, looselyEqual (.object id receiver) b = pure r := by
  cases b with
  | object other receiver => exact ⟨id == other, rfl⟩
  | undefined => exact ⟨false, rfl⟩
  | null => exact ⟨false, rfl⟩
  | _ => exact absurd ⟨rfl, rfl, rfl⟩ h

theorem looselyEqual_settled (ha : ¬a.ConvertsFor b) (hb : ¬b.ConvertsFor a) :
    ∃ r, looselyEqual a b = pure r := by
  cases hid : a.id? with
  | some id =>
    cases a with
    | object id receiver => exact looselyEqual_object_settled ha
    | _ => cases hid
  | none =>
    cases hid' : b.id? with
    | some id =>
      rw [looselyEqual_comm]
      cases b with
      | object id receiver => exact looselyEqual_object_settled hb
      | _ => cases hid'
    | none =>
      obtain ⟨r, hr⟩ := primitivesEqual_settled hid hid'
      exact ⟨r, (looselyEqual_of_primitives hid hid').trans hr⟩

/-- Equality with conversion is the same computation in either order, and what is strictly equal is equal without
running anything.  It converts an object to a primitive and goes on with that, or else is settled at once, so it
converts no more than one object; and it ends wherever the tasks do that the conversion performs. -/
theorem looselyEqual_symmetric (a b : Value) :
    looselyEqual a b = looselyEqual b a ∧
    (a.strictEquals b = true → looselyEqual a b = pure true) ∧
    (a.ConvertsFor b → looselyEqual a b = (do looselyEqual (← toPrimitive a) b) ∧
      Yields (fun p => ¬p.ConvertsFor b ∧ ¬b.ConvertsFor p) (toPrimitive a)) ∧
    (¬a.ConvertsFor b → ¬b.ConvertsFor a → ∃ r, looselyEqual a b = pure r) ∧
    ∀ (e : Engine) bound limit, e.Ends bound limit → e.Finishes bound limit (looselyEqual a b) := by
  refine ⟨looselyEqual_comm a b, looselyEqual_of_strictEquals, fun h => ⟨looselyEqual_converts h, ?_⟩,
    looselyEqual_settled, fun e bound limit he => (Regular.looselyEqual a b).composed.finishes he⟩
  intro e m p n hp
  exact ⟨Value.not_convertsFor (toPrimitive_yields a e m p n hp), Value.not_convertsFor h.2.1⟩

/-- An object that is converted by its `toString`, and values that are compared as they are. -/
theorem looselyEqual_symmetric_error :
    let a := Value.ref (Intrinsic.error .type)
    let b := Value.string "TypeError"
    let host := (Stock.host (Stock.scripted (some 50) [] [])).unhooked
    let e := Engine.upTo {} host 200
    let m := Interpreter.initialMachine {}
    a.ConvertsFor b ∧ a.strictEquals a = true ∧ ¬Value.null.ConvertsFor a ∧ ¬a.ConvertsFor .null ∧
      e.Ends 50 200 ∧ (∃ n, looselyEqual a b e m = .value true n) ∧ (∃ n, looselyEqual b a e m = .value true n) ∧
      looselyEqual a a = pure true ∧ (∃ r, looselyEqual .null a = pure r) ∧
      looselyEqual a b = (do looselyEqual (← toPrimitive a) b) ∧ e.Finishes 50 200 (looselyEqual a b) := by
  intro a b host e m
  have hcancels : host.CancelsBeyond 50 := fun _ _ hbeyond => ⟨none, if_neg (Nat.not_le.2 hbeyond)⟩
  have hends : e.Ends 50 200 := performUpTo_ends (Host.unhooked_composed (Stock.host_composed _))
    (Host.unhooked_atOnce _) hcancels 200
  have hequal : ∃ n, looselyEqual a b e m = .value true n :=
    Outcome.value?_eq_some (show (looselyEqual a b e m).value? = some true by decide +kernel)
  have hconverts : a.ConvertsFor b := ⟨rfl, rfl, rfl⟩
  have hnull : ¬Value.null.ConvertsFor a := Value.not_convertsFor rfl
  have hobject : ¬a.ConvertsFor .null := fun h => nomatch h.2.2
  obtain ⟨hcomm, -, hleft, -, hfinishes⟩ := looselyEqual_symmetric a b
  exact ⟨hconverts, rfl, hnull, hobject, hends, hequal, hcomm ▸ hequal, (looselyEqual_symmetric a a).2.1 rfl,
    (looselyEqual_symmetric .null a).2.2.2.1 hnull hobject, (hleft hconverts).1, hfinishes e 50 200 hends⟩

end Script

end PageScript
