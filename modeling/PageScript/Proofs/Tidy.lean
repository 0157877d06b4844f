import Mathlib.Data.List.Nodup
import PageScript.Evaluation.Calls
import PageScript.Proofs.Collection.Slots

/-! # Tidy objects

An object is tidy if none of the values in its variables remembers a receiver and, where names are asked to
be unique, no two of its variables have the same name.  Changes that look for a variable before they add one
keep an object tidy whatever stands in it; those that add a variable unasked do so if the name is new.
-/

set_option autoImplicit false

namespace PageScript

/-! ## Values -/

@[simp]
theorem Value.receiver?_unbound (v : Value) : v.unbound.receiver? = none := by
  cases v <;> rfl

namespace Object

/-! ## Names of members -/

/-- The names of the variables of an object, in their order. -/
def names (o : Object) : List String := o.members.toList.map Variable.name

variable {unique : Prop} {o : Object} {name : String} {f : Variable → Variable} {x : Variable}

theorem has_iff : o.has name = true ↔ name ∈ o.names := by
  rw [has, ← Array.any_toList, List.any_eq_true, names, List.mem_map]
  exact exists_congr fun x => and_congr_right fun _ => beq_iff_eq

theorem has_eq_false : o.has name = false ↔ name ∉ o.names := by
  rw [← has_iff, Bool.not_eq_true]

theorem find?_eq_none : o.find? name = none ↔ name ∉ o.names := by
  rw [find?, Array.find?_eq_none, names, List.mem_map]
  constructor
  · rintro h ⟨x, hx, hname⟩
    exact h x (Array.mem_toList_iff.1 hx) (beq_iff_eq.2 hname)
  · intro h x hx hname
    exact h ⟨x, Array.mem_toList_iff.2 hx, beq_iff_eq.1 hname⟩

theorem findIdx?_eq_none : o.members.findIdx? (·.name == name) = none ↔ name ∉ o.names := by
  rw [← find?_eq_none, find?, Array.findIdx?_eq_none_iff, Array.find?_eq_none]
  exact forall₂_congr fun x _ => (Bool.not_eq_true _).symm.to_iff

@[simp]
theorem names_push (x : Variable) (o : Object) : (o.push x).names = o.names ++ [x.name] := by
  rw [names, push, Array.toList_push, List.map_append]
  rfl

theorem names_modify (hf : ∀ x, (f x).name = x.name) (members : Array Variable) (i : Nat) :
    (members.modify i f).toList.map Variable.name = members.toList.map Variable.name := by
  refine List.ext_getElem? fun k => ?_
  rw [List.getElem?_map, List.getElem?_map, Array.getElem?_toList, Array.getElem?_toList,
    Array.getElem?_modify]
  split
  · rw [Option.map_map]
    exact Option.map_congr fun x _ => hf x
  · rfl

/-- A variable that is there keeps its place, and a new one comes behind the others. -/
theorem names_updateOrPush (hf : ∀ x, (f x).name = x.name) (name : String) (o : Object) :
    (o.updateOrPush name f).names = if name ∈ o.names then o.names else o.names ++ [name] := by
  unfold updateOrPush
  cases hi : o.members.findIdx? (·.name == name) with
  | none =>
    rw [if_neg (findIdx?_eq_none.1 hi)]
    dsimp only
    rw [names_push, hf]
    rfl
  | some i =>
    have hmem : name ∈ o.names := by
      by_contra h
      rw [findIdx?_eq_none.2 h] at hi
      cases hi
    rw [if_pos hmem]
    exact names_modify hf _ _

/-! ## Tidy objects -/

/-- No value in the variables of an object remembers a receiver, and no two of the variables have the same
name if names are to be unique. -/
structure Tidy (unique : Prop) (o : Object) : Prop where
  distinct : unique → o.names.Nodup
  unbound : ∀ x ∈ o.members, x.value.receiver? = none

theorem tidy_empty (proto : Option ObjectId) : (Object.empty proto).Tidy unique :=
  ⟨fun _ => List.nodup_nil, fun _ hx => absurd hx (Array.not_mem_empty _)⟩

namespace Tidy

variable {value : Value}

/-- The other fields of an object play no part. -/
theorem congr {o' : Object} (h : o.Tidy unique) (hmembers : o'.members = o.members) : o'.Tidy unique :=
  ⟨fun hu => by rw [names, hmembers]; exact h.distinct hu, by rw [hmembers]; exact h.unbound⟩

/-- Where names are unique, they may also be left alone. -/
theorem weaken (h : o.Tidy True) : o.Tidy unique := ⟨fun _ => h.distinct trivial, h.unbound⟩

theorem push (h : o.Tidy unique) (hnew : unique → x.name ∉ o.names) (hx : x.value.receiver? = none) :
    (o.push x).Tidy unique := by
  refine ⟨fun hu => ?_, fun y hy => ?_⟩
  · rw [names_push, List.nodup_append]
    refine ⟨h.distinct hu, List.nodup_singleton _, fun a ha b hb => ?_⟩
    cases List.mem_singleton.1 hb
    exact fun hab => hnew hu (hab ▸ ha)
  · rcases Array.mem_push.1 hy with hy | rfl
    · exact h.unbound y hy
    · exact hx

theorem modify (h : o.Tidy unique) (hf : ∀ x, (f x).name = x.name)
    (hvalue : ∀ x, x.value.receiver? = none → (f x).value.receiver? = none) (i : Nat) :
    ({ o with members := o.members.modify i f } : Object).Tidy unique := by
  refine ⟨fun hu => ?_, fun x hx => ?_⟩
  · rw [names, names_modify hf]
    exact h.distinct hu
  · obtain ⟨k, hk⟩ := Array.mem_iff_getElem?.1 hx
    rw [Array.getElem?_modify] at hk
    split at hk
    · obtain ⟨y, hy, rfl⟩ := Option.map_eq_some_iff.1 hk
      exact hvalue y (h.unbound y (Array.mem_of_getElem? hy))
    · exact h.unbound x (Array.mem_of_getElem? hk)

theorem update (h : o.Tidy unique) (name : String) (hf : ∀ x, (f x).name = x.name)
    (hvalue : ∀ x, x.value.receiver? = none → (f x).value.receiver? = none) :
    (o.update name f).Tidy unique := by
  unfold Object.update
  split
  · exact h.modify hf hvalue _
  · exact h

theorem updateOrPush (h : o.Tidy unique) (name : String) (hf : ∀ x, (f x).name = x.name)
    (hvalue : ∀ x, x.value.receiver? = none → (f x).value.receiver? = none) :
    (o.updateOrPush name f).Tidy unique := by
  unfold Object.updateOrPush
  cases hi : o.members.findIdx? (·.name == name) with
  | none =>
    refine h.push (fun _ => ?_) (hvalue _ rfl)
    rw [hf]
    exact findIdx?_eq_none.1 hi
  | some i => exact h.modify hf hvalue i

theorem put (h : o.Tidy unique) (name : String) (hv : value.receiver? = none) :
    (o.put name value).Tidy unique := h.updateOrPush name (fun _ => rfl) fun _ _ => hv

theorem putHidden (h : o.Tidy unique) (name : String) (hv : value.receiver? = none) :
    (o.putHidden name value).Tidy unique := h.updateOrPush name (fun _ => rfl) fun _ _ => hv

/-- What only leaves variables out keeps an object tidy. -/
theorem sublist (h : o.Tidy unique) (members : Array Variable)
    (hsub : members.toList.Sublist o.members.toList) :
    ({ o with members := members } : Object).Tidy unique :=
  ⟨fun hu => (h.distinct hu).sublist (hsub.map _), fun x hx =>
    h.unbound x (Array.mem_toList_iff.1 (hsub.subset (Array.mem_toList_iff.2 hx)))⟩

theorem remove (h : o.Tidy unique) (name : String) : (o.remove name).Tidy unique := by
  unfold Object.remove
  split
  · refine h.sublist _ ?_
    rw [Array.toList_eraseIdxIfInBounds]
    exact List.eraseIdx_sublist _ _
  · exact h

theorem declare (h : o.Tidy unique) (name : String) :
    (if o.has name then o
      else o.push { Variable.plain name .undefined with permanent := true }).Tidy unique := by
  cases hname : o.has name with
  | true => exact h
  | false => exact h.push (fun _ => has_eq_false.1 hname) rfl

theorem addElement (h : o.Tidy unique) (hnew : name ∉ o.names) (index : Nat) :
    (o.addElement name index).Tidy unique := by
  have hpush : (o.push (.plain name .undefined)).Tidy unique := h.push (fun _ => hnew) rfl
  unfold Object.addElement
  dsimp only
  split
  · exact hpush.congr rfl
  · exact hpush

theorem setLength (h : o.Tidy unique) (current length : Nat) : (o.setLength current length).Tidy unique := by
  unfold Object.setLength
  dsimp only
  split
  · refine (h.sublist (o.members.filter _) ?_).congr rfl
    rw [Array.toList_filter]
    exact List.filter_sublist
  · exact h.congr rfl

theorem makeArray (h : o.Tidy unique) (self : ObjectId) (length : Nat) :
    (o.makeArray self length).Tidy unique := by
  have hpayload : Tidy unique { o with payload := .array length, additionHook := some .arrayIndex } :=
    h.congr rfl
  exact hpayload.updateOrPush "length" (fun _ => rfl) fun _ hx => hx

theorem putParameters (h : o.Tidy unique) (parameters : List String) (args : List Value) :
    (Script.Object.putParameters parameters args o).Tidy unique := by
  unfold Script.Object.putParameters
  generalize parameters.zipIdx = items
  induction items generalizing o with
  | nil => exact h
  | cons item items ih => exact ih (h.put item.1 (Value.receiver?_unbound _))

theorem addArguments (h : o.Tidy unique) (arguments : ObjectId) :
    (Script.Object.addArguments arguments o).Tidy unique := by
  unfold Script.Object.addArguments
  cases hname : o.has "arguments" with
  | true => exact h
  | false => exact h.push (fun _ => has_eq_false.1 hname) rfl

/-! ## Several variables at once -/

/-- Variables of different names that are all new may be added one after the other. -/
theorem foldl_push {β : Type} {step : Object → β → Object} {made : β → Variable}
    (hstep : ∀ o b, step o b = o.push (made b)) (h : o.Tidy unique) {items : List β}
    (hdistinct : (items.map fun b => (made b).name).Nodup)
    (hnew : ∀ b ∈ items, (made b).name ∉ o.names)
    (hvalue : ∀ b ∈ items, (made b).value.receiver? = none) : (items.foldl step o).Tidy unique := by
  induction items generalizing o with
  | nil => exact h
  | cons b items ih =>
    rw [List.map_cons, List.nodup_cons] at hdistinct
    rw [List.foldl_cons, hstep]
    refine ih (h.push (fun _ => hnew b (.head _)) (hvalue b (.head _))) hdistinct.2 (fun c hc hmem => ?_)
      fun c hc => hvalue c (.tail _ hc)
    rw [names_push, List.mem_append, List.mem_singleton] at hmem
    rcases hmem with hmem | hmem
    · exact hnew c (.tail _ hc) hmem
    · exact hdistinct.1 (hmem ▸ List.mem_map_of_mem hc)

end Tidy

/-! ## Elements of new arrays -/

/-- An array without elements only has its length. -/
theorem names_newArray (proto : Option ObjectId) (self : ObjectId) (length : Nat) :
    ((Object.empty proto).makeArray self length).names = ["length"] := by
  let hooked (x : Variable) : Variable :=
    { x with link := .hook .arrayLength self, hidden := true, permanent := true }
  exact names_updateOrPush (f := hooked) (fun _ => rfl) _ _

end Object

/-! ## Indices as names -/

namespace ArrayIndex

theorem toList_name (i : Nat) : (name i).toList = Nat.toDigits 10 i := by
  rw [name, Nat.repr_eq_ofList_toDigits, String.toList_ofList]

theorem name_injective : Function.Injective name := fun i j h => by
  have hdigits : Nat.toDigits 10 i = Nat.toDigits 10 j := by
    rw [← toList_name, ← toList_name, h]
  rw [← Nat.ofDigitChars_ten_toDigits (n := i), hdigits, Nat.ofDigitChars_ten_toDigits]

/-- The name of an index consists of digits. -/
theorem isDigit_of_mem_name {i : Nat} {c : Char} (hc : c ∈ (name i).toList) : c.isDigit = true := by
  rw [toList_name] at hc
  exact Nat.isDigit_of_mem_toDigits (by decide) (by decide) hc

theorem name_ne_length (i : Nat) : name i ≠ "length" := fun h =>
  absurd (isDigit_of_mem_name (i := i) (c := 'l') (h ▸ by decide)) (by decide)

end ArrayIndex

namespace Object

/-- Elements at different indices may be added to an array without any. -/
theorem tidy_elements {unique : Prop} {β : Type} (made : β → Variable) (index : β → Nat)
    {step : Object → β → Object} (hstep : ∀ o b, step o b = o.push (made b)) {items : List β}
    (hname : ∀ b ∈ items, (made b).name = ArrayIndex.name (index b)) (hdistinct : (items.map index).Nodup)
    (hvalue : ∀ b ∈ items, (made b).value.receiver? = none) {o : Object} (ho : o.Tidy unique)
    (hlength : o.names = ["length"]) : (items.foldl step o).Tidy unique := by
  refine ho.foldl_push hstep ?_ (fun b hb => ?_) hvalue
  · rw [List.map_congr_left (g := ArrayIndex.name ∘ index) hname, ← List.map_map]
    exact hdistinct.map ArrayIndex.name_injective
  · rw [hlength, hname b hb, List.mem_singleton]
    exact ArrayIndex.name_ne_length _

end Object

/-! ## Tidy heaps -/

namespace Heap

/-- All objects of a heap are tidy. -/
def Tidy (unique : Prop) (h : Heap) : Prop := ∀ a o, h.get? a = some o → o.Tidy unique

/-- Whether a change keeps the object in a slot tidy. -/
def Neat (unique : Prop) (h : Heap) (a : ObjectId) (f : Object → Object) : Prop :=
  ∀ o, h.get? a = some o → o.Tidy unique → (f o).Tidy unique

variable {unique : Prop} {h n : Heap} {a b : ObjectId} {o o' : Object} {name : String}

theorem owns_eq_has (ho : h.get? a = some o) : h.owns a name = o.has name := by
  rw [owns, ho]

/-- A name that an object does not own is none of its names. -/
theorem not_mem_names (howns : h.owns a name = false) (ho : h.get? a = some o) : name ∉ o.names := by
  rw [owns_eq_has ho] at howns
  exact Object.has_eq_false.1 howns

theorem of_get?_modify {f : Object → Object} (ho : (h.modify a f).get? a = some o) :
    ∃ o', h.get? a = some o' ∧ o = f o' := by
  rw [modify, get?_modifySlot, if_pos rfl, Option.map_eq_some_iff] at ho
  obtain ⟨s, hs, rfl⟩ := ho
  exact ⟨s.object, by rw [get?, hs]; rfl, rfl⟩

/-! ### New objects -/

/-- What stands in a heap in which one more object was made. -/
theorem get?_alloc (hb : (h.alloc o).2.get? b = some o') :
    b = (h.alloc o).1 ∧ o' = o ∨ b ≠ (h.alloc o).1 ∧ h.get? b = some o' := by
  rw [get?, slot?] at hb
  unfold alloc at hb ⊢
  cases hfree : h.free with
  | nil =>
    simp only [hfree, Array.getElem?_push] at hb
    split at hb
    · rename_i hindex
      cases hb
      exact .inl ⟨congrArg ObjectId.mk hindex, rfl⟩
    · rename_i hindex
      exact .inr ⟨fun he => hindex (congrArg ObjectId.index he), hb⟩
  | cons i free =>
    simp only [hfree, Array.getElem?_setIfInBounds] at hb
    split at hb
    · rename_i hindex
      split at hb
      · cases hb
        exact .inl ⟨congrArg ObjectId.mk hindex.symm, rfl⟩
      · cases hb
    · rename_i hindex
      exact .inr ⟨fun he => hindex (congrArg ObjectId.index he).symm, hb⟩

/-- The slot of a new object holds nothing else. -/
theorem get?_alloc_self (hb : (h.alloc o).2.get? (h.alloc o).1 = some o') : o' = o :=
  (get?_alloc hb).elim And.right fun hne => absurd rfl hne.1

/-! ### Changes -/

theorem Tidy.modifySlot (ht : h.Tidy unique) {f : Slot → Slot}
    (hf : ∀ s, h.slot? a = some s → s.object.Tidy unique → (f s).object.Tidy unique) :
    (h.modifySlot a f).Tidy unique := by
  intro b o ho
  rw [get?_modifySlot] at ho
  split at ho
  · rename_i hab
    subst hab
    obtain ⟨s, hs, rfl⟩ := Option.map_eq_some_iff.1 ho
    exact hf s hs (ht a s.object (by rw [get?, hs]; rfl))
  · exact ht b o ho

theorem Tidy.modify (ht : h.Tidy unique) {f : Object → Object} (hf : h.Neat unique a f) :
    (h.modify a f).Tidy unique := ht.modifySlot fun s hs => hf s.object (by rw [get?, hs]; rfl)

theorem Tidy.pins (ht : h.Tidy unique) {f : Slot → Slot} (hf : ∀ s, (f s).object = s.object) :
    (h.modifySlot a f).Tidy unique := ht.modifySlot fun s _ hs => (hf s).symm ▸ hs

theorem Tidy.alloc (ht : h.Tidy unique) (ho : o.Tidy unique) : (h.alloc o).2.Tidy unique := by
  intro b o' hb
  rcases get?_alloc hb with ⟨-, rfl⟩ | ⟨-, hb⟩
  · exact ho
  · exact ht b o' hb

theorem Tidy.emptied (ht : h.Tidy unique) (hsub : ∀ a, n.slot? a = h.slot? a ∨ n.slot? a = none) :
    n.Tidy unique := by
  intro a o ho
  rcases hsub a with hsame | hnone
  · rw [get?, hsame, ← get?] at ho
    exact ht a o ho
  · rw [get?, hnone] at ho
    cases ho

theorem Tidy.collect (ht : h.Tidy unique) (roots : List ObjectId) : (h.collect roots).2.Tidy unique := by
  refine ht.emptied fun a => ?_
  show (h.sweep _).slot? a = _ ∨ (h.sweep _).slot? a = _
  rw [slot?_sweep]
  split
  · exact .inl rfl
  · exact .inr rfl

end Heap

end PageScript
