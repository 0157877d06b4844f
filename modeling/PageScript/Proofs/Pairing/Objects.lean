import PageScript.Proofs.Pairing
import PageScript.Proofs.Tidy

/-! # Changes of paired objects

`Object.Edit` lists the changes that a run makes to an object, on both sides at once, and `Object.Fill`
those that it makes to an object that it has just made.  Paired objects still match after them, and none of
them touches the function of an object.
-/

set_option autoImplicit false

namespace PageScript

variable {p : Pairing}

/-! ## Members -/

namespace Variable.Matches

variable {x y : Variable} {v w : Value}

theorem plain (name : String) (h : Value.Matches p v w) :
    Variable.Matches p (.plain name v) (.plain name w) :=
  ⟨rfl, fun _ => h, .plain, rfl, rfl, rfl⟩

theorem name_beq (name : String) (h : Variable.Matches p x y) :
    (x.name == name) = (y.name == name) := by rw [h.name]

theorem value_set (h : Variable.Matches p x y) (hv : Value.Matches p v w) :
    Variable.Matches p { x with value := v } { y with value := w } :=
  { h with value := fun _ => hv }

theorem permanent_set (h : Variable.Matches p x y) :
    Variable.Matches p { x with permanent := true } { y with permanent := true } :=
  { h with permanent := rfl }

end Variable.Matches

theorem argument_matches {xs ys : List Value} (h : Matching.list Value.Matches p xs ys) (i : Nat) :
    Value.Matches p (Script.argument xs i) (Script.argument ys i) := by
  have hi := Matching.list_getElem? h i
  rw [Script.argument, Script.argument, List.getD_eq_getElem?_getD, List.getD_eq_getElem?_getD]
  cases hx : xs[i]? <;> cases hy : ys[i]? <;> rw [hx, hy] at hi
  · exact .undefined
  · cases hi
  · cases hi
  · cases hi with
    | some h => exact h

theorem given?_matches {xs ys : List Value} (h : Matching.list Value.Matches p xs ys) (i : Nat) :
    Matching.option Value.Matches p (Script.given? xs i) (Script.given? ys i) := by
  have hi := Matching.list_getElem? h i
  rw [Script.given?, Script.given?]
  cases hx : xs[i]? <;> cases hy : ys[i]? <;> rw [hx, hy] at hi
  · exact .none
  · cases hi
  · cases hi
  · cases hi with
    | some h =>
      cases h with
      | undefined => exact .none
      | object id receiver => exact .some (.object id receiver)
      | _ => exact .some (by constructor)

theorem argumentVariable_matches {a b : ObjectId} {v w : Value} (parameters : List String) (i : Nat)
    (h : p.ids a b) (hv : Value.Matches p v w) :
    Variable.Matches p (Script.argumentVariable a parameters i v)
      (Script.argumentVariable b parameters i w) := by
  unfold Script.argumentVariable
  cases parameters[i]? with
  | none => exact .plain _ hv.unbound
  | some parameter => exact { Variable.Matches.plain _ .undefined with link := .synonym parameter h }

/-! ## Objects -/

theorem Object.findIdx?_toList (members : Array Variable) (name : String) :
    members.toList.findIdx? (·.name == name) = members.findIdx? (·.name == name) := by
  rw [← List.findIdx?_toArray, Array.toArray_toList]

namespace Object.Matches

variable {o o' : Object} {x y : Variable} {f g : Variable → Variable} {v w : Value} {a b : ObjectId}

theorem empty (h : Matching.option .id p (some a) (some b)) :
    Object.Matches p (.empty (some a)) (.empty (some b)) :=
  ⟨.nil, rfl, .none, .none, h, rfl, rfl⟩

theorem findIdx?_eq (name : String) (h : Object.Matches p o o') :
    o.members.findIdx? (·.name == name) = o'.members.findIdx? (·.name == name) := by
  have hi := Matching.list_findIdx? h.members fun _ _ h => Variable.Matches.name_beq name h
  rw [← Object.findIdx?_toList, ← Object.findIdx?_toList]
  exact hi

theorem has_eq (name : String) (h : Object.Matches p o o') : o.has name = o'.has name := by
  rw [Object.has, Object.has, ← Array.any_toList, ← Array.any_toList]
  exact Matching.list_any h.members fun _ _ h => Variable.Matches.name_beq name h

theorem find? (name : String) (h : Object.Matches p o o') :
    Matching.option Variable.Matches p (o.find? name) (o'.find? name) := by
  rw [Object.find?, Object.find?, ← Array.find?_toList, ← Array.find?_toList]
  exact Matching.list_find? h.members fun _ _ h => Variable.Matches.name_beq name h

theorem isCallable_eq (h : Object.Matches p o o') : o.isCallable = o'.isCallable :=
  Matching.option_isSome h.callable

theorem className_eq (h : Object.Matches p o o') : o.className = o'.className := by
  rw [Object.className, Object.className, h.isCallable_eq, h.payload]

theorem payload_set (payload : Payload) (h : Object.Matches p o o') :
    Object.Matches p { o with payload := payload } { o' with payload := payload } :=
  { h with payload := rfl }

theorem push (h : Object.Matches p o o') (hx : Variable.Matches p x y) :
    Object.Matches p (o.push x) (o'.push y) := by
  refine { h with members := ?_ }
  rw [Object.push, Object.push, Array.toList_push, Array.toList_push]
  exact Matching.list_append h.members (.cons hx .nil)

theorem modify (i : Nat) (h : Object.Matches p o o')
    (hf : ∀ x y, Variable.Matches p x y → Variable.Matches p (f x) (g y)) :
    Object.Matches p { o with members := o.members.modify i f }
      { o' with members := o'.members.modify i g } := by
  refine { h with members := ?_ }
  rw [Array.toList_modify, Array.toList_modify]
  exact Matching.list_modify h.members hf i

theorem update (name : String) (h : Object.Matches p o o')
    (hf : ∀ x y, Variable.Matches p x y → Variable.Matches p (f x) (g y)) :
    Object.Matches p (o.update name f) (o'.update name g) := by
  rw [Object.update, Object.update, h.findIdx?_eq name]
  split
  · exact h.modify _ hf
  · exact h

theorem updateOrPush (name : String) (h : Object.Matches p o o')
    (hf : ∀ x y, Variable.Matches p x y → Variable.Matches p (f x) (g y)) :
    Object.Matches p (o.updateOrPush name f) (o'.updateOrPush name g) := by
  rw [Object.updateOrPush, Object.updateOrPush, h.findIdx?_eq name]
  split
  · exact h.modify _ hf
  · exact h.push (hf _ _ (.plain name .undefined))

theorem put (name : String) (h : Object.Matches p o o') (hv : Value.Matches p v w) :
    Object.Matches p (o.put name v) (o'.put name w) :=
  h.updateOrPush name fun _ _ hx => hx.value_set hv

theorem putHidden (name : String) (h : Object.Matches p o o') (hv : Value.Matches p v w) :
    Object.Matches p (o.putHidden name v) (o'.putHidden name w) :=
  h.updateOrPush name fun _ _ hx => { hx.value_set hv with hidden := rfl }

theorem remove (name : String) (h : Object.Matches p o o') :
    Object.Matches p (o.remove name) (o'.remove name) := by
  rw [Object.remove, Object.remove, h.findIdx?_eq name]
  split
  · refine { h with members := ?_ }
    rw [Array.toList_eraseIdxIfInBounds, Array.toList_eraseIdxIfInBounds]
    exact Matching.list_eraseIdx h.members _
  · exact h

theorem declare (name : String) (h : Object.Matches p o o') :
    Object.Matches p
      (if o.has name then o else o.push { Variable.plain name .undefined with permanent := true })
      (if o'.has name then o'
        else o'.push { Variable.plain name .undefined with permanent := true }) := by
  rw [h.has_eq name]
  split
  · exact h
  · exact h.push (Variable.Matches.plain name .undefined).permanent_set

theorem addElement (name : String) (index : Nat) (h : Object.Matches p o o') :
    Object.Matches p (o.addElement name index) (o'.addElement name index) := by
  have hp := h.push (.plain name .undefined)
  simp only [Object.addElement, hp.payload]
  split
  · exact hp.payload_set _
  · exact hp

theorem setLength (current length : Nat) (h : Object.Matches p o o') :
    Object.Matches p (o.setLength current length) (o'.setLength current length) := by
  unfold Object.setLength
  split
  · refine { h with members := ?_, payload := rfl }
    rw [Array.toList_filter, Array.toList_filter]
    exact Matching.list_filter h.members fun x y hx => by rw [hx.name]
  · exact h.payload_set _

theorem makeArray (length : Nat) (h : Object.Matches p o o') (hab : p.ids a b) :
    Object.Matches p (o.makeArray a length) (o'.makeArray b length) :=
  Object.Matches.updateOrPush "length" { h with payload := rfl, additionHook := rfl }
    fun _ _ hx =>
      { hx with
        value := fun hreveals => hx.value (hreveals.of_changed rfl id fun _ => rfl)
        link := .hook .arrayLength hab
        hidden := rfl
        permanent := rfl }

theorem pushAll {xs ys : List (Value × Nat)} (f : Value → Value)
    (h : Object.Matches p o o') (hxs : Matching.list (.both Value.Matches .same) p xs ys)
    (hf : ∀ v w, Value.Matches p v w → Value.Matches p (f v) (f w)) :
    Object.Matches p (xs.foldl (fun o (v, i) => o.push (.plain (ArrayIndex.name i) (f v))) o)
      (ys.foldl (fun o (v, i) => o.push (.plain (ArrayIndex.name i) (f v))) o') := by
  refine Matching.list_foldl (U := Object.Matches) hxs h fun o o' (v, i) (w, j) ho hv => ?_
  obtain ⟨hv, rfl⟩ := hv
  exact ho.push (.plain _ (hf _ _ hv))

theorem putParameters {xs ys : List Value} (parameters : List String) (h : Object.Matches p o o')
    (hxs : Matching.list Value.Matches p xs ys) :
    Object.Matches p (Script.Object.putParameters parameters xs o)
      (Script.Object.putParameters parameters ys o') := by
  refine Matching.list_foldl (U := Object.Matches) (V := Matching.same)
    (List.forall₂_same.2 fun _ _ => rfl) h ?_
  rintro o o' ⟨name, i⟩ _ ho rfl
  exact ho.put name (argument_matches hxs i).unbound

theorem addArguments (h : Object.Matches p o o') (hab : p.ids a b) :
    Object.Matches p (Script.Object.addArguments a o) (Script.Object.addArguments b o') := by
  rw [Script.Object.addArguments, Script.Object.addArguments, h.has_eq "arguments"]
  split
  · exact h
  · exact h.push (Variable.Matches.plain _ (.ref hab)).permanent_set

end Object.Matches

/-! ## Edits -/

/-- The elements of an array under construction. -/
def Object.pushElements (elements : List (Nat × Value)) (o : Object) : Object :=
  elements.foldl (fun o (i, v) => o.push (.plain (ArrayIndex.name i) v)) o

/-- The members of a list of values under construction. -/
def Object.pushValues (values : List Value) (o : Object) : Object :=
  values.zipIdx.foldl (fun o (v, i) => o.push (.plain (ArrayIndex.name i) v.unbound)) o

/-- Turns a fresh array into the `arguments` object of a call. -/
def Object.becomeArguments (function locals : ObjectId) (parameters : List String)
    (args : List Value) (o : Object) : Object :=
  let o : Object := { o with proto := some Intrinsic.object }
  let o := args.zipIdx.foldl
    (fun o (v, i) => o.push (Script.argumentVariable locals parameters i v)) o
  o.putHidden "callee" (.ref function)

/-- Stores a value under a name, unless a hook answers for it. -/
def Object.store (name : String) (v : Value) (o : Object) : Object :=
  match (o.find? name).map Variable.link with
  | some (.hook _ _) => o
  | _ => o.updateOrPush name fun x => { x with value := v, hidden := false }

/-- Removes the variable of a name, unless it is permanent. -/
def Object.discard (name : String) (o : Object) : Object :=
  match o.find? name with
  | some x => if x.permanent then o else o.remove name
  | none => o

/-- Changes that are the same on the object of a slot are the same on the heap. -/
theorem Heap.modify_congr {h : Heap} {a : ObjectId} {f g : Object → Object}
    (hfg : ∀ o, h.get? a = some o → f o = g o) : h.modify a f = h.modify a g := by
  unfold modify modifySlot
  congr 1
  refine Array.ext_getElem? fun i => ?_
  rw [Array.getElem?_modify, Array.getElem?_modify]
  split
  · rename_i hi
    subst hi
    cases hs : h.slots[a.index]? with
    | none => rfl
    | some s =>
      cases s with
      | none => rfl
      | some s =>
        have ho := hfg s.object (by rw [get?, slot?, hs]; rfl)
        simp only [Option.map_some, ho]
  · rfl

/-- The changes that a run makes to an object, on two sides that match.  The length of an array is
another matter. -/
inductive Object.Edit (p : Pairing) (a b : ObjectId) : (Object → Object) → (Object → Object) → Prop where
  | pushGlobal (name : String) :
      Edit p a b (·.push (.plain name .undefined)) (·.push (.plain name .undefined))
  | pushMember (name : String) {v w : Value} (value : Value.Matches p v w) :
      Edit p a b (·.push (.plain name v.unbound)) (·.push (.plain name w.unbound))
  | declare (name : String) :
      Edit p a b
        (fun o => if o.has name then o
          else o.push { Variable.plain name .undefined with permanent := true })
        (fun o => if o.has name then o
          else o.push { Variable.plain name .undefined with permanent := true })
  | putHidden (name : String) (special : name = "length" ∨ name = "prototype") {v w : Value}
      (value : Value.Matches p v w) (unbound : v.unbound = v) :
      Edit p a b (·.putHidden name v) (·.putHidden name w)
  | store (name : String) {v w : Value} (value : Value.Matches p v w) :
      Edit p a b (·.store name v.unbound) (·.store name w.unbound)
  | bindFunction (name : String) {c d : ObjectId} (id : p.ids c d) :
      Edit p a b (·.update name fun x => { x with value := .ref c })
        (·.update name fun x => { x with value := .ref d })
  | makePermanent (name : String) :
      Edit p a b (·.update name fun x => { x with permanent := true })
        (·.update name fun x => { x with permanent := true })
  | discard (name : String) : Edit p a b (·.discard name) (·.discard name)
  | addElement (name : String) (index : Nat) :
      Edit p a b (·.addElement name index) (·.addElement name index)
  | makeArray (length : Nat) : Edit p a b (·.makeArray a length) (·.makeArray b length)
  | setPayload (payload : Payload) (other : ∀ length, payload ≠ .array length) :
      Edit p a b (fun o => { o with payload := payload }) (fun o => { o with payload := payload })
  | pushElements {xs ys : List (Nat × Value)}
      (elements : Matching.list (.both .same Value.Matches) p xs ys) :
      Edit p a b (Object.pushElements xs) (Object.pushElements ys)
  | pushValues {xs ys : List Value} (values : Matching.list Value.Matches p xs ys) :
      Edit p a b (Object.pushValues xs) (Object.pushValues ys)
  | setCallsAsMember (on : Bool) :
      Edit p a b (fun o => { o with callsAsMember := on }) (fun o => { o with callsAsMember := on })

/-- The changes that a run makes to an object that it has just made, on two sides that match.  They replace
whatever stood there. -/
inductive Object.Fill (p : Pairing) : (Object → Object) → (Object → Object) → Prop where
  | put (name : String) {c d : ObjectId} (id : p.ids c d) :
      Fill p (·.put name (.ref c)) (·.put name (.ref d))
  | putHidden (name : String) {v w : Value} (value : Value.Matches p v w) (unbound : v.unbound = v) :
      Fill p (·.putHidden name v) (·.putHidden name w)
  | becomeArguments {f g c d : ObjectId} (parameters : List String) {xs ys : List Value}
      (function : p.ids f g) (locals : p.ids c d) (args : Matching.list Value.Matches p xs ys) :
      Fill p (Object.becomeArguments f c parameters xs) (Object.becomeArguments g d parameters ys)
  | bindParameters {c d : ObjectId} (parameters : List String) {xs ys : List Value}
      (arguments : p.ids c d) (args : Matching.list Value.Matches p xs ys) :
      Fill p (fun o => Script.Object.addArguments c (Script.Object.putParameters parameters xs o))
        (fun o => Script.Object.addArguments d (Script.Object.putParameters parameters ys o))

/-- The hooks that an embedding program gives to an object, on two sides that match. -/
inductive Object.Hooking (p : Pairing) : (Object → Object) → (Object → Object) → Prop where
  | addHook (name behavior : String) {c d : ObjectId} (owner : p.ids c d) :
      Hooking p (·.updateOrPush name fun x => { x with link := .hook (.host behavior) c })
        (·.updateOrPush name fun x => { x with link := .hook (.host behavior) d })
  | setAdditionHook (hook : Option AdditionHook) :
      Hooking p (fun o => { o with additionHook := hook }) (fun o => { o with additionHook := hook })

theorem Object.Matches.protect {o o' : Object} (h : Object.Matches p o o')
    (hp : ∀ key, ¬p.secret key) (name : String) (key : Nat) :
    Object.Matches p (o.update name fun x => { x with key := key })
      (o'.update name fun x => { x with key := key }) :=
  h.update name fun _ _ hx =>
    { hx with
      value := fun hreveals => hx.value (hreveals.of_changed rfl (fun h => (hp _ h).elim) id)
      key := rfl }

theorem Object.Matches.store {o o' : Object} {v w : Value} (name : String) (h : Object.Matches p o o')
    (hv : Value.Matches p v w) : Object.Matches p (o.store name v) (o'.store name w) := by
  have hwrite : Object.Matches p
      (o.updateOrPush name fun x => { x with value := v, hidden := false })
      (o'.updateOrPush name fun x => { x with value := w, hidden := false }) :=
    h.updateOrPush name fun _ _ hx => { hx.value_set hv with hidden := rfl }
  have hfind := h.find? name
  unfold Object.store
  generalize o.find? name = x at hfind
  generalize o'.find? name = y at hfind
  cases hfind with
  | none => exact hwrite
  | some hx =>
    have hl := hx.link
    rw [Option.map_some, Option.map_some]
    generalize Variable.link _ = l at hl
    generalize Variable.link _ = l' at hl
    cases hl with
    | hook hook owner => exact h
    | _ => exact hwrite

theorem Object.Matches.discard {o o' : Object} (name : String) (h : Object.Matches p o o') :
    Object.Matches p (o.discard name) (o'.discard name) := by
  have hfind := h.find? name
  unfold Object.discard
  generalize o.find? name = x at hfind
  generalize o'.find? name = y at hfind
  cases hfind with
  | none => exact h
  | some hx =>
    dsimp only
    rw [hx.permanent]
    split
    · exact h
    · exact h.remove name

namespace Object.Tidy

variable {unique : Prop} {o : Object}

theorem store {v : Value} (h : o.Tidy unique) (name : String) (hv : v.receiver? = none) :
    (o.store name v).Tidy unique := by
  unfold Object.store
  split
  · exact h
  · exact h.updateOrPush name (fun _ => rfl) fun _ _ => hv

theorem discard (h : o.Tidy unique) (name : String) : (o.discard name).Tidy unique := by
  unfold Object.discard
  split
  · split
    · exact h
    · exact h.remove name
  · exact h

theorem pushValues (h : o.Tidy unique) (values : List Value)
    (hlength : o.names = ["length"]) : (o.pushValues values).Tidy unique := by
  let made (x : Value × Nat) : Variable := .plain (ArrayIndex.name x.2) x.1.unbound
  refine tidy_elements made Prod.snd (fun _ _ => rfl) (fun _ _ => rfl) ?_
    (fun x _ => x.1.receiver?_unbound) h hlength
  rw [List.zipIdx_map_snd]
  exact List.nodup_range'

theorem pushElements (h : o.Tidy unique) {elements : List (Nat × Value)}
    (hdistinct : (elements.map Prod.fst).Nodup) (hvalues : ∀ x ∈ elements, x.2.receiver? = none)
    (hlength : o.names = ["length"]) : (o.pushElements elements).Tidy unique := by
  let made (x : Nat × Value) : Variable := .plain (ArrayIndex.name x.1) x.2
  exact tidy_elements made Prod.fst (fun _ _ => rfl) (fun _ _ => rfl) hdistinct hvalues h hlength

theorem becomeArguments (h : o.Tidy unique) (function locals : ObjectId)
    (parameters : List String) (args : List Value) (hlength : o.names = ["length"]) :
    (o.becomeArguments function locals parameters args).Tidy unique := by
  let made (x : Value × Nat) : Variable := Script.argumentVariable locals parameters x.2 x.1
  have hmade : ∀ x, (made x).name = ArrayIndex.name x.2 ∧ (made x).value.receiver? = none := fun x => by
    show (Script.argumentVariable locals parameters x.2 x.1).name = _
      ∧ (Script.argumentVariable locals parameters x.2 x.1).value.receiver? = none
    unfold Script.argumentVariable
    split
    · exact ⟨rfl, rfl⟩
    · exact ⟨rfl, x.1.receiver?_unbound⟩
  have helements : (args.zipIdx.foldl (fun o x => Object.push (made x) o)
      { o with proto := some Intrinsic.object }).Tidy unique := by
    refine tidy_elements made Prod.snd (fun _ _ => rfl) (fun x _ => (hmade x).1) ?_
      (fun x _ => (hmade x).2) (h.congr rfl) hlength
    rw [List.zipIdx_map_snd]
    exact List.nodup_range'
  exact helements.putHidden "callee" rfl

end Object.Tidy

theorem Object.Edit.matches {a b : ObjectId} {f g : Object → Object} (e : Object.Edit p a b f g)
    (hab : p.ids a b) {o o' : Object} (h : Object.Matches p o o') : Object.Matches p (f o) (g o') := by
  cases e with
  | pushGlobal name => exact h.push (.plain name .undefined)
  | pushMember name value => exact h.push (.plain name value.unbound)
  | declare name => exact h.declare name
  | putHidden name special value => exact h.putHidden name value
  | store name value => exact h.store name value.unbound
  | bindFunction name id => exact h.update name fun _ _ hx => hx.value_set (.ref id)
  | makePermanent name => exact h.update name fun _ _ hx => hx.permanent_set
  | discard name => exact h.discard name
  | addElement name index => exact h.addElement name index
  | makeArray length => exact h.makeArray length hab
  | setPayload payload => exact h.payload_set payload
  | pushElements elements =>
    refine Matching.list_foldl (U := Object.Matches) elements h ?_
    rintro o o' ⟨i, v⟩ ⟨_, w⟩ ho ⟨rfl, hv⟩
    exact ho.push (.plain _ hv)
  | pushValues values =>
    exact h.pushAll Value.unbound (Matching.list_zipIdx values 0) fun _ _ hv => hv.unbound
  | setCallsAsMember on => exact { h with callsAsMember := rfl }

theorem Object.Fill.matches {f g : Object → Object} (e : Object.Fill p f g) {o o' : Object}
    (h : Object.Matches p o o') : Object.Matches p (f o) (g o') := by
  cases e with
  | put name id => exact h.put name (.ref id)
  | putHidden name value => exact h.putHidden name value
  | becomeArguments parameters function locals args =>
    refine Object.Matches.putHidden "callee" ?_ (.ref function)
    have ho : Object.Matches p { o with proto := some Intrinsic.object }
        { o' with proto := some Intrinsic.object } :=
      { h with proto := .some (p.intrinsic _ (by decide)) }
    refine Matching.list_foldl (U := Object.Matches) (Matching.list_zipIdx args 0) ho ?_
    rintro o o' ⟨v, i⟩ ⟨w, _⟩ ho ⟨hv, rfl⟩
    exact ho.push (argumentVariable_matches parameters i locals hv)
  | bindParameters parameters arguments args =>
    exact (h.putParameters parameters args).addArguments arguments

theorem Object.Hooking.matches {f g : Object → Object} (e : Object.Hooking p f g) {o o' : Object}
    (h : Object.Matches p o o') : Object.Matches p (f o) (g o') := by
  cases e with
  | addHook name behavior owner =>
    exact h.updateOrPush name fun _ _ hx =>
      { hx with
        value := fun hreveals => hx.value (hreveals.of_changed rfl id fun _ => rfl)
        link := .hook _ owner }
  | setAdditionHook hook => exact { h with additionHook := rfl }

/-! ## New objects -/

/-- Whether an object is tidy and no array, and none of its variables has a hook. -/
structure Object.Ordinary (o : Object) : Prop where
  payload : ∀ length, o.payload ≠ .array length
  links : ∀ x ∈ o.members, ∀ hook owner, x.link ≠ .hook hook owner
  tidy : o.Tidy True

namespace Object

theorem ordinary_empty (proto : Option ObjectId) : (Object.empty proto).Ordinary :=
  ⟨nofun, fun _ hx => absurd hx (Array.not_mem_empty _), tidy_empty proto⟩

theorem Ordinary.payload_set {o : Object} (h : o.Ordinary) (payload : Payload)
    (hp : ∀ length, payload ≠ .array length) : { o with payload := payload }.Ordinary :=
  ⟨hp, h.links, h.tidy.congr rfl⟩

theorem of_mem_modify {members : Array Variable} {i : Nat} {f : Variable → Variable} {x : Variable}
    (hx : x ∈ members.modify i f) : ∃ y ∈ members, x = y ∨ x = f y := by
  obtain ⟨k, hk⟩ := Array.mem_iff_getElem?.1 hx
  rw [Array.getElem?_modify] at hk
  split at hk
  · obtain ⟨y, hy, rfl⟩ := Option.map_eq_some_iff.1 hk
    exact ⟨y, Array.mem_of_getElem? hy, .inr rfl⟩
  · exact ⟨x, Array.mem_of_getElem? hk, .inl rfl⟩

theorem of_mem_modify_findIdx? {members : Array Variable} {i : Nat} {name : String} {f : Variable → Variable}
    {x : Variable} (hi : members.findIdx? (·.name == name) = some i) (hx : x ∈ members.modify i f) :
    x ∈ members ∨ ∃ y, x = f y ∧ members.find? (·.name == name) = some y := by
  obtain ⟨k, hk⟩ := Array.mem_iff_getElem?.1 hx
  rw [Array.getElem?_modify] at hk
  split at hk
  · rename_i hik
    obtain ⟨y, hy, rfl⟩ := Option.map_eq_some_iff.1 hk
    refine .inr ⟨y, rfl, ?_⟩
    rw [Array.find?_eq_bind_findIdx?_getElem?, hi, Option.bind_some, hik]
    exact hy
  · exact .inl (Array.mem_of_getElem? hk)

theorem of_mem_updateOrPush {o : Object} {name : String} {f : Variable → Variable} {x : Variable}
    (hx : x ∈ (o.updateOrPush name f).members) :
    x ∈ o.members ∨ ∃ y, x = f y ∧ (o.find? name = some y ∨ y = .plain name .undefined) := by
  unfold Object.updateOrPush at hx
  split at hx
  · rename_i hi
    exact (of_mem_modify_findIdx? hi hx).imp_right fun ⟨y, hxy, hy⟩ => ⟨y, hxy, .inl hy⟩
  · rcases Array.mem_push.1 hx with hx | rfl
    · exact .inl hx
    · exact .inr ⟨_, rfl, .inr rfl⟩

theorem mem_of_mem_discard {o : Object} {name : String} {x : Variable}
    (hx : x ∈ (o.discard name).members) : x ∈ o.members := by
  unfold Object.discard at hx
  split at hx
  · split at hx
    · exact hx
    · unfold Object.remove at hx
      split at hx
      · rw [← Array.mem_toList_iff, Array.toList_eraseIdxIfInBounds] at hx
        exact Array.mem_toList_iff.1 (List.mem_of_mem_eraseIdx hx)
      · exact hx
  · exact hx

theorem Ordinary.updateOrPush {o : Object} (h : o.Ordinary) (name : String) {f : Variable → Variable}
    (hf : ∀ x, (f x).link = x.link) (htidy : (o.updateOrPush name f).Tidy True) :
    (o.updateOrPush name f).Ordinary := by
  refine ⟨fun length => ?_, fun x hx hook owner => ?_, htidy⟩
  · unfold Object.updateOrPush
    split <;> exact h.payload length
  · rcases of_mem_updateOrPush hx with hx | ⟨y, rfl, hy | rfl⟩
    · exact h.links x hx hook owner
    · rw [hf]
      exact h.links y (Array.mem_of_find?_eq_some hy) hook owner
    · rw [hf]
      exact nofun

theorem Ordinary.put {o : Object} (h : o.Ordinary) (name : String) {v : Value} (hv : v.receiver? = none) :
    (o.put name v).Ordinary := h.updateOrPush name (fun _ => rfl) (h.tidy.put name hv)

theorem Ordinary.putHidden {o : Object} (h : o.Ordinary) (name : String) {v : Value}
    (hv : v.receiver? = none) : (o.putHidden name v).Ordinary :=
  h.updateOrPush name (fun _ => rfl) (h.tidy.putHidden name hv)

end Object

/-! ## What edits leave alone -/

namespace Object

/-- The function and the prototype of an object. -/
def makeup (o : Object) : Option Callable × Option ObjectId := (o.callable, o.proto)

theorem callable_of_makeup {o o' : Object} (h : o'.makeup = o.makeup) : o'.callable = o.callable :=
  congrArg Prod.fst h

theorem proto_of_makeup {o o' : Object} (h : o'.makeup = o.makeup) : o'.proto = o.proto :=
  congrArg Prod.snd h

@[simp]
theorem push_makeup (x : Variable) (o : Object) : (o.push x).makeup = o.makeup := rfl

@[simp]
theorem update_makeup (name : String) (f : Variable → Variable) (o : Object) :
    (o.update name f).makeup = o.makeup := by
  unfold update
  split <;> rfl

@[simp]
theorem updateOrPush_makeup (name : String) (f : Variable → Variable) (o : Object) :
    (o.updateOrPush name f).makeup = o.makeup := by
  unfold updateOrPush
  split <;> rfl

@[simp]
theorem put_makeup (name : String) (v : Value) (o : Object) : (o.put name v).makeup = o.makeup :=
  updateOrPush_makeup ..

@[simp]
theorem putHidden_makeup (name : String) (v : Value) (o : Object) :
    (o.putHidden name v).makeup = o.makeup := updateOrPush_makeup ..

theorem foldl_makeup {α : Type} {f : Object → α → Object} (hf : ∀ o a, (f o a).makeup = o.makeup)
    (items : List α) (o : Object) : (items.foldl f o).makeup = o.makeup := by
  induction items generalizing o with
  | nil => rfl
  | cons a items ih => rw [List.foldl_cons, ih, hf]

@[simp]
theorem remove_makeup (name : String) (o : Object) : (o.remove name).makeup = o.makeup := by
  unfold remove
  split <;> rfl

@[simp]
theorem addElement_makeup (name : String) (index : Nat) (o : Object) :
    (o.addElement name index).makeup = o.makeup := by
  unfold addElement
  dsimp only
  split <;> rfl

@[simp]
theorem setLength_makeup (current length : Nat) (o : Object) :
    (o.setLength current length).makeup = o.makeup := by
  unfold setLength
  dsimp only
  split <;> rfl

@[simp]
theorem makeArray_makeup (self : ObjectId) (length : Nat) (o : Object) :
    (o.makeArray self length).makeup = o.makeup := updateOrPush_makeup ..

@[simp]
theorem pushElements_makeup (elements : List (Nat × Value)) (o : Object) :
    (o.pushElements elements).makeup = o.makeup := by
  apply foldl_makeup
  intro o e
  rfl

@[simp]
theorem pushValues_makeup (values : List Value) (o : Object) :
    (o.pushValues values).makeup = o.makeup := by
  apply foldl_makeup
  intro o e
  rfl

/-- The `arguments` object of a call is no array any more. -/
theorem becomeArguments_makeup (function locals : ObjectId) (parameters : List String)
    (args : List Value) (o : Object) :
    (o.becomeArguments function locals parameters args).makeup = (o.callable, some Intrinsic.object) := by
  rw [becomeArguments, putHidden_makeup]
  apply foldl_makeup (o := { o with proto := some Intrinsic.object })
  intro o e
  rfl

@[simp]
theorem putParameters_makeup (parameters : List String) (args : List Value) (o : Object) :
    (Script.Object.putParameters parameters args o).makeup = o.makeup :=
  foldl_makeup (fun _ _ => put_makeup ..) ..

@[simp]
theorem addArguments_makeup (arguments : ObjectId) (o : Object) :
    (Script.Object.addArguments arguments o).makeup = o.makeup := by
  unfold Script.Object.addArguments
  split <;> rfl

@[simp]
theorem store_makeup (name : String) (v : Value) (o : Object) : (o.store name v).makeup = o.makeup := by
  unfold store
  split
  · rfl
  · exact updateOrPush_makeup ..

@[simp]
theorem discard_makeup (name : String) (o : Object) : (o.discard name).makeup = o.makeup := by
  unfold discard
  split
  · split
    · rfl
    · exact remove_makeup ..
  · rfl

theorem Edit.makeup_eq {a b : ObjectId} {f g : Object → Object} (e : Edit p a b f g) (o : Object) :
    (f o).makeup = o.makeup := by
  cases e with
  | declare name =>
    dsimp only
    split <;> rfl
  | setPayload payload => rfl
  | setCallsAsMember on => rfl
  | _ => simp

theorem Hooking.makeup_eq {f g : Object → Object} (e : Hooking p f g) (o : Object) :
    (f o).makeup = o.makeup := by
  cases e with
  | addHook name behavior owner => exact updateOrPush_makeup ..
  | setAdditionHook hook => rfl

theorem Fill.makeup_or {f g : Object → Object} (e : Fill p f g) (o : Object) :
    (f o).makeup = o.makeup ∨ (f o).makeup = (o.callable, some Intrinsic.object) := by
  cases e with
  | becomeArguments parameters function locals args => exact .inr (becomeArguments_makeup ..)
  | _ => exact .inl (by simp)

end Object

end PageScript
