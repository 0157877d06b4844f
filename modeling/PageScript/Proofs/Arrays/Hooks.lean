import PageScript.Proofs.Reachable

/-! # The hooks of arrays

An array keeps its length in its payload.  A hook on its `length` variable answers for it, and an addition
hook raises it beyond each new index.  No script takes these from an array, and whatever has the payload of
an array or such a hook has them all.
-/

set_option autoImplicit false

namespace PageScript

/-! ## Arrays -/

/-- Whether a variable has a hook, and can neither be deleted nor seen in enumeration. -/
structure Variable.Guarded (x : Variable) : Prop where
  hook : ∃ hook owner, x.link = .hook hook owner
  hidden : x.hidden = true
  permanent : x.permanent = true

/-- Whether an object has the hooks of an array. -/
structure Object.IsArray (id : ObjectId) (o : Object) : Prop where
  additionHook : o.additionHook = some .arrayIndex
  length : ∃ x, o.find? "length" = some x ∧ x.link = .hook .arrayLength id ∧ x.Guarded

/-- Whether an object has the hooks of an array if it has the payload of one or any such hook. -/
structure Object.Counted (id : ObjectId) (o : Object) : Prop where
  payload : ∀ length, o.payload = .array length → o.IsArray id
  hooks : ∀ x ∈ o.members, ∀ owner, x.link = .hook .arrayLength owner → owner = id ∧ o.IsArray id

/-- What an object may become: it stays an array if it was one, and does not turn into one. -/
structure Object.Becomes (o n : Object) : Prop where
  additionHook : n.additionHook = o.additionHook
  payload : ∀ length, n.payload = .array length → ∃ before, o.payload = .array before
  hooks : ∀ x ∈ n.members, ∀ hook owner, x.link = .hook hook owner →
    ∃ y ∈ o.members, y.link = .hook hook owner
  length : ∀ x, o.find? "length" = some x → x.Guarded →
    ∃ y, n.find? "length" = some y ∧ y.link = x.link ∧ y.Guarded

namespace Object

variable {o n : Object} {a : ObjectId}

theorem Becomes.isArray (h : o.Becomes n) (ho : o.IsArray a) : n.IsArray a := by
  obtain ⟨x, hx, hlink, hguarded⟩ := ho.length
  obtain ⟨y, hy, hsame, hguarded⟩ := h.length x hx hguarded
  exact ⟨h.additionHook.trans ho.additionHook, y, hy, hsame.trans hlink, hguarded⟩

theorem Becomes.counted (h : o.Becomes n) (ho : o.Counted a) : n.Counted a where
  payload length hn := by
    obtain ⟨before, hbefore⟩ := h.payload length hn
    exact h.isArray (ho.payload before hbefore)
  hooks x hx owner hlink := by
    obtain ⟨y, hy, hlink⟩ := h.hooks x hx _ owner hlink
    exact (ho.hooks y hy owner hlink).imp_right h.isArray

theorem Becomes.refl (o : Object) : o.Becomes o where
  additionHook := rfl
  payload length h := ⟨length, h⟩
  hooks x hx _ _ hlink := ⟨x, hx, hlink⟩
  length x hx hguarded := ⟨x, hx, rfl, hguarded⟩

theorem Becomes.trans {m : Object} (h : o.Becomes m) (hn : m.Becomes n) : o.Becomes n where
  additionHook := hn.additionHook.trans h.additionHook
  payload length hp := by
    obtain ⟨before, hp⟩ := hn.payload length hp
    exact h.payload before hp
  hooks x hx hook owner hlink := by
    obtain ⟨y, hy, hlink⟩ := hn.hooks x hx hook owner hlink
    exact h.hooks y hy hook owner hlink
  length x hx hguarded := by
    obtain ⟨y, hy, hlink, hguarded⟩ := h.length x hx hguarded
    obtain ⟨z, hz, hsame, hguarded⟩ := hn.length y hy hguarded
    exact ⟨z, hz, hsame.trans hlink, hguarded⟩

theorem Becomes.foldl {α : Type} {f : Object → α → Object} (hf : ∀ o x, Becomes o (f o x))
    (items : List α) (o : Object) : o.Becomes (items.foldl f o) := by
  induction items generalizing o with
  | nil => exact .refl o
  | cons x items ih => exact (hf o x).trans (ih (f o x))

/-! ### Changes of members -/

theorem Becomes.of_members (members : Array Variable)
    (hhooks : ∀ x ∈ members, ∀ hook owner, x.link = .hook hook owner →
      ∃ y ∈ o.members, y.link = .hook hook owner)
    (hlength : ∀ x, o.find? "length" = some x → x.Guarded →
      ∃ y, members.find? (·.name == "length") = some y ∧ y.link = x.link ∧ y.Guarded) :
    o.Becomes { o with members := members } where
  additionHook := rfl
  payload length h := ⟨length, h⟩
  hooks := hhooks
  length := hlength

theorem becomes_push {x : Variable} (hx : ∀ hook owner, x.link ≠ .hook hook owner) :
    o.Becomes (o.push x) := by
  refine .of_members _ (fun y hy hook owner hlink => ?_) fun y hy hguarded => ?_
  · rcases Array.mem_push.1 hy with hy | rfl
    · exact ⟨y, hy, hlink⟩
    · exact absurd hlink (hx hook owner)
  · refine ⟨y, ?_, rfl, hguarded⟩
    have hy : o.members.find? (·.name == "length") = some y := hy
    rw [Array.find?_push, hy, Option.some_or]

theorem find?_head {x : Variable} {rest : List Variable} {name : String} (hx : x.name = name) :
    (x :: rest).find? (·.name == name) = some x :=
  List.find?_cons_of_pos (beq_iff_eq.2 hx)

theorem find?_tail {x : Variable} {rest : List Variable} {name : String} (hx : x.name ≠ name) :
    (x :: rest).find? (·.name == name) = rest.find? (·.name == name) :=
  List.find?_cons_of_neg fun h => hx (beq_iff_eq.1 h)

theorem findIdx?_cons_eq_some {x : Variable} {rest : List Variable} {name : String} {i : Nat}
    (hi : (x :: rest).findIdx? (·.name == name) = some i) :
    (x.name = name ∧ i = 0) ∨
      (x.name ≠ name ∧ ∃ j, rest.findIdx? (·.name == name) = some j ∧ i = j + 1) := by
  rw [List.findIdx?_cons] at hi
  split at hi
  · rename_i hx
    cases hi
    exact .inl ⟨beq_iff_eq.1 hx, rfl⟩
  · rename_i hx
    obtain ⟨j, hj, rfl⟩ := Option.map_eq_some_iff.1 hi
    exact .inr ⟨fun h => hx (beq_iff_eq.2 h), j, hj, rfl⟩

theorem find?_modify {f : Variable → Variable} (hf : ∀ x, (f x).name = x.name) (name other : String)
    (members : List Variable) {i : Nat} (hi : members.findIdx? (·.name == name) = some i) :
    (members.modify i f).find? (·.name == other)
      = if name = other then (members.find? (·.name == other)).map f
        else members.find? (·.name == other) := by
  induction members generalizing i with
  | nil => cases hi
  | cons x rest ih =>
    rcases findIdx?_cons_eq_some hi with ⟨rfl, rfl⟩ | ⟨hx, j, hj, rfl⟩
    · rw [List.modify_zero_cons]
      by_cases hother : x.name = other
      · rw [if_pos hother, find?_head hother, find?_head ((hf x).trans hother), Option.map_some]
      · rw [if_neg hother, find?_tail hother, find?_tail (by rwa [hf])]
    · rw [List.modify_succ_cons]
      by_cases hother : x.name = other
      · have hname : name ≠ other := fun h => hx (hother.trans h.symm)
        rw [if_neg hname, find?_head hother, find?_head hother]
      · rw [find?_tail hother, find?_tail hother, ih hj]

theorem find?_eraseIdx {name other : String} (hname : name ≠ other) (members : List Variable) {i : Nat}
    (hi : members.findIdx? (·.name == name) = some i) :
    (members.eraseIdx i).find? (·.name == other) = members.find? (·.name == other) := by
  induction members generalizing i with
  | nil => cases hi
  | cons x rest ih =>
    rcases findIdx?_cons_eq_some hi with ⟨rfl, rfl⟩ | ⟨-, j, hj, rfl⟩
    · rw [List.eraseIdx_cons_zero, find?_tail hname]
    · rw [List.eraseIdx_cons_succ, List.find?_cons, List.find?_cons, ih hj]

/-- A change of a variable that leaves its link alone, and does not bring a guarded one to light. -/
theorem becomes_modify {name : String} {f : Variable → Variable} {i : Nat}
    (hi : o.members.findIdx? (·.name == name) = some i) (hf : ∀ x, (f x).name = x.name)
    (hlink : ∀ x, (f x).link = x.link)
    (hguarded : ∀ x, o.find? name = some x → x.Guarded → (f x).Guarded) :
    o.Becomes { o with members := o.members.modify i f } := by
  have hfind := find?_modify hf name "length" o.members.toList
    ((findIdx?_toList o.members name).trans hi)
  rw [← Array.toList_modify, Array.find?_toList, Array.find?_toList] at hfind
  refine .of_members _ (fun y hy hook owner hl => ?_) fun y hy hg => ?_
  · obtain ⟨x, hx, rfl | rfl⟩ := of_mem_modify hy
    · exact ⟨y, hx, hl⟩
    · exact ⟨x, hx, (hlink x).symm.trans hl⟩
  · rw [hfind]
    split
    · rename_i hname
      subst hname
      have hy : o.members.find? (·.name == "length") = some y := hy
      exact ⟨f y, by rw [hy]; rfl, hlink y, hguarded y hy hg⟩
    · exact ⟨y, hy, rfl, hg⟩

theorem becomes_update {name : String} {f : Variable → Variable} (hf : ∀ x, (f x).name = x.name)
    (hlink : ∀ x, (f x).link = x.link)
    (hguarded : ∀ x, o.find? name = some x → x.Guarded → (f x).Guarded) :
    o.Becomes (o.update name f) := by
  unfold update
  split
  · rename_i hi
    exact becomes_modify hi hf hlink hguarded
  · exact .refl o

theorem becomes_protect (name : String) (key : Nat) (o : Object) :
    o.Becomes (o.update name fun x => { x with key := key }) :=
  becomes_update (fun _ => rfl) (fun _ => rfl) fun _ _ h => ⟨h.hook, h.hidden, h.permanent⟩

theorem becomes_updateOrPush {name : String} {f : Variable → Variable}
    (hf : ∀ x, (f x).name = x.name) (hlink : ∀ x, (f x).link = x.link)
    (hguarded : ∀ x, o.find? name = some x → x.Guarded → (f x).Guarded) :
    o.Becomes (o.updateOrPush name f) := by
  unfold updateOrPush
  split
  · rename_i hi
    exact becomes_modify hi hf hlink hguarded
  · refine becomes_push fun hook owner h => ?_
    rw [hlink] at h
    cases h

theorem becomes_put (name : String) (v : Value) : o.Becomes (o.put name v) :=
  becomes_updateOrPush (fun _ => rfl) (fun _ => rfl) fun _ _ h => ⟨h.hook, h.hidden, h.permanent⟩

theorem becomes_putHidden (name : String) (v : Value) : o.Becomes (o.putHidden name v) :=
  becomes_updateOrPush (fun _ => rfl) (fun _ => rfl) fun _ _ h => ⟨h.hook, rfl, h.permanent⟩

theorem becomes_store (name : String) (v : Value) : o.Becomes (o.store name v) := by
  unfold store
  split
  · exact .refl o
  · rename_i hplain
    refine becomes_updateOrPush (fun _ => rfl) (fun _ => rfl) fun x hx h => ?_
    obtain ⟨hook, owner, hlink⟩ := h.hook
    rw [hx, Option.map_some, hlink] at hplain
    exact absurd rfl (hplain hook owner)

theorem becomes_remove {name : String} (hopen : ∀ x, o.find? name = some x → x.permanent = false) :
    o.Becomes (o.remove name) := by
  unfold remove
  split
  · rename_i i hi
    rw [← findIdx?_toList] at hi
    refine .of_members _ (fun y hy hook owner hlink => ?_) fun y hy hguarded => ?_
    · rw [← Array.mem_toList_iff, Array.toList_eraseIdxIfInBounds] at hy
      exact ⟨y, Array.mem_toList_iff.1 (List.mem_of_mem_eraseIdx hy), hlink⟩
    · -- A guarded variable is permanent, so it is another one that is removed.
      have hname : name ≠ "length" := by
        rintro rfl
        exact Bool.false_ne_true ((hopen y hy).symm.trans hguarded.permanent)
      refine ⟨y, ?_, rfl, hguarded⟩
      rw [← Array.find?_toList, Array.toList_eraseIdxIfInBounds, find?_eraseIdx hname _ hi,
        Array.find?_toList]
      exact hy
  · exact .refl o

theorem becomes_discard (name : String) : o.Becomes (o.discard name) := by
  unfold discard
  split
  · rename_i x hx
    split
    · exact .refl o
    · rename_i hpermanent
      refine becomes_remove fun y hy => ?_
      cases hx.symm.trans hy
      exact Bool.eq_false_iff.2 hpermanent
  · exact .refl o

/-! ### Edits -/

theorem becomes_payload (payload : Payload)
    (hp : ∀ length, payload = .array length → ∃ before, o.payload = .array before) :
    o.Becomes { o with payload := payload } :=
  { Becomes.refl o with payload := hp }

theorem becomes_addElement (name : String) (index : Nat) : o.Becomes (o.addElement name index) := by
  have hpush : o.Becomes (o.push (.plain name .undefined)) := becomes_push nofun
  unfold addElement
  dsimp only
  split
  · rename_i length hlength
    exact hpush.trans (becomes_payload _ fun _ _ => ⟨length, hlength⟩)
  · exact hpush

theorem becomes_argumentVariable (locals : ObjectId) (parameters : List String) (i : Nat) (v : Value) :
    o.Becomes (o.push (Script.argumentVariable locals parameters i v)) := by
  refine becomes_push fun hook owner h => ?_
  unfold Script.argumentVariable at h
  split at h <;> cases h

theorem findIdx?_eq_none_iff (members : Array Variable) (name : String) :
    members.findIdx? (·.name == name) = none ↔ members.find? (·.name == name) = none := by
  rw [← findIdx?_toList, List.findIdx?_eq_none_iff, ← Array.find?_toList, List.find?_eq_none]
  exact forall₂_congr fun _ _ => Bool.eq_false_iff

theorem becomes_putParameters (parameters : List String) (args : List Value) :
    o.Becomes (Script.Object.putParameters parameters args o) := by
  refine .foldl ?_ _ o
  rintro o ⟨name, i⟩
  exact becomes_put name _

theorem becomes_addArguments (arguments : ObjectId) (o : Object) :
    o.Becomes (Script.Object.addArguments arguments o) := by
  unfold Script.Object.addArguments
  split
  · exact .refl o
  · exact becomes_push nofun

theorem find?_updateOrPush {f : Variable → Variable} (hf : ∀ x, (f x).name = x.name) (name : String) :
    (o.updateOrPush name f).find? name = some (f ((o.find? name).getD (.plain name .undefined))) := by
  unfold updateOrPush
  cases hi : o.members.findIdx? (·.name == name) with
  | none =>
    have hnone : o.members.find? (·.name == name) = none := (findIdx?_eq_none_iff o.members name).1 hi
    have hname : (f (.plain name .undefined)).name = name := hf _
    show (o.members.push _).find? (·.name == name) = some (f ((o.members.find? (·.name == name)).getD _))
    rw [Array.find?_push, hnone, Option.none_or, if_pos (beq_iff_eq.2 hname), Option.getD_none]
  | some i =>
    have hfind := find?_modify hf name name o.members.toList ((findIdx?_toList o.members name).trans hi)
    rw [if_pos rfl, ← Array.toList_modify, Array.find?_toList, Array.find?_toList] at hfind
    cases hx : o.find? name with
    | none =>
      rw [(findIdx?_eq_none_iff o.members name).2 hx] at hi
      cases hi
    | some x =>
      have hx : o.members.find? (·.name == name) = some x := hx
      rw [hx, Option.map_some] at hfind
      exact hfind

theorem isArray_makeArray (id : ObjectId) (length : Nat) (o : Object) :
    (o.makeArray id length).IsArray id := by
  refine ⟨?_, ?_⟩
  · unfold makeArray updateOrPush
    split <;> rfl
  · have hx := find?_updateOrPush
      (o := { o with payload := .array length, additionHook := some .arrayIndex })
      (f := fun x => { x with link := .hook .arrayLength id, hidden := true, permanent := true })
      (fun _ => rfl) "length"
    exact ⟨_, hx, rfl, ⟨_, _, rfl⟩, rfl, rfl⟩

theorem Counted.makeArray (h : o.Counted a) (length : Nat) : (o.makeArray a length).Counted a := by
  have harray := isArray_makeArray a length o
  refine ⟨fun _ _ => harray, fun x hx owner hlink => ⟨?_, harray⟩⟩
  rcases of_mem_updateOrPush hx with hx | ⟨y, rfl, -⟩
  · exact (h.hooks x hx owner hlink).1
  · cases hlink
    rfl

theorem IsArray.payload_set (h : o.IsArray a) (payload : Payload) :
    { o with payload := payload }.IsArray a := ⟨h.additionHook, h.length⟩

theorem Counted.payload_set (h : o.Counted a) (harray : o.IsArray a) (payload : Payload) :
    { o with payload := payload }.Counted a where
  payload _ _ := harray.payload_set payload
  hooks x hx owner hlink := ⟨(h.hooks x hx owner hlink).1, harray.payload_set payload⟩

/-- The elements of an object that are below a length, and its other members. -/
def cutOff (length : Nat) (o : Object) : Object :=
  { o with members := o.members.filter fun x =>
      match ArrayIndex.ofName? x.name with
      | some i => i < length
      | none => true }

theorem becomes_cutOff (length : Nat) : o.Becomes (o.cutOff length) := by
  refine .of_members _ (fun x hx hook owner hlink => ?_) fun x hx hguarded => ?_
  · exact ⟨x, (Array.mem_filter.1 hx).1, hlink⟩
  · refine ⟨x, ?_, rfl, hguarded⟩
    rw [← Array.find?_toList, Array.toList_filter, List.find?_filter, ← hx, find?, ← Array.find?_toList]
    -- `length` is the name of no index, so the variable of that name is among those that stay.
    refine congrArg (List.find? · _) (funext fun y => ?_)
    by_cases hy : y.name = "length"
    · have hindex : ArrayIndex.ofName? y.name = none := by
        rw [hy]
        decide
      rw [hindex, hy]
      rfl
    · simp [hy]

theorem setLength_eq (current length : Nat) (o : Object) :
    o.setLength current length
      = { (if length < current then o.cutOff length else o) with payload := .array length } := rfl

theorem IsArray.setLength (h : o.IsArray a) (current length : Nat) :
    (o.setLength current length).IsArray a := by
  rw [setLength_eq]
  split
  · exact ((becomes_cutOff length).isArray h).payload_set _
  · exact h.payload_set _

theorem Counted.setLength (h : o.Counted a) (harray : o.IsArray a) (current length : Nat) :
    (o.setLength current length).Counted a := by
  rw [setLength_eq]
  split
  · exact ((becomes_cutOff length).counted h).payload_set ((becomes_cutOff length).isArray harray) _
  · exact h.payload_set harray _

theorem Edit.becomes {p : Pairing} {b : ObjectId} {f f' : Object → Object} (h : Edit p a b f f')
    (o : Object) : o.Becomes (f o) ∨ ∃ length, f = (·.makeArray a length) := by
  cases h with
  | makeArray length => exact .inr ⟨length, rfl⟩
  | pushGlobal name => exact .inl (becomes_push nofun)
  | pushMember name value => exact .inl (becomes_push nofun)
  | declare name =>
    dsimp only
    split
    · exact .inl (.refl o)
    · exact .inl (becomes_push nofun)
  | putHidden name special value => exact .inl (becomes_putHidden name _)
  | store name value => exact .inl (becomes_store name _)
  | bindFunction name id =>
    exact .inl (becomes_update (fun _ => rfl) (fun _ => rfl) fun _ _ h => ⟨h.hook, h.hidden, h.permanent⟩)
  | makePermanent name =>
    exact .inl (becomes_update (fun _ => rfl) (fun _ => rfl) fun _ _ h => ⟨h.hook, h.hidden, rfl⟩)
  | discard name => exact .inl (becomes_discard name)
  | addElement name index => exact .inl (becomes_addElement name index)
  | setPayload payload other => exact .inl (becomes_payload payload fun length h => absurd h (other length))
  | pushElements elements =>
    refine .inl (.foldl ?_ _ o)
    rintro o ⟨i, v⟩
    exact becomes_push nofun
  | pushValues values =>
    refine .inl (.foldl ?_ _ o)
    rintro o ⟨v, i⟩
    exact becomes_push nofun
  | setCallsAsMember on => exact .inl { Becomes.refl o with }

theorem Fill.becomes {p : Pairing} {f f' : Object → Object} (h : Fill p f f') (o : Object) :
    o.Becomes (f o) := by
  cases h with
  | put name id => exact becomes_put name _
  | putHidden name value => exact becomes_putHidden name _
  | becomeArguments parameters function locals args =>
    have hproto : o.Becomes { o with proto := some Intrinsic.object } := { Becomes.refl o with }
    refine (hproto.trans (.foldl (fun _ _ => ?_) _ _)).trans (becomes_putHidden "callee" _)
    exact becomes_argumentVariable _ _ _ _
  | @bindParameters c d parameters xs ys arguments args =>
    exact (becomes_putParameters parameters xs).trans (becomes_addArguments c _)

theorem Edit.counted {p : Pairing} {b : ObjectId} {f f' : Object → Object} (h : Edit p a b f f')
    (ho : o.Counted a) : (f o).Counted a := by
  rcases h.becomes o with hbecomes | ⟨length, rfl⟩
  · exact hbecomes.counted ho
  · exact ho.makeArray length

theorem Edit.isArray {p : Pairing} {b : ObjectId} {f f' : Object → Object} (h : Edit p a b f f')
    (ho : o.IsArray a) : (f o).IsArray a := by
  rcases h.becomes o with hbecomes | ⟨length, rfl⟩
  · exact hbecomes.isArray ho
  · exact isArray_makeArray a length o

theorem Ordinary.counted (h : o.Ordinary) : o.Counted a :=
  ⟨fun length hp => absurd hp (h.payload length),
    fun x hx owner hlink => absurd hlink (h.links x hx _ owner)⟩

end Object

/-! ## Arrays on a heap -/

/-- Whether the objects of a sound heap have the hooks of arrays where they have the payload of one. -/
structure Heap.Counted (h : Heap) : Prop where
  sound : h.Sound
  objects : ∀ {a o}, h.get? a = some o → o.Counted a

/-- Whether an object is a live array. -/
def Heap.HasArray (h : Heap) (a : ObjectId) : Prop := ∃ o, h.get? a = some o ∧ o.IsArray a

namespace Heap

variable {h n : Heap} {a b : ObjectId}

theorem Counted.modifySlot (hc : h.Counted) {f : Slot → Slot}
    (hf : ∀ s, h.slot? a = some s → (f s).object.Counted a) : (h.modifySlot a f).Counted where
  sound := hc.sound.modifySlot _
  objects {b o} ho := by
    rw [get?_modifySlot] at ho
    split at ho
    · rename_i hab
      subst hab
      obtain ⟨s, hs, rfl⟩ := Option.map_eq_some_iff.1 ho
      exact hf s hs
    · exact hc.objects ho

theorem HasArray.modifySlot (hb : h.HasArray b) {f : Slot → Slot}
    (hf : ∀ s, h.slot? a = some s → s.object.IsArray a → (f s).object.IsArray a) :
    (h.modifySlot a f).HasArray b := by
  obtain ⟨o, ho, harray⟩ := hb
  rw [HasArray, get?_modifySlot]
  split
  · rename_i hab
    subst hab
    obtain ⟨s, hs, rfl⟩ := Option.map_eq_some_iff.1 ho
    exact ⟨_, by rw [hs]; rfl, hf s hs harray⟩
  · exact ⟨o, ho, harray⟩

theorem Counted.pins (hc : h.Counted) {f : Slot → Slot} (hf : ∀ s, (f s).object = s.object) :
    (h.modifySlot a f).Counted :=
  hc.modifySlot fun s hs => hf s ▸ hc.objects (by rw [get?, hs]; rfl)

theorem HasArray.pins (hb : h.HasArray b) {f : Slot → Slot} (hf : ∀ s, (f s).object = s.object) :
    (h.modifySlot a f).HasArray b :=
  hb.modifySlot fun s _ harray => (hf s).symm ▸ harray

theorem Counted.alloc (hc : h.Counted) {o : Object} (ho : o.Ordinary) : (h.alloc o).2.Counted where
  sound := hc.sound.alloc o
  objects {a n} hget := by
    rw [get?, slot?_alloc hc.sound] at hget
    split at hget
    · cases hget
      exact ho.counted
    · exact hc.objects hget

theorem HasArray.alloc (ha : h.HasArray a) (hs : h.Sound) (o : Object) : (h.alloc o).2.HasArray a := by
  obtain ⟨n, hn, harray⟩ := ha
  refine ⟨n, ?_, harray⟩
  rw [get?, slot?_alloc hs, if_neg (alloc_ne hs (isLive_of_get? hn) o), ← get?, hn]

theorem Counted.emptied (hc : h.Counted) (hn : h.Sound → n.Sound)
    (hsub : ∀ a, n.slot? a = h.slot? a ∨ n.slot? a = none) : n.Counted where
  sound := hn hc.sound
  objects {a o} hget := by
    rcases hsub a with hsame | hnone
    · refine hc.objects ?_
      rw [get?, ← hsame]
      exact hget
    · rw [get?, hnone] at hget
      cases hget

/-- The owner of a length hook is an array. -/
theorem Counted.hasArray_of_hook (hc : h.Counted) {name : String}
    (hlink : (h.own? b name).map Variable.link = some (.hook .arrayLength a)) : h.HasArray a := by
  obtain ⟨x, hx, hlink⟩ := Option.map_eq_some_iff.1 hlink
  obtain ⟨o, ho, hx⟩ := Option.bind_eq_some_iff.1 hx
  have hmem : x ∈ o.members := Array.mem_of_find?_eq_some hx
  obtain ⟨rfl, harray⟩ := (hc.objects ho).hooks x hmem a hlink
  exact ⟨o, ho, harray⟩

end Heap

/-! ## The invariant -/

/-- The arrays on the heap as an invariant.  A part of a run may know some objects to be arrays. -/
def Invariant.counting : Invariant where
  Ghost := ObjectId → Prop
  inv _ g m := m.heap.Counted ∧ ∀ a, g a → m.heap.HasArray a
  spent g m := m.heap.Counted ∧ ∀ a, g a → m.heap.HasArray a
  lengths g a := g a
  spend h := h
  edit h he _ :=
    ⟨h.1.modifySlot fun s hs => he.counted (h.1.objects (by rw [Heap.get?, hs]; rfl)),
      fun b hb => (h.2 b hb).modifySlot fun s _ harray => he.isArray harray⟩
  fill h _ hf _ :=
    ⟨h.1.modifySlot fun s hs => (hf.becomes _).counted (h.1.objects (by rw [Heap.get?, hs]; rfl)),
      fun b hb => (h.2 b hb).modifySlot fun s _ harray => (hf.becomes _).isArray harray⟩
  -- The conversion of a value may run any script.  The ghost carries over it that the owner is an array.
  lengthHook {g m _ b _} h hlink :=
    ⟨fun a => g a ∨ a = b, .inr rfl,
      ⟨h.1, fun a ha => ha.elim (h.2 a) fun he => he ▸ h.1.hasArray_of_hook hlink⟩,
      fun hn => ⟨hn.1, fun a ha => hn.2 a (.inl ha)⟩, fun hn => ⟨hn.1, fun a ha => hn.2 a (.inl ha)⟩⟩
  setLength {g m a} current length h hlengths := by
    obtain ⟨o, ho, harray⟩ := h.2 a hlengths
    refine ⟨h.1.modifySlot fun s hs => ?_, fun b hb => (h.2 b hb).modifySlot fun s _ harray =>
      harray.setLength current length⟩
    rw [Heap.get?, hs] at ho
    cases ho
    exact (h.1.objects (by rw [Heap.get?, hs]; rfl)).setLength harray current length
  alloc h ho _ := ⟨h.1.alloc ho, fun a ha => (h.2 a ha).alloc h.1.sound _⟩
  pin a {g _} h :=
    ⟨g, ⟨h.1.pins fun _ => rfl, fun b hb => (h.2 b hb).pins fun _ => rfl⟩,
      fun hn => ⟨hn.1.pins fun _ => rfl, fun b hb => (hn.2 b hb).pins fun _ => rfl⟩,
      fun hn => ⟨hn.1.pins fun _ => rfl, fun b hb => (hn.2 b hb).pins fun _ => rfl⟩⟩
  frame {g _ _} _ _ _ h := by
    refine ⟨g, trivial, h, fun {_ n} hn => ?_, fun {n} hn => ?_⟩ <;>
    · rw [Machine.pop_heap]
      exact hn

/-! ## Runs -/

/-- All of the interface but for hooks of objects and collections. -/
abbrev Permit.unhooked : Permit := ⟨fun _ => True, True, True, True, False, False, True⟩

/-- Arrays have their hooks as each task starts, as it ends, and as each built-in function begins. -/
def Check.counting : Check where
  task _ m o := m.heap.Counted ∧ o.machine.heap.Counted
  native m := m.heap.Counted

namespace Invariant

variable {config : Config} {host : Host} {m : Machine}

theorem counting_grants : counting.Grants .unhooked where
  keep _ _ _ a on hm := by
    cases on with
    | true => exact ⟨hm.1.pins fun _ => rfl, fun b hb => (hm.2 b hb).pins fun _ => rfl⟩
    | false => exact ⟨hm.1.pins fun _ => rfl, fun b hb => (hm.2 b hb).pins fun _ => rfl⟩
  protect _ _ _ a name key hm := by
    exact ⟨hm.1.modifySlot fun s hs =>
        (Object.becomes_protect name key _).counted (hm.1.objects (by rw [Heap.get?, hs]; rfl)),
      fun b hb => (hm.2 b hb).modifySlot fun s _ harray => (Object.becomes_protect name key _).isArray harray⟩
  hook h := h.elim
  fill _ _ _ _ _ hm hf :=
    ⟨hm.1.modifySlot fun s hs => (hf.becomes _).counted (hm.1.objects (by rw [Heap.get?, hs]; rfl)),
      fun b hb => (hm.2 b hb).modifySlot fun s _ harray => (hf.becomes _).isArray harray⟩
  collect h := h.elim

theorem counting_programs : counting.Programs fun _ => False where
  collect hm _ hsub hsound _ := ⟨hm.1.emptied hsound hsub, nofun⟩

end Invariant

namespace Realm

theorem isArray_of_hasArrayHooks {id : ObjectId} {o : Object} (h : hasArrayHooks id o = true) :
    o.IsArray id := by
  unfold hasArrayHooks at h
  split at h
  · rename_i hhook hfind
    exact ⟨hhook, _, hfind, by rw [beq_iff_eq.1 h], ⟨_, _, rfl⟩, rfl, rfl⟩
  · cases h

theorem heap_counted : heap.Counted where
  sound := heap_sound
  objects {a o} ho := by
    obtain ⟨s, hs, rfl⟩ := Option.map_eq_some_iff.1 ho
    have hall := List.all_eq_true.1 heap_isCounted (some s, a.index) ?_
    · rw [Bool.and_eq_true, List.all_eq_true] at hall
      refine ⟨fun length hp => ?_, fun x hx owner hlink => ?_⟩
      · have hhooks := hall.1
        rw [hp] at hhooks
        exact isArray_of_hasArrayHooks hhooks
      · have hhooks := hall.2 x (Array.mem_toList_iff.2 hx)
        rw [hlink, Bool.and_eq_true] at hhooks
        exact ⟨beq_iff_eq.1 hhooks.1, isArray_of_hasArrayHooks hhooks.2⟩
    · rw [Heap.slot?, Option.join_eq_some_iff] at hs
      rw [List.mem_zipIdx_iff_getElem?, Array.getElem?_toList]
      exact hs

end Realm

end PageScript
