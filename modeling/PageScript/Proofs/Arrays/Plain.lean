import PageScript.Proofs.Arrays.Indices
import PageScript.Proofs.Arrays.Length
import PageScript.Proofs.Simulation.Arrays

/-! # Plain arrays

The elements of most arrays are plain variables.  Only those of `arguments` objects are synonyms, and they are
so from the start.  So an array that is plain stays so as long as it lives, whatever scripts do; and where the
embedding program gives no hooks to objects, there are none but those that count the lengths of arrays.
-/

set_option autoImplicit false

namespace PageScript

/-! ## Links -/

/-- Whether a variable, if it has a hook, is the length of an array. -/
def Link.Native (name : String) (link : Link) : Prop :=
  ∀ hook owner, link = .hook hook owner → hook = .arrayLength ∧ name = "length"

/-- Whether a variable, if it is an element, is linked to nothing. -/
def Link.PlainElement (name : String) (link : Link) : Prop :=
  ∀ i, ArrayIndex.ofName? name = some i → link = .plain

/-- Whether the names and links of the variables of an object have some property. -/
def Object.Links (Q : String → Link → Prop) (o : Object) : Prop := ∀ x ∈ o.members, Q x.name x.link

/-- Whether an object has the hooks of an array, and plain variables for its elements. -/
structure Object.PlainArray (id : ObjectId) (o : Object) : Prop where
  isArray : o.IsArray id
  elements : o.Links Link.PlainElement

namespace Object

variable {Q : String → Link → Prop} {o n : Object} {name : String} {f : Variable → Variable} {p : Pairing}
  {a b : ObjectId} {g g' : Object → Object}

theorem Links.of_subset (h : o.Links Q) (hsub : ∀ x ∈ n.members, x ∈ o.members) : n.Links Q :=
  fun x hx => h x (hsub x hx)

theorem Links.push (h : o.Links Q) {x : Variable} (hx : Q x.name x.link) : (o.push x).Links Q := by
  intro y hy
  rcases Array.mem_push.1 hy with hy | rfl
  · exact h y hy
  · exact hx

theorem Links.foldl {α : Type} {step : Object → α → Object}
    (hstep : ∀ o i, Object.Links Q o → (step o i).Links Q) (items : List α) (h : o.Links Q) :
    (items.foldl step o).Links Q := by
  induction items generalizing o with
  | nil => exact h
  | cons i items ih => exact ih (hstep o i h)

theorem Links.update (h : o.Links Q) (hf : ∀ x, (f x).name = x.name ∧ (f x).link = x.link) :
    (o.update name f).Links Q := by
  unfold Object.update
  split
  · intro y hy
    obtain ⟨x, hx, rfl | rfl⟩ := of_mem_modify hy
    · exact h y hx
    · rw [(hf x).1, (hf x).2]
      exact h x hx
  · exact h

theorem Links.updateOrPush (h : o.Links Q) (hplain : Q name .plain)
    (hf : ∀ x, x.name = name → Q name x.link → Q (f x).name (f x).link) : (o.updateOrPush name f).Links Q := by
  intro y hy
  rcases of_mem_updateOrPush hy with hy | ⟨x, rfl, hx | rfl⟩
  · exact h y hy
  · have hname : x.name = name := beq_iff_eq.1 (Array.find?_eq_some_iff_append.1 hx).1
    exact hf x hname (hname ▸ h x (Array.mem_of_find?_eq_some hx))
  · exact hf _ rfl hplain

theorem Links.put (h : o.Links Q) (hplain : Q name .plain) (v : Value) : (o.put name v).Links Q :=
  h.updateOrPush hplain fun _ hname hx => hname ▸ hx

theorem Links.putHidden (h : o.Links Q) (hplain : Q name .plain) (v : Value) : (o.putHidden name v).Links Q :=
  h.updateOrPush hplain fun _ hname hx => hname ▸ hx

theorem Links.store (h : o.Links Q) (hplain : Q name .plain) (v : Value) : (o.store name v).Links Q := by
  unfold Object.store
  split
  · exact h
  · exact h.updateOrPush hplain fun _ hname hx => hname ▸ hx

theorem Links.addElement (h : o.Links Q) (hplain : Q name .plain) (index : Nat) :
    (o.addElement name index).Links Q := by
  intro x hx
  rw [members_addElement] at hx
  exact (h.push (x := .plain name .undefined) hplain) x hx

theorem Links.setLength (h : o.Links Q) (current length : Nat) : (o.setLength current length).Links Q := by
  rw [setLength_eq]
  split
  · exact h.of_subset fun x hx => (Array.mem_filter.1 hx).1
  · exact h

/-- A run gives a hook to the length of an array only. -/
theorem Edit.links (he : Edit p a b g g') (hplain : ∀ name, Q name .plain)
    (hlength : Q "length" (.hook .arrayLength a)) (h : o.Links Q) : (g o).Links Q := by
  cases he with
  | pushGlobal other => exact h.push (hplain other)
  | pushMember other value => exact h.push (hplain other)
  | declare other =>
    dsimp only
    split
    · exact h
    · exact h.push (hplain other)
  | putHidden other special value => exact h.putHidden (hplain other) _
  | store other value => exact h.store (hplain other) _
  | bindFunction other id => exact h.update fun _ => ⟨rfl, rfl⟩
  | makePermanent other => exact h.update fun _ => ⟨rfl, rfl⟩
  | discard other => exact h.of_subset fun _ => mem_of_mem_discard
  | addElement other index => exact h.addElement (hplain other) index
  | makeArray length =>
    have hpayload : ({ o with payload := .array length, additionHook := some .arrayIndex } : Object).Links Q := h
    exact hpayload.updateOrPush (hplain _) fun x hname _ => hname ▸ hlength
  | setPayload payload => exact h
  | pushElements elements => exact .foldl (fun o _ ho => ho.push (hplain _)) _ h
  | pushValues values => exact .foldl (fun o _ ho => ho.push (hplain _)) _ h
  | setCallsAsMember on => exact h

/-- A new object is given no hooks, but it may be given synonyms. -/
theorem Fill.links (hf : Fill p g g') (hplain : ∀ name, Q name .plain)
    (hsynonym : ∀ name b other, Q name (.synonym b other)) (h : o.Links Q) : (g o).Links Q := by
  cases hf with
  | put other id => exact h.put (hplain other) _
  | putHidden other value => exact h.putHidden (hplain other) _
  | becomeArguments parameters function locals args =>
    have hproto : ({ o with proto := some Intrinsic.object } : Object).Links Q := h
    refine (hproto.foldl ?_ _).putHidden (hplain _) _
    rintro o ⟨v, i⟩ ho
    refine ho.push ?_
    unfold Script.argumentVariable
    split
    · exact hsynonym _ _ _
    · exact hplain _
  | @bindParameters c d parameters xs ys arguments args =>
    have hparameters : (Script.Object.putParameters parameters xs o).Links Q :=
      .foldl (fun o x ho => ho.put (hplain _) _) _ h
    show (Script.Object.addArguments c _).Links Q
    unfold Script.Object.addArguments
    split
    · exact hparameters
    · exact hparameters.push (hplain _)

theorem Edit.native (he : Edit p a b g g') (h : o.Links Link.Native) : (g o).Links Link.Native := by
  refine he.links (fun _ => nofun) (fun hook owner hlink => ?_) h
  cases hlink
  exact ⟨rfl, rfl⟩

theorem Fill.native (hf : Fill p g g') (h : o.Links Link.Native) : (g o).Links Link.Native :=
  hf.links (fun _ => nofun) (fun _ _ _ => nofun) h

theorem Edit.plainElements (he : Edit p a b g g') (h : o.Links Link.PlainElement) :
    (g o).Links Link.PlainElement := by
  refine he.links (fun _ _ _ => rfl) (fun i hi => ?_) h
  rw [ArrayIndex.ofName?_length] at hi
  cases hi

theorem Edit.plainArray (he : Edit p a b g g') (h : o.PlainArray a) : (g o).PlainArray a :=
  ⟨he.isArray h.isArray, he.plainElements h.elements⟩

theorem PlainArray.setLength (h : o.PlainArray a) (current length : Nat) :
    (o.setLength current length).PlainArray a :=
  ⟨h.isArray.setLength current length, h.elements.setLength current length⟩

end Object

/-! ## Plain arrays on a heap -/

/-- Whether an object is a live plain array. -/
def Heap.HasPlainArray (h : Heap) (a : ObjectId) : Prop := ∃ o, h.get? a = some o ∧ o.PlainArray a

/-- Whether the arrays on a heap have their hooks, and there are no others. -/
structure Heap.Lengthwise (h : Heap) : Prop where
  counted : h.Counted
  native : ∀ {a o}, h.get? a = some o → o.Links Link.Native

/-- Whether the only hooks are those of lengths, and some objects are plain arrays. -/
structure Heap.Plain (held : ObjectId → Prop) (h : Heap) : Prop where
  native : ∀ {a o}, h.get? a = some o → o.Links Link.Native
  arrays : ∀ {a}, held a → h.HasPlainArray a

namespace Heap

variable {h n : Heap} {a b : ObjectId} {held : ObjectId → Prop}

theorem HasPlainArray.modifySlot (ha : h.HasPlainArray a) {f : Slot → Slot}
    (hf : b = a → ∀ s, s.object.PlainArray a → (f s).object.PlainArray a) :
    (h.modifySlot b f).HasPlainArray a := by
  obtain ⟨o, ho, hplain⟩ := ha
  rw [HasPlainArray, get?_modifySlot]
  split
  · obtain ⟨s, hs, rfl⟩ := Option.map_eq_some_iff.1 ho
    exact ⟨_, by rw [hs]; rfl, hf ‹_› s hplain⟩
  · exact ⟨o, ho, hplain⟩

/-- An array whose only hooks are those of lengths is plain if none of its elements is a synonym. -/
theorem Lengthwise.hasPlainArray (hh : h.Lengthwise) {o : Object} {length : Nat} (ho : h.get? a = some o)
    (hp : o.payload = .array length)
    (hdirect : ∀ x ∈ o.members, ∀ i, ArrayIndex.ofName? x.name = some i → ∀ b name, x.link ≠ .synonym b name) :
    h.HasPlainArray a := by
  refine ⟨o, ho, (hh.counted.objects ho).payload length hp, fun x hx i hi => ?_⟩
  cases hlink : x.link with
  | plain => rfl
  | hook hook owner =>
    rw [(hh.native ho x hx hook owner hlink).2, ArrayIndex.ofName?_length] at hi
    cases hi
  | synonym b name => exact absurd hlink (hdirect x hx i hi b name)

theorem HasPlainArray.isLive (ha : h.HasPlainArray a) : h.isLive a = true := by
  obtain ⟨o, ho, -⟩ := ha
  exact isLive_of_get? ho

theorem HasPlainArray.hasArray (ha : h.HasPlainArray a) : h.HasArray a := by
  obtain ⟨o, ho, hplain⟩ := ha
  exact ⟨o, ho, hplain.isArray⟩

namespace Plain

theorem modifySlot (hh : h.Plain held) {f : Slot → Slot}
    (hlinks : ∀ s, s.object.Links Link.Native → (f s).object.Links Link.Native)
    (harray : held b → ∀ s, s.object.PlainArray b → (f s).object.PlainArray b) :
    (h.modifySlot b f).Plain held where
  native {a o} ho := by
    rw [get?_modifySlot] at ho
    split at ho
    · obtain ⟨s, hs, rfl⟩ := Option.map_eq_some_iff.1 ho
      exact hlinks s (hh.native (by rw [get?, hs]; rfl))
    · exact hh.native ho
  arrays {a} ha := (hh.arrays ha).modifySlot fun heq => heq ▸ harray (heq ▸ ha)

theorem pins (hh : h.Plain held) {f : Slot → Slot} (hf : ∀ s, (f s).object = s.object) :
    (h.modifySlot b f).Plain held :=
  hh.modifySlot (fun s hs => (hf s).symm ▸ hs) fun _ s hs => (hf s).symm ▸ hs

theorem emptied (hh : h.Plain fun _ => False) (hsub : ∀ a, n.slot? a = h.slot? a ∨ n.slot? a = none) :
    n.Plain fun _ => False where
  native {a o} ho := by
    rcases hsub a with hsame | hnone
    · rw [get?, hsame] at ho
      exact hh.native ho
    · rw [get?, hnone] at ho
      cases ho
  arrays h := h.elim

theorem alloc (hh : h.Plain held) (hs : h.Sound) {o : Object} (ho : o.Ordinary) :
    (h.alloc o).2.Plain held where
  native {a n} hn := by
    rw [get?, slot?_alloc hs] at hn
    split at hn
    · cases hn
      exact fun x hx hook owner hlink => absurd hlink (ho.links x hx hook owner)
    · exact hh.native hn
  arrays {a} ha := by
    obtain ⟨n, hn, hplain⟩ := hh.arrays ha
    refine ⟨n, ?_, hplain⟩
    rw [get?, slot?_alloc hs, if_neg (alloc_ne hs (isLive_of_get? hn) o), ← get?, hn]

end Plain

end Heap

/-! ## Runs -/

/-- Plain arrays as an invariant, beside the hooks of arrays.  The arrays are none of those objects that a run
makes. -/
def Invariant.plainness (held : ObjectId → Prop) : Invariant where
  Ghost := ObjectId → Prop
  inv _ g m := (m.heap.Counted ∧ ∀ a, g a → m.heap.HasArray a) ∧ m.heap.Plain held
  spent g m := (m.heap.Counted ∧ ∀ a, g a → m.heap.HasArray a) ∧ m.heap.Plain held
  lengths g a := g a
  made a := ¬held a
  spend h := h
  edit h he _ := ⟨counting.edit h.1 he nofun,
    h.2.modifySlot (fun _ => he.native) fun _ _ => he.plainArray⟩
  fill h hmade hf _ := ⟨counting.fill h.1 trivial hf nofun,
    h.2.modifySlot (fun _ => hf.native) fun ha => absurd ha hmade⟩
  makes o h ha := Heap.alloc_ne h.1.1.sound (h.2.arrays ha).isLive o rfl
  lengthHook h hlink := by
    obtain ⟨g', hlengths, henter, hleave, hspent⟩ := counting.lengthHook h.1 hlink
    exact ⟨g', hlengths, ⟨henter, h.2⟩, fun {ph _} hn => ⟨@hleave ph _ hn.1, hn.2⟩,
      fun hn => ⟨hspent hn.1, hn.2⟩⟩
  setLength current length h hlengths := ⟨counting.setLength current length h.1 hlengths,
    h.2.modifySlot (fun _ hs => hs.setLength current length) fun _ _ hs => hs.setLength current length⟩
  alloc h ho hcode := ⟨counting.alloc h.1 ho hcode, h.2.alloc h.1.1.sound ho⟩
  pin a {g m} h := by
    obtain ⟨g', henter, hleave, hspent⟩ := counting.pin a h.1
    exact ⟨g', ⟨henter, h.2.pins fun _ => rfl⟩, fun {ph _} hn => ⟨@hleave ph _ hn.1, hn.2.pins fun _ => rfl⟩,
      fun hn => ⟨hspent hn.1, hn.2.pins fun _ => rfl⟩⟩
  frame {g _ _} _ _ _ h := by
    refine ⟨g, trivial, h, fun {_ n} hn => ?_, fun {n} hn => ?_⟩ <;>
    · rw [Machine.pop_heap]
      exact hn

/-- All of the interface but hooks of objects, collections, and the changes that are for new objects. -/
abbrev Permit.unfilled : Permit := ⟨fun _ => True, True, True, True, False, False, False⟩

/-- All hooks are those of lengths as each task starts, as it ends, and as each built-in function begins. -/
def Check.lengthwise : Check where
  task _ m o := m.heap.Lengthwise ∧ o.machine.heap.Lengthwise
  native m := m.heap.Lengthwise

namespace Invariant

variable {held : ObjectId → Prop} {config : Config} {host : Host} {m : Machine}

theorem plainness_steady : (plainness held).Steady := ⟨fun h => h, fun h => h⟩

/-- An embedding program may change an object as if it were new where no array is held. -/
theorem plainness_grants {may : Permit} (hhooks : ¬may.hooking) (hcollections : ¬may.collections)
    (hfills : may.fills → ∀ a, ¬held a) : (plainness held).Grants may where
  keep _ g m a on h := by
    have hcounted := counting_grants.keep trivial a on h.1
    cases on with
    | true => exact ⟨hcounted, h.2.pins fun _ => rfl⟩
    | false => exact ⟨hcounted, h.2.pins fun _ => rfl⟩
  protect _ _ _ a name key h := ⟨counting_grants.protect trivial a name key h.1,
    h.2.modifySlot (fun _ hs => hs.update fun _ => ⟨rfl, rfl⟩) fun _ _ hs =>
      ⟨(Object.becomes_protect name key _).isArray hs.isArray, hs.elements.update fun _ => ⟨rfl, rfl⟩⟩⟩
  hook h := absurd h hhooks
  fill hmay {_ _ a _} h hf := (plainness held).fill h (hfills hmay a) hf nofun
  collect h := absurd h hcollections

theorem plainness_hosts (hhost : host.Uses .unfilled .unfilled) : (plainness held).Hosts config host where
  depth := trivial
  shows := trivial
  embeds :=
    have hgrants : (plainness held).toSimulation.Grants .unfilled :=
      (plainness_grants not_false not_false False.elim).toSimulation
    .of_uses hhost hgrants hgrants (fun _ _ => .inr trivial) fun _ _ => trivial

theorem plainness_ensures : (plainness held).Ensures .lengthwise where
  task _ hm hends := by
    obtain ⟨g, hm⟩ := hm
    have hend := (hends g hm).steady plainness_steady
    exact ⟨⟨hm.1.1, hm.2.native⟩, hend.1.1, hend.2.native⟩
  native hm := ⟨hm.1.1, hm.2.native⟩

theorem plainness_programs : (plainness fun _ => False).Programs fun _ => False where
  collect h hreach hsub hsound hempty :=
    ⟨counting_programs.collect h.1 hreach hsub hsound hempty, h.2.emptied hsub⟩

theorem plainness_contained : (plainness held).toSimulation.Contained :=
  Simulation.contained_of_stray fun _ => trivial

end Invariant

namespace Realm

/-- Whether the hooks of the objects of a heap are those of lengths. -/
def isLengthwise (h : Heap) : Bool :=
  h.slots.toList.all fun slot =>
    match slot with
    | none => true
    | some s => s.object.members.toList.all fun x =>
      match x.link with
      | .hook .arrayLength _ => x.name == "length"
      | .hook (.host _) _ => false
      | _ => true

set_option maxRecDepth 100000 in
theorem heap_isLengthwise : isLengthwise heap = true := by
  decide +kernel

theorem heap_plain : heap.Plain fun _ => False where
  native {a o} ho := by
    obtain ⟨s, hs, rfl⟩ := Option.map_eq_some_iff.1 ho
    have hmem : some s ∈ heap.slots.toList := by
      rw [Heap.slot?, Option.join_eq_some_iff] at hs
      exact Array.mem_toList_iff.2 (Array.mem_of_getElem? hs)
    have hall := List.all_eq_true.1 heap_isLengthwise (some s) hmem
    intro x hx hook owner hlink
    have hhook := List.all_eq_true.1 hall x (Array.mem_toList_iff.2 hx)
    rw [hlink] at hhook
    cases hook with
    | arrayLength => exact ⟨rfl, beq_iff_eq.1 hhook⟩
    | host behavior => cases hhook
  arrays h := h.elim

end Realm

namespace Script

variable {config : Config} {host : Host} {m : Machine}

theorem lengthwise_of_reachable (hhost : host.Uses .unfilled .unfilled)
    (hm : Interpreter.Reachable .unhooked config host m) : m.heap.Lengthwise := by
  have hgrants : (Invariant.plainness fun _ => False).Grants .unhooked :=
    Invariant.plainness_grants not_false not_false fun _ _ => not_false
  obtain ⟨g, hcounted, hplain⟩ := Invariant.reachable [] Invariant.plainness_steady
    (Invariant.plainness_hosts hhost) trivial Invariant.plainness_contained hgrants
    trivial (fun _ _ => .inl trivial)
    (fun es _ => ⟨fun _ => False, ⟨Realm.heap_counted, nofun⟩, Realm.heap_plain⟩)
    (fun hm => ⟨_, Invariant.plainness_programs, fun e n hn => by cases hn; exact ⟨⟨hm.1.1, nofun⟩, hm.2⟩⟩) hm
  exact ⟨hcounted.1, hplain.native⟩

/-- Plain arrays stay so in the course of a task, and all hooks are those of lengths. -/
theorem perform_plain (held : ObjectId → Prop) (hhost : host.Uses .unfilled .unfilled)
    (hm : m.heap.Lengthwise) (harrays : ∀ a, held a → m.heap.HasPlainArray a) (alarm : Outcome Value) (limit : Nat)
    (t : Task) :
    performChecked .lengthwise alarm config host limit t m = performUpTo config host limit t m ∧
      (performUpTo config host limit t m).machine.heap.Lengthwise ∧
      ∀ a, held a → (performUpTo config host limit t m).machine.heap.HasPlainArray a := by
  have hhosts : (Invariant.plainness held).Hosts config host := Invariant.plainness_hosts hhost
  have hrun := Invariant.perform_checked (g := fun _ => False) hhosts trivial Invariant.plainness_contained
    Invariant.plainness_ensures alarm limit (Invariant.poses_of_trees (t := t) trivial fun _ _ => trivial)
    ⟨⟨hm.counted, nofun⟩, hm.native, harrays _⟩
  obtain ⟨hcounted, hplain⟩ := hrun.2.steady Invariant.plainness_steady
  exact ⟨hrun.1, ⟨hcounted.1, hplain.native⟩, fun a => hplain.arrays⟩

/-- Plain arrays stay so when values are sorted, whatever the comparisons do. -/
theorem sortValues_plain (held : ObjectId → Prop) (hhost : host.Uses .unfilled .unfilled)
    (hm : m.heap.Lengthwise) (harrays : ∀ a, held a → m.heap.HasPlainArray a) {limit : Nat}
    {comparator : Option Value} {values sorted : List Value} {n : Machine}
    (h : sortValues comparator values (.upTo config host limit) m = .value sorted n) :
    ∀ a, held a → n.heap.HasPlainArray a := by
  have hhosts : (Invariant.plainness held).Hosts config host := Invariant.plainness_hosts hhost
  have hfollows : (Invariant.plainness held).toSimulation.Follows [] .identity (.list Value.Matches)
      (sortValues comparator values) (sortValues comparator values) :=
    Simulation.sortValues_follows (Matching.option_refl Value.Matches.refl comparator)
      (Matching.list_refl Value.Matches.refl values)
  have hends := Invariant.ends_of_follows hhosts trivial Invariant.plainness_contained hfollows limit
    (g := fun _ => False) ⟨⟨hm.counted, nofun⟩, hm.native, harrays _⟩
  rw [h] at hends
  exact fun a => (hends.steady Invariant.plainness_steady).2.arrays

end Script

end PageScript
