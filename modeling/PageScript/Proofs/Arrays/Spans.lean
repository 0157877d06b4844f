import Mathlib.Data.Finset.Update
import PageScript.Proofs.Arrays.Cells

/-! # Changes of elements

What a write, an addition, a deletion and a new length make of an array, as changes of its length and of the
values at its indices.  Where no element is a synonym, nothing else changes: neither another object nor
anything of the array itself but its elements and its length.
-/

set_option autoImplicit false

namespace PageScript

/-! ## Arrays as objects -/

/-- Whether an object is an array of a length that exceeds its indices, with each name once and no element
that cannot be deleted. -/
structure Object.Sequence (id : ObjectId) (length : Nat) (o : Object) : Prop where
  isArray : o.IsArray id
  payload : o.payload = .array length
  distinct : o.names.Nodup
  element : ∀ i x, i < ArrayIndex.limit → o.find? (ArrayIndex.name i) = some x →
    i < length ∧ x.permanent = false

/-- An object without its elements and without the counter of an array. -/
def Object.bare (o : Object) : Object :=
  { o with
    members := o.members.filter fun x => (ArrayIndex.ofName? x.name).isNone
    payload := .plain }

/-- Puts an element into an array that has none at its index. -/
def Object.insertElement (index : Nat) (v : Value) (o : Object) : Object :=
  (o.addElement (ArrayIndex.name index) index).store (ArrayIndex.name index) v

namespace Object

variable {o : Object} {a : ObjectId} {length i : Nat} {name : String} {x : Variable} {v : Value}
  {f : Variable → Variable}

theorem payload_store : (o.store name v).payload = o.payload := by
  unfold store
  split
  · rfl
  · exact payload_updateOrPush

theorem payload_addElement (hp : o.payload = .array length) :
    (o.addElement name i).payload = .array (max length (i + 1)) := by
  have hpush : (o.push (.plain name .undefined)).payload = .array length := hp
  unfold addElement
  dsimp only
  rw [hpush]
  dsimp only
  split
  · rw [Nat.max_eq_right (by omega)]
  · rw [Nat.max_eq_left (by omega)]

theorem find?_insertElement (hnew : o.find? (ArrayIndex.name i) = none) (name : String) :
    (o.insertElement i v).find? name
      = if name = ArrayIndex.name i then some (.plain (ArrayIndex.name i) v) else o.find? name := by
  have hadd : ∀ name, (o.addElement (ArrayIndex.name i) i).find? name = (o.find? name).or
      (if ArrayIndex.name i = name then some (.plain (ArrayIndex.name i) .undefined) else none) := by
    intro name
    unfold find?
    rw [members_addElement]
    exact find?_push (.plain (ArrayIndex.name i) .undefined) o name
  split
  · rename_i heq
    subst heq
    refine find?_store (x := .plain (ArrayIndex.name i) .undefined) ?_ nofun
    rw [hadd, hnew, Option.none_or, if_pos rfl]
  · rename_i hne
    rw [insertElement, find?_store_of_ne (Ne.symm hne), hadd, if_neg (Ne.symm hne), Option.or_none]

theorem find?_discard (hdistinct : o.names.Nodup)
    (hopen : ∀ x, o.find? name = some x → x.permanent = false) (other : String) :
    (o.discard name).find? other = if other = name then none else o.find? other := by
  unfold discard
  split
  · rename_i x hx
    rw [if_neg (by rw [hopen x hx]; exact Bool.false_ne_true)]
    exact find?_remove hdistinct name other
  · rename_i hnone
    split
    · rename_i heq
      rw [heq, hnone]
    · rfl

namespace Sequence

theorem open_element (h : o.Sequence a length) (hi : i < ArrayIndex.limit) :
    ∀ x, o.find? (ArrayIndex.name i) = some x → x.permanent = false :=
  fun x hx => (h.element i x hi hx).2

theorem store (h : o.Sequence a length) (hx : o.find? name = some x)
    (hlink : ∀ hook owner, x.link ≠ .hook hook owner) : (o.store name v).Sequence a length where
  isArray := (becomes_store name v).isArray h.isArray
  payload := payload_store.trans h.payload
  distinct := by
    rw [names_store, if_pos (mem_names_of_find? hx)]
    exact h.distinct
  element i y hi hy := by
    by_cases hname : name = ArrayIndex.name i
    · rw [← hname, find?_store hx hlink] at hy
      cases hy
      exact h.element i x hi (hname ▸ hx)
    · rw [find?_store_of_ne hname] at hy
      exact h.element i y hi hy

theorem insert (h : o.Sequence a length) (hnew : o.find? (ArrayIndex.name i) = none) :
    (o.insertElement i v).Sequence a (max length (i + 1)) where
  isArray := ((becomes_addElement _ i).trans (becomes_store _ v)).isArray h.isArray
  payload := payload_store.trans (payload_addElement h.payload)
  distinct := by
    have hadd : (o.addElement (ArrayIndex.name i) i).names = o.names ++ [ArrayIndex.name i] := by
      rw [names, members_addElement]
      exact names_push _ o
    rw [insertElement, names_store, hadd, if_pos (List.mem_append_right _ (.head _)), List.nodup_append]
    refine ⟨h.distinct, List.nodup_singleton _, ?_⟩
    rintro s hs _ (_ | ⟨_, ⟨⟩⟩) rfl
    exact find?_eq_none.1 hnew hs
  element j y hj hy := by
    rw [find?_insertElement hnew] at hy
    split at hy
    · rename_i heq
      cases ArrayIndex.name_injective heq
      cases hy
      exact ⟨by omega, rfl⟩
    · obtain ⟨hlt, hopen⟩ := h.element j y hj hy
      exact ⟨by omega, hopen⟩

theorem discard (h : o.Sequence a length) (hi : i < ArrayIndex.limit) :
    (o.discard (ArrayIndex.name i)).Sequence a length where
  isArray := (becomes_discard _).isArray h.isArray
  payload := payload_discard.trans h.payload
  distinct := by
    unfold Object.discard
    split
    · split
      · exact h.distinct
      · rw [names_remove]
        exact h.distinct.erase _
    · exact h.distinct
  element j y hj hy := by
    rw [find?_discard h.distinct (h.open_element hi)] at hy
    split at hy
    · cases hy
    · exact h.element j y hj hy

theorem setLength (h : o.Sequence a length) (new : Nat) : (o.setLength length new).Sequence a new where
  isArray := h.isArray.setLength length new
  payload := rfl
  distinct := by
    obtain ⟨keep, -, hnames⟩ := names_setLength length new o
    rw [hnames]
    exact h.distinct.filter _
  element i y hi hy := by
    rw [find?_setLength] at hy
    split at hy
    · cases hy
    · rename_i hkept
      obtain ⟨hlt, hopen⟩ := h.element i y hi hy
      refine ⟨Nat.not_le.1 fun hle => hkept ⟨by omega, i, ArrayIndex.ofName?_name hi, hle⟩, hopen⟩

end Sequence

/-! ### What stays of an object -/

theorem bare_congr {o' : Object} (hrest : { o' with members := #[], payload := .plain }
      = ({ o with members := #[], payload := .plain } : Object))
    (hmembers : o'.members.toList.filter (fun x => (ArrayIndex.ofName? x.name).isNone)
      = o.members.toList.filter fun x => (ArrayIndex.ofName? x.name).isNone) : o'.bare = o.bare := by
  cases o
  cases o'
  simp only [mk.injEq] at hrest
  obtain ⟨-, -, hcallable, hmaker, hproto, hhook, hcalls⟩ := hrest
  unfold bare
  simp only [mk.injEq, hcallable, hmaker, hproto, hhook, hcalls, and_true]
  exact Array.toList_inj.1 (by rw [Array.toList_filter, Array.toList_filter]; exact hmembers)

theorem filter_modify {l : List Variable} {p : Variable → Bool}
    (hp : ∀ x, l[i]? = some x → p x = false ∧ p (f x) = false) : (l.modify i f).filter p = l.filter p := by
  induction l generalizing i with
  | nil => rw [List.modify_nil]
  | cons x rest ih =>
    cases i with
    | zero =>
      obtain ⟨hx, hfx⟩ := hp x rfl
      rw [List.modify_zero_cons, List.filter_cons_of_neg (by rw [hfx]; exact Bool.false_ne_true),
        List.filter_cons_of_neg (by rw [hx]; exact Bool.false_ne_true)]
    | succ i => rw [List.modify_succ_cons, List.filter_cons, List.filter_cons, ih hp]

theorem filter_eraseIdx {l : List Variable} {p : Variable → Bool}
    (hp : ∀ x, l[i]? = some x → p x = false) : (l.eraseIdx i).filter p = l.filter p := by
  induction l generalizing i with
  | nil => rfl
  | cons x rest ih =>
    cases i with
    | zero =>
      rw [List.eraseIdx_cons_zero, List.filter_cons_of_neg (by rw [hp x rfl]; exact Bool.false_ne_true)]
    | succ i => rw [List.eraseIdx_cons_succ, List.filter_cons, List.filter_cons, ih hp]

theorem isNone_name (hi : i < ArrayIndex.limit) :
    (ArrayIndex.ofName? (ArrayIndex.name i)).isNone = false := by
  rw [ArrayIndex.ofName?_name hi]
  rfl

/-- A variable that is found under the name of an index is an element. -/
theorem isNone_of_findIdx? (hi : i < ArrayIndex.limit) {k : Nat}
    (hk : o.members.findIdx? (·.name == ArrayIndex.name i) = some k) (x : Variable)
    (hx : o.members.toList[k]? = some x) : (ArrayIndex.ofName? x.name).isNone = false := by
  rw [← findIdx?_toList] at hk
  obtain ⟨hlt, hname, -⟩ := List.findIdx?_eq_some_iff_getElem.1 hk
  rw [List.getElem?_eq_getElem hlt] at hx
  cases hx
  rw [beq_iff_eq.1 hname, isNone_name hi]

theorem bare_store (hi : i < ArrayIndex.limit) : (o.store (ArrayIndex.name i) v).bare = o.bare := by
  unfold store
  split
  · rfl
  · unfold updateOrPush
    split
    · rename_i k hk
      refine bare_congr rfl ?_
      rw [Array.toList_modify]
      exact filter_modify fun x hx =>
        ⟨isNone_of_findIdx? hi hk x hx, isNone_of_findIdx? hi hk x hx⟩
    · refine bare_congr rfl ?_
      rw [push, Array.toList_push, List.filter_append, List.filter_cons_of_neg, List.filter_nil,
        List.append_nil]
      rw [show (Variable.plain (ArrayIndex.name i) .undefined).name = ArrayIndex.name i from rfl,
        isNone_name hi]
      exact Bool.false_ne_true

theorem bare_insertElement (hi : i < ArrayIndex.limit) : (o.insertElement i v).bare = o.bare := by
  refine (bare_store hi).trans ?_
  have hfields : { o.addElement (ArrayIndex.name i) i with members := #[], payload := .plain }
      = ({ o with members := #[], payload := .plain } : Object) := by
    unfold addElement
    dsimp only
    split <;> rfl
  refine bare_congr hfields ?_
  rw [members_addElement, Array.toList_push, List.filter_append, List.filter_cons_of_neg, List.filter_nil,
    List.append_nil]
  rw [show (Variable.plain (ArrayIndex.name i) .undefined).name = ArrayIndex.name i from rfl,
    isNone_name hi]
  exact Bool.false_ne_true

theorem bare_discard (hi : i < ArrayIndex.limit) : (o.discard (ArrayIndex.name i)).bare = o.bare := by
  unfold discard
  split
  · split
    · rfl
    · unfold remove
      split
      · rename_i k hk
        refine bare_congr rfl ?_
        rw [Array.toList_eraseIdxIfInBounds]
        exact filter_eraseIdx (isNone_of_findIdx? hi hk)
      · rfl
  · rfl

theorem bare_setLength (current length : Nat) : (o.setLength current length).bare = o.bare := by
  unfold setLength
  dsimp only
  split
  · refine bare_congr rfl ?_
    rw [Array.toList_filter, List.filter_filter]
    refine List.filter_congr fun x _ => ?_
    cases ArrayIndex.ofName? x.name <;> rfl
  · exact bare_congr rfl rfl

end Object

/-! ## Arrays on a heap -/

namespace Heap

/-- The place that the element at an index stands in. -/
def cell (h : Heap) (a : ObjectId) (i : Nat) : Location := h.resolve ⟨a, ArrayIndex.name i⟩

/-- Whether an object is an array of a length with these elements, each in a plain variable that no other
one stands in. -/
structure Spans (h : Heap) (a : ObjectId) (length : Nat) (elements : Nat → Option Value) : Prop where
  object : ∃ o, h.get? a = some o ∧ o.Sequence a length
  owned : ∀ i, (elements i).isSome = true ↔
    i < ArrayIndex.limit ∧ (h.at? ⟨a, ArrayIndex.name i⟩).isSome = true
  stored : ∀ i v, elements i = some v →
    ∃ x, h.at? (h.cell a i) = some x ∧ x.link = .plain ∧ x.value.unbound = v
  apart : ∀ i j, (elements i).isSome = true → (elements j).isSome = true → h.cell a i = h.cell a j → i = j

/-- Whether no element of an object is a synonym or has a hook. -/
def Direct (h : Heap) (a : ObjectId) : Prop :=
  ∀ i x, i < ArrayIndex.limit → h.at? ⟨a, ArrayIndex.name i⟩ = some x → x.link = .plain

/-- Whether a heap has changed in the elements of one object only, and in its length. -/
def Within (a : ObjectId) (h n : Heap) : Prop := ∃ f, n = h.modify a f ∧ ∀ o : Object, (f o).bare = o.bare

/-- Whether a change keeps to the elements and the length of an object, if these are no synonyms. -/
def Edits (a : ObjectId) (h n : Heap) : Prop := h.Direct a → n.Direct a ∧ h.Within a n

variable {h n k : Heap} {a b : ObjectId} {o : Object} {length i j : Nat} {elements : Nat → Option Value}
  {v w : Value} {x : Variable} {p q : Location}

theorem modify_modify (f g : Object → Object) : (h.modify a f).modify a g = h.modify a fun o => g (f o) := by
  unfold modify modifySlot
  dsimp only
  congr 1
  refine Array.ext_getElem? fun i => ?_
  rw [Array.getElem?_modify, Array.getElem?_modify, Array.getElem?_modify]
  split
  · rw [Option.map_map]
    refine Option.map_congr fun s _ => ?_
    cases s <;> rfl
  · rfl

theorem modify_id (h : Heap) (a : ObjectId) : h.modify a id = h := by
  have hslot : (Option.map fun s : Slot => { s with object := id s.object }) = id := by
    funext s
    cases s <;> rfl
  have hslots : h.slots.modify a.index id = h.slots := by
    refine Array.ext_getElem? fun i => ?_
    rw [Array.getElem?_modify, Option.map_id]
    exact ite_self _
  unfold modify modifySlot
  rw [hslot, hslots]

theorem Within.refl (a : ObjectId) (h : Heap) : h.Within a h := ⟨id, (modify_id h a).symm, fun _ => rfl⟩

theorem Within.modify {f : Object → Object} (hf : ∀ o : Object, (f o).bare = o.bare) :
    h.Within a (h.modify a f) := ⟨f, rfl, hf⟩

theorem Within.trans (hn : h.Within a n) (hk : n.Within a k) : h.Within a k := by
  obtain ⟨f, rfl, hf⟩ := hn
  obtain ⟨g, rfl, hg⟩ := hk
  exact ⟨fun o => g (f o), modify_modify f g, fun o => (hg (f o)).trans (hf o)⟩

theorem Edits.refl (a : ObjectId) (h : Heap) : h.Edits a h := fun hd => ⟨hd, .refl a h⟩

theorem Edits.trans (hn : h.Edits a n) (hk : n.Edits a k) : h.Edits a k := fun hd =>
  have hdn := hn hd
  have hdk := hk hdn.1
  ⟨hdk.1, hdn.2.trans hdk.2⟩

/-! ### Synonyms -/

theorem resolve_eq_of_links (hsame : ∀ q, (n.at? q).map Variable.link = (h.at? q).map Variable.link)
    (p : Location) : n.resolve p = h.resolve p := by
  have hsteps : ∀ k p, n.resolveUpTo k p = h.resolveUpTo k p := by
    intro k
    induction k with
    | zero => exact fun _ => rfl
    | succ k ih =>
      intro p
      have hlink : (n.own? p.object p.name).map Variable.link = (h.own? p.object p.name).map Variable.link :=
        hsame p
      rw [resolveUpTo, resolveUpTo, hlink]
      split
      · exact ih _
      · rfl
  exact hsteps synonymLimit p

theorem Direct.cell (hd : h.Direct a) (hi : i < ArrayIndex.limit) : h.cell a i = ⟨a, ArrayIndex.name i⟩ := by
  cases hx : h.at? ⟨a, ArrayIndex.name i⟩ with
  | none => exact resolve_of_none hx
  | some x => exact resolve_of_plain hx (hd i x hi hx)

namespace Spans

theorem owned_of_some (hs : h.Spans a length elements) (hi : elements i = some v) :
    i < ArrayIndex.limit ∧ (h.at? ⟨a, ArrayIndex.name i⟩).isSome = true :=
  (hs.owned i).1 (by rw [hi]; rfl)

theorem at?_of_none (hs : h.Spans a length elements) (hi : elements i = none) (hlt : i < ArrayIndex.limit) :
    h.at? ⟨a, ArrayIndex.name i⟩ = none := by
  rw [← Option.not_isSome_iff_eq_none]
  intro hsome
  have := (hs.owned i).2 ⟨hlt, hsome⟩
  rw [hi] at this
  cases this

theorem lt_length (hs : h.Spans a length elements) (hi : elements i = some v) : i < length := by
  obtain ⟨o, ho, hsequence⟩ := hs.object
  obtain ⟨hlt, hsome⟩ := hs.owned_of_some hi
  obtain ⟨x, hx⟩ := Option.isSome_iff_exists.1 hsome
  unfold at? own? at hx
  rw [ho] at hx
  exact (hsequence.element i x hlt hx).1

/-- Another element leads nowhere near the cell of an element. -/
theorem resolve_ne (hs : h.Spans a length elements) (hj : elements j = some v) (hi : i < ArrayIndex.limit)
    (hne : i ≠ j) : h.resolve ⟨a, ArrayIndex.name i⟩ ≠ h.cell a j := by
  intro heq
  cases hv : elements i with
  | some w => exact hne (hs.apart i j (by rw [hv]; rfl) (by rw [hj]; rfl) heq)
  | none =>
    have hnone := hs.at?_of_none hv hi
    obtain ⟨x, hx, -⟩ := hs.stored j v hj
    rw [resolve_of_none hnone] at heq
    rw [← heq, hnone] at hx
    cases hx

/-- An element stays where it is if only the places of other elements change. -/
theorem kept (hs : h.Spans a length elements) (hj : elements j = some v)
    (hsame : ∀ q, n.at? q ≠ h.at? q → ∃ i, i ≠ j ∧ i < ArrayIndex.limit ∧ q = ⟨a, ArrayIndex.name i⟩) :
    n.cell a j = h.cell a j ∧ n.at? (h.cell a j) = h.at? (h.cell a j) := by
  obtain ⟨x, hx, hlink, -⟩ := hs.stored j v hj
  refine ⟨resolve_congr hx hlink rfl fun r hr => ?_, ?_⟩
  · by_contra hdiffers
    obtain ⟨i, hne, hi, rfl⟩ := hsame r fun heq => hdiffers (congrArg (Option.map Variable.link) heq)
    exact hs.resolve_ne hj hi hne hr
  · by_contra hdiffers
    obtain ⟨i, hne, hi, heq⟩ := hsame _ hdiffers
    exact hs.resolve_ne hj hi hne (by rw [← heq]; exact resolve_of_plain hx hlink)

end Spans

/-! ### One element at a time -/

theorem at?_store (hx : h.at? p = some x) (hlink : x.link = .plain) (q : Location) :
    (h.modify p.object (·.store p.name v)).at? q
      = if q = p then some { x with value := v, hidden := false } else h.at? q := by
  obtain ⟨o, ho, hfind⟩ := Option.bind_eq_some_iff.1 hx
  rw [at?_modify ho]
  by_cases hq : q = p
  · subst hq
    rw [if_pos rfl, if_pos rfl]
    exact Object.find?_store hfind fun hook owner h => by rw [hlink] at h; cases h
  · rw [if_neg hq]
    split
    · rename_i hobject
      have hname : p.name ≠ q.name := fun hname => hq (by cases p; cases q; cases hobject; cases hname; rfl)
      rw [Object.find?_store_of_ne hname]
      unfold at? own?
      rw [hobject, ho]
      rfl
    · rfl

/-- A value that is written to an element stands in its cell. -/
theorem Spans.store (hs : h.Spans a length elements) (hi : elements i = some w) (v : Value) :
    (h.modify (h.cell a i).object (·.store (h.cell a i).name v.unbound)).Spans a length
      (Function.update elements i (some v.unbound)) := by
  obtain ⟨x, hx, hlink, -⟩ := hs.stored i w hi
  have hat := at?_store (v := v.unbound) hx hlink
  generalize hn : h.modify (h.cell a i).object (·.store (h.cell a i).name v.unbound) = n at hat ⊢
  -- A store changes no link, so every index still leads to the cell that it led to.
  have hcell : ∀ j, n.cell a j = h.cell a j := by
    refine fun j => resolve_eq_of_links (fun q => ?_) _
    rw [hat]
    split
    · rename_i heq
      rw [heq, hx]
      rfl
    · rfl
  have hsome : ∀ j, (Function.update elements i (some v.unbound) j).isSome = (elements j).isSome := by
    intro j
    by_cases hj : j = i
    · rw [hj, Function.update_self, hi]
      rfl
    · rw [Function.update_of_ne hj]
  refine ⟨?_, fun j => ?_, fun j u hj => ?_, fun j k hj hk heq => ?_⟩
  -- The cell is one of the array itself, or one of another object as for a parameter of a function.
  · obtain ⟨o, ho, hsequence⟩ := hs.object
    by_cases ha : (h.cell a i).object = a
    · rw [← hn, ha]
      refine ⟨_, get?_modify_self ho, hsequence.store (x := x) ?_ fun hook owner h => by
        rw [hlink] at h; cases h⟩
      unfold at? own? at hx
      rw [ha, ho] at hx
      exact hx
    · refine ⟨o, ?_, hsequence⟩
      rw [← hn, modify, get?_modifySlot, if_neg ha, ho]
  · rw [hsome, hs.owned, hat]
    split
    · rename_i heq
      rw [← heq] at hx
      rw [hx]
      exact Iff.rfl
    · exact Iff.rfl
  · rw [hcell, hat]
    by_cases hji : j = i
    · subst hji
      rw [Function.update_self] at hj
      cases hj
      refine ⟨_, if_pos rfl, hlink, ?_⟩
      cases v <;> rfl
    · rw [Function.update_of_ne hji] at hj
      rw [if_neg fun heq => hji (hs.apart j i (by rw [hj]; rfl) (by rw [hi]; rfl) heq)]
      exact hs.stored j u hj
  · rw [hsome] at hj hk
    rw [hcell, hcell] at heq
    exact hs.apart j k hj hk heq

/-- Elements that were left where they are, and others that were added to the array itself. -/
theorem Spans.of_kept (hs : h.Spans a length elements) {new : Nat} {others : Nat → Option Value}
    (hobject : ∃ o, n.get? a = some o ∧ o.Sequence a new)
    (howned : ∀ j, (others j).isSome = true ↔
      j < ArrayIndex.limit ∧ (n.at? ⟨a, ArrayIndex.name j⟩).isSome = true)
    (helements : ∀ j v, others j = some v →
      (elements j = some v ∧ ∀ q, n.at? q ≠ h.at? q →
        ∃ i, i ≠ j ∧ i < ArrayIndex.limit ∧ q = ⟨a, ArrayIndex.name i⟩) ∨
      (elements j = none ∧ n.at? ⟨a, ArrayIndex.name j⟩ = some (.plain (ArrayIndex.name j) v) ∧
        v.unbound = v)) : n.Spans a new others := by
  -- No cell of an element that was kept is one of an element that was added, whose name the array did not have.
  have hcell : ∀ j v, others j = some v →
      (elements j = some v ∧ n.cell a j = h.cell a j ∧ n.at? (h.cell a j) = h.at? (h.cell a j)) ∨
      (h.at? ⟨a, ArrayIndex.name j⟩ = none ∧ n.cell a j = ⟨a, ArrayIndex.name j⟩) := by
    intro j v hj
    rcases helements j v hj with ⟨hkept, hsame⟩ | ⟨hnew, hx, -⟩
    · exact .inl ⟨hkept, hs.kept hkept hsame⟩
    · exact .inr ⟨hs.at?_of_none hnew ((howned j).1 (by rw [hj]; rfl)).1, resolve_of_plain hx rfl⟩
  refine ⟨hobject, howned, fun j v hj => ?_, fun i j hi hj heq => ?_⟩
  · rcases helements j v hj with ⟨hkept, hsame⟩ | ⟨-, hx, hunbound⟩
    · obtain ⟨hplace, hat⟩ := hs.kept hkept hsame
      rw [hplace, hat]
      exact hs.stored j v hkept
    · rw [cell, resolve_of_plain hx rfl]
      exact ⟨_, hx, rfl, hunbound⟩
  · obtain ⟨v, hv⟩ := Option.isSome_iff_exists.1 hi
    obtain ⟨w, hw⟩ := Option.isSome_iff_exists.1 hj
    rcases hcell i v hv with ⟨hi, hplace, -⟩ | ⟨hi, hplace⟩ <;>
      rcases hcell j w hw with ⟨hj, hplace', -⟩ | ⟨hj, hplace'⟩ <;> rw [hplace, hplace'] at heq
    · exact hs.apart i j (by rw [hi]; rfl) (by rw [hj]; rfl) heq
    · obtain ⟨x, hx, -⟩ := hs.stored i v hi
      rw [heq, hj] at hx
      cases hx
    · obtain ⟨x, hx, -⟩ := hs.stored j w hj
      rw [← heq, hi] at hx
      cases hx
    · exact ArrayIndex.name_injective (congrArg Location.name heq)

/-- The place of an index of an object. -/
theorem place_eq_iff : (⟨a, ArrayIndex.name i⟩ : Location) = ⟨a, ArrayIndex.name j⟩ ↔ i = j :=
  ⟨fun h => ArrayIndex.name_injective (congrArg Location.name h), fun h => h ▸ rfl⟩

theorem at?_insertElement (ho : h.get? a = some o) (hnew : o.find? (ArrayIndex.name i) = none)
    (q : Location) : (h.modify a (·.insertElement i v)).at? q
      = if q = ⟨a, ArrayIndex.name i⟩ then some (.plain (ArrayIndex.name i) v) else h.at? q := by
  rw [at?_modify ho]
  by_cases hobject : q.object = a
  · rw [if_pos hobject, Object.find?_insertElement hnew]
    by_cases hname : q.name = ArrayIndex.name i
    · rw [if_pos hname, if_pos (by cases q; cases hobject; cases hname; rfl)]
    · rw [if_neg hname, if_neg fun heq => hname (congrArg Location.name heq)]
      unfold at? own?
      rw [hobject, ho]
      rfl
  · rw [if_neg hobject, if_neg fun heq => hobject (congrArg Location.object heq)]

/-- A value that is added at an index stands in the array itself. -/
theorem Spans.insert (hs : h.Spans a length elements) (hi : elements i = none) (hlt : i < ArrayIndex.limit)
    (v : Value) : (h.modify a (·.insertElement i v.unbound)).Spans a (max length (i + 1))
      (Function.update elements i (some v.unbound)) := by
  obtain ⟨o, ho, hsequence⟩ := hs.object
  have hnew : o.find? (ArrayIndex.name i) = none := by
    have hnone := hs.at?_of_none hi hlt
    unfold at? own? at hnone
    rwa [ho] at hnone
  have hat := at?_insertElement (v := v.unbound) ho hnew
  refine hs.of_kept ⟨_, get?_modify_self ho, hsequence.insert hnew⟩ (fun j => ?_) fun j u hj => ?_
  · rw [hat]
    by_cases hji : j = i
    · subst hji
      rw [Function.update_self, if_pos rfl]
      exact iff_of_true rfl ⟨hlt, rfl⟩
    · rw [Function.update_of_ne hji, if_neg fun heq => hji (place_eq_iff.1 heq)]
      exact hs.owned j
  · by_cases hji : j = i
    · subst hji
      rw [Function.update_self] at hj
      cases hj
      refine .inr ⟨hi, by rw [hat, if_pos rfl], ?_⟩
      cases v <;> rfl
    · rw [Function.update_of_ne hji] at hj
      refine .inl ⟨hj, fun q hq => ⟨i, Ne.symm hji, hlt, ?_⟩⟩
      by_contra hne
      exact hq (by rw [hat, if_neg hne])

theorem at?_discard (ho : h.get? a = some o) (hs : o.Sequence a length) (hi : i < ArrayIndex.limit)
    (q : Location) : (h.modify a (·.discard (ArrayIndex.name i))).at? q
      = if q = ⟨a, ArrayIndex.name i⟩ then none else h.at? q := by
  rw [at?_modify ho]
  by_cases hobject : q.object = a
  · rw [if_pos hobject, Object.find?_discard hs.distinct (hs.open_element hi)]
    by_cases hname : q.name = ArrayIndex.name i
    · rw [if_pos hname, if_pos (by cases q; cases hobject; cases hname; rfl)]
    · rw [if_neg hname, if_neg fun heq => hname (congrArg Location.name heq)]
      unfold at? own?
      rw [hobject, ho]
      rfl
  · rw [if_neg hobject, if_neg fun heq => hobject (congrArg Location.object heq)]

/-- An element that is deleted leaves a hole. -/
theorem Spans.discard (hs : h.Spans a length elements) (hlt : i < ArrayIndex.limit) :
    (h.modify a (·.discard (ArrayIndex.name i))).Spans a length (Function.update elements i none) := by
  obtain ⟨o, ho, hsequence⟩ := hs.object
  have hat := at?_discard ho hsequence hlt
  refine hs.of_kept ⟨_, get?_modify_self ho, hsequence.discard hlt⟩ (fun j => ?_) fun j u hj => ?_
  · rw [hat]
    by_cases hji : j = i
    · subst hji
      rw [Function.update_self, if_pos rfl]
      exact iff_of_false Bool.false_ne_true fun h => Bool.false_ne_true h.2
    · rw [Function.update_of_ne hji, if_neg fun heq => hji (place_eq_iff.1 heq)]
      exact hs.owned j
  · have hji : j ≠ i := by
      rintro rfl
      rw [Function.update_self] at hj
      cases hj
    rw [Function.update_of_ne hji] at hj
    refine .inl ⟨hj, fun q hq => ⟨i, Ne.symm hji, hlt, ?_⟩⟩
    by_contra hne
    exact hq (by rw [hat, if_neg hne])

theorem at?_setLength (ho : h.get? a = some o) (current new : Nat) (q : Location) :
    (h.modify a (·.setLength current new)).at? q
      = if q.object = a ∧ new < current ∧ ∃ i, ArrayIndex.ofName? q.name = some i ∧ new ≤ i then none
        else h.at? q := by
  rw [at?_modify ho]
  by_cases hobject : q.object = a
  · rw [if_pos hobject, Object.find?_setLength]
    by_cases hdropped : new < current ∧ ∃ i, ArrayIndex.ofName? q.name = some i ∧ new ≤ i
    · rw [if_pos hdropped, if_pos ⟨hobject, hdropped⟩]
    · rw [if_neg hdropped, if_neg fun h => hdropped h.2]
      unfold at? own?
      rw [hobject, ho]
      rfl
  · rw [if_neg hobject, if_neg fun h => hobject h.1]

/-- A new length drops the elements beyond it, and leaves holes up to it. -/
theorem Spans.setLength (hs : h.Spans a length elements) (new : Nat) :
    (h.modify a (·.setLength length new)).Spans a new fun i => if i < new then elements i else none := by
  obtain ⟨o, ho, hsequence⟩ := hs.object
  have hat := at?_setLength ho length new
  refine hs.of_kept ⟨_, get?_modify_self ho, hsequence.setLength new⟩ (fun j => ?_) fun j u hj => ?_
  · rw [hat]
    by_cases hj : j < new
    · rw [if_pos hj, if_neg]
      · exact hs.owned j
      · rintro ⟨-, -, i, hi, hle⟩
        obtain ⟨-, hname⟩ := ArrayIndex.ofName?_eq_some_iff.1 hi
        have := ArrayIndex.name_injective hname
        omega
    · rw [if_neg hj]
      refine iff_of_false Bool.false_ne_true ?_
      rintro ⟨hlt, hsome⟩
      split at hsome
      · cases hsome
      · rename_i hkept
        obtain ⟨v, hv⟩ := Option.isSome_iff_exists.1 ((hs.owned j).2 ⟨hlt, hsome⟩)
        have hlength := hs.lt_length hv
        exact hkept ⟨rfl, by omega, j, ArrayIndex.ofName?_name hlt, by omega⟩
  · split at hj
    · rename_i hlt
      refine .inl ⟨hj, fun q hq => ?_⟩
      rw [hat] at hq
      split at hq
      · rename_i hdropped
        obtain ⟨hobject, -, i, hi, hle⟩ := hdropped
        obtain ⟨hlimit, hname⟩ := ArrayIndex.ofName?_eq_some_iff.1 hi
        exact ⟨i, by omega, hlimit, by cases q; cases hobject; cases hname; rfl⟩
      · exact absurd rfl hq
    · cases hj

/-! ### Changes that keep to the array -/

theorem edits_store (hi : i < ArrayIndex.limit) (hx : h.at? (h.cell a i) = some x) (hlink : x.link = .plain)
    (v : Value) : h.Edits a (h.modify (h.cell a i).object (·.store (h.cell a i).name v)) := by
  intro hd
  have hat := at?_store (v := v) hx hlink
  rw [hd.cell hi] at hat ⊢
  refine ⟨fun j y hj hy => ?_, .modify fun o => Object.bare_store hi⟩
  rw [hat] at hy
  split at hy
  · cases hy
    exact hlink
  · exact hd j y hj hy

theorem edits_insertElement (hi : i < ArrayIndex.limit) (ho : h.get? a = some o)
    (hnew : o.find? (ArrayIndex.name i) = none) (v : Value) : h.Edits a (h.modify a (·.insertElement i v)) := by
  intro hd
  refine ⟨fun j y hj hy => ?_, .modify fun o => Object.bare_insertElement hi⟩
  rw [at?_insertElement ho hnew] at hy
  split at hy
  · cases hy
    rfl
  · exact hd j y hj hy

theorem edits_discard (hi : i < ArrayIndex.limit) (ho : h.get? a = some o) (hs : o.Sequence a length) :
    h.Edits a (h.modify a (·.discard (ArrayIndex.name i))) := by
  intro hd
  refine ⟨fun j y hj hy => ?_, .modify fun o => Object.bare_discard hi⟩
  rw [at?_discard ho hs hi] at hy
  split at hy
  · cases hy
  · exact hd j y hj hy

theorem edits_setLength (ho : h.get? a = some o) (current new : Nat) :
    h.Edits a (h.modify a (·.setLength current new)) := by
  intro hd
  refine ⟨fun j y hj hy => ?_, .modify fun o => Object.bare_setLength current new⟩
  rw [at?_setLength ho] at hy
  split at hy
  · cases hy
  · exact hd j y hj hy

end Heap

end PageScript
