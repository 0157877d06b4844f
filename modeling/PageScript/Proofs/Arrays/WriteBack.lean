import PageScript.Proofs.Arrays.Lists

/-! # Writing elements back

The methods of arrays that change one store the new elements, delete the old ones that are missing among
them, and set the length.  Below the limit of lengths this always succeeds, and leaves exactly the new
elements, however the old and the new ones overlap.  A new array for elements has just these.
-/

set_option autoImplicit false

namespace PageScript

/-! ## Elements by their indices -/

namespace Elements

variable {base i : Nat} {item : Option Value} {items : List (Option Value)} {elements : Nat → Option Value}

/-- Forgets the receivers of the values of a list. -/
def unbound (items : List (Option Value)) : List (Option Value) := items.map (Option.map Value.unbound)

/-- The value at an index of a list that begins at a base. -/
def itemFrom (base : Nat) (items : List (Option Value)) (i : Nat) : Option Value :=
  if base ≤ i then items[i - base]?.join else none

/-- Values by their indices, with others written over them in turn. -/
def overwrite (elements : Nat → Option Value) (xs : List (Nat × Value)) : Nat → Option Value :=
  xs.foldl (fun f x => Function.update f x.1 (some x.2.unbound)) elements

/-- Values by their indices, without those at some indices. -/
def withdraw (elements : Nat → Option Value) (indices : List Nat) : Nat → Option Value :=
  indices.foldl (fun f i => Function.update f i none) elements

theorem itemFrom_cons :
    itemFrom base (item :: items) i = if i = base then item else itemFrom (base + 1) items i := by
  unfold itemFrom
  by_cases hi : i = base
  · rw [if_pos hi, if_pos (Nat.le_of_eq hi.symm), hi, Nat.sub_self]
    rfl
  · rw [if_neg hi]
    by_cases hle : base ≤ i
    · rw [if_pos hle, if_pos (by omega), show i - base = i - (base + 1) + 1 by omega, List.getElem?_cons_succ]
    · rw [if_neg hle, if_neg (by omega)]

theorem overwrite_presentFrom (elements : Nat → Option Value) (base : Nat) (items : List (Option Value)) :
    overwrite elements (presentFrom base items) i
      = ((itemFrom base items i).map Value.unbound).or (elements i) := by
  induction items generalizing base elements with
  | nil =>
    have hnone : itemFrom base [] i = none := ite_eq_right_iff.2 fun _ => rfl
    rw [hnone]
    rfl
  | cons item items ih =>
    have hbase : itemFrom (base + 1) items base = none := if_neg (Nat.not_le.2 (Nat.lt_succ_self base))
    rw [itemFrom_cons]
    cases item with
    | none =>
      rw [presentFrom, ih]
      by_cases hi : i = base
      · rw [if_pos hi, hi, hbase]
      · rw [if_neg hi]
    | some v =>
      refine (ih (Function.update elements base (some v.unbound)) (base + 1)).trans ?_
      by_cases hi : i = base
      · rw [if_pos hi, hi, hbase, Function.update_self]
        rfl
      · rw [if_neg hi, Function.update_of_ne hi]

theorem withdraw_eq (elements : Nat → Option Value) (indices : List Nat) (i : Nat) :
    withdraw elements indices i = if i ∈ indices then none else elements i := by
  induction indices generalizing elements with
  | nil => exact (if_neg List.not_mem_nil).symm
  | cons j rest ih =>
    refine (ih (Function.update elements j none)).trans ?_
    by_cases hi : i = j
    · rw [hi, Function.update_self, if_pos List.mem_cons_self, ite_self]
    · rw [Function.update_of_ne hi]
      exact if_congr (by rw [List.mem_cons, or_iff_right hi]) rfl rfl

/-- Where new values are written and the old ones that are missing among them withdrawn, the new ones remain. -/
theorem written_eq {new : List (Option Value)} {gone : List Nat}
    (hgone : ∀ i, i ∈ gone ↔ (items[i]?.join).isSome = true ∧ ¬(new[i]?.join).isSome = true) (i : Nat) :
    (if i < new.length then withdraw (overwrite (fun i => items[i]?.join) (presentFrom 0 new)) gone i else none)
      = (unbound new)[i]?.join := by
  have hitem : (unbound new)[i]?.join = (new[i]?.join).map Value.unbound := by
    rw [unbound, List.getElem?_map]
    cases new[i]? <;> rfl
  have hzero : itemFrom 0 new i = new[i]?.join := if_pos (Nat.zero_le i)
  rw [withdraw_eq, overwrite_presentFrom, hzero, hitem]
  by_cases hi : i < new.length
  · rw [if_pos hi]
    cases hnew : new[i]?.join with
    | some v =>
      rw [if_neg fun h => ((hgone i).1 h).2 (by rw [hnew]; rfl)]
      rfl
    | none =>
      rw [Option.map_none, Option.none_or]
      split
      · rfl
      · rename_i hkept
        rw [← Option.not_isSome_iff_eq_none]
        exact fun hsome => hkept ((hgone i).2 ⟨hsome, by rw [hnew]; exact Bool.false_ne_true⟩)
  · rw [if_neg hi, List.getElem?_eq_none (Nat.not_lt.1 hi)]
    rfl

end Elements

/-- The missing members of a rising list are those that are not in the other one. -/
theorem mem_missingFrom {olds kept : List Nat} {i : Nat} (holds : olds.Pairwise (· < ·))
    (hkept : kept.Pairwise (· < ·)) : i ∈ missingFrom olds kept ↔ i ∈ olds ∧ i ∉ kept := by
  have hbelow : ∀ {j k : Nat} {rest : List Nat}, (k :: rest).Pairwise (· < ·) → j < k → j ∉ k :: rest := by
    intro j k rest hrest hlt hmem
    rcases List.mem_cons.1 hmem with rfl | hmem
    · exact absurd hlt (Nat.lt_irrefl j)
    · have := List.rel_of_pairwise_cons hrest hmem
      omega
  induction olds, kept using missingFrom.induct with
  | case1 kept => rw [missingFrom]; simp
  | case2 olds hne => rw [missingFrom]; simp; exact hne
  | case3 old olds k rest hlt ih =>
    have hrest : i ∈ missingFrom olds (k :: rest) ↔ _ := ih holds.of_cons hkept
    rw [missingFrom, if_pos hlt, List.mem_cons, hrest, List.mem_cons (b := old)]
    constructor
    · rintro (rfl | ⟨hmem, hnot⟩)
      · exact ⟨.inl rfl, hbelow hkept hlt⟩
      · exact ⟨.inr hmem, hnot⟩
    · rintro ⟨rfl | hmem, hnot⟩
      · exact .inl rfl
      · exact .inr ⟨hmem, hnot⟩
  | case4 olds k rest hlt ih =>
    have hrest : i ∈ missingFrom olds rest ↔ _ := ih holds.of_cons hkept.of_cons
    rw [missingFrom, if_neg hlt, if_pos rfl, hrest, List.mem_cons, List.mem_cons]
    have hrises : i ∈ olds → i ≠ k := by
      rintro hmem rfl
      exact absurd (List.rel_of_pairwise_cons holds hmem) (Nat.lt_irrefl i)
    refine ⟨fun h => ⟨.inr h.1, not_or.2 ⟨hrises h.1, h.2⟩⟩, ?_⟩
    rintro ⟨rfl | hmem, hnot⟩
    · exact absurd (.inl rfl) hnot
    · exact ⟨hmem, fun h => hnot (.inr h)⟩
  | case5 old olds k rest hlt hne ih =>
    have hrest : i ∈ missingFrom (old :: olds) rest ↔ _ := ih holds hkept.of_cons
    rw [missingFrom, if_neg hlt, if_neg hne, hrest, List.mem_cons (a := i) (b := k)]
    refine and_congr_right fun hmem => (not_congr (or_iff_right ?_)).symm
    rintro rfl
    exact hbelow holds (by omega) hmem

/-! ## Objects with new elements -/

namespace Object

variable {o : Object} {base i : Nat} {items : List (Option Value)}

theorem pushElements_cons (x : Nat × Value) (xs : List (Nat × Value)) (o : Object) :
    o.pushElements (x :: xs) = (o.push (.plain (ArrayIndex.name x.1) x.2)).pushElements xs := rfl

theorem payload_pushElements (xs : List (Nat × Value)) (o : Object) :
    (o.pushElements xs).payload = o.payload := by
  induction xs generalizing o with
  | nil => rfl
  | cons x xs ih => exact ih _

theorem names_pushElements (xs : List (Nat × Value)) (o : Object) :
    (o.pushElements xs).names = o.names ++ (xs.map Prod.fst).map ArrayIndex.name := by
  induction xs generalizing o with
  | nil => exact (List.append_nil _).symm
  | cons x xs ih =>
    rw [pushElements_cons, ih, names_push, List.append_assoc]
    rfl

theorem find?_pushElements (o : Object) (base : Nat) (items : List (Option Value)) :
    (o.pushElements (Elements.presentFrom base items)).find? (ArrayIndex.name i)
      = (o.find? (ArrayIndex.name i)).or ((Elements.itemFrom base items i).map (.plain (ArrayIndex.name i))) := by
  induction items generalizing base o with
  | nil =>
    have hnone : Elements.itemFrom base [] i = none := ite_eq_right_iff.2 fun _ => rfl
    rw [hnone]
    exact (Option.or_none).symm
  | cons item items ih =>
    have hbase : Elements.itemFrom (base + 1) items base = none :=
      if_neg (Nat.not_le.2 (Nat.lt_succ_self base))
    rw [Elements.itemFrom_cons]
    cases item with
    | none =>
      rw [Elements.presentFrom, ih]
      by_cases hi : i = base
      · rw [if_pos hi, hi, hbase]
      · rw [if_neg hi]
    | some v =>
      have hname : (Variable.plain (ArrayIndex.name base) v).name = ArrayIndex.name i ↔ i = base :=
        ⟨fun h => (ArrayIndex.name_injective h).symm, fun h => h ▸ rfl⟩
      rw [Elements.presentFrom, pushElements_cons, ih, find?_push, Option.or_assoc]
      refine congrArg (Option.or _) ?_
      by_cases hi : i = base
      · rw [if_pos (hname.2 hi), if_pos hi, hi]
        rfl
      · rw [if_neg fun h => hi (hname.1 h), if_neg hi]
        rfl

/-- A new array with the elements of a list. -/
def ofItems (proto : Option ObjectId) (self : ObjectId) (items : List (Option Value)) : Object :=
  ((Object.empty proto).makeArray self items.length).pushElements (Elements.presentFrom 0 items)

variable {proto : Option ObjectId} {self : ObjectId}

theorem find?_ofItems :
    (ofItems proto self items).find? (ArrayIndex.name i) = (items[i]?.join).map (.plain (ArrayIndex.name i)) := by
  have hnone : ((Object.empty proto).makeArray self items.length).find? (ArrayIndex.name i) = none := by
    rw [find?_eq_none, names_newArray, List.mem_singleton]
    exact ArrayIndex.name_ne_length i
  have hitem : Elements.itemFrom 0 items i = items[i]?.join := if_pos (Nat.zero_le i)
  rw [ofItems, find?_pushElements, hnone, Option.none_or, hitem]

theorem sequence_ofItems : (ofItems proto self items).Sequence self items.length where
  isArray := by
    refine Becomes.isArray (.foldl ?_ _ _) (isArray_makeArray self items.length (.empty proto))
    rintro o ⟨i, v⟩
    exact becomes_push nofun
  payload := (payload_pushElements _ _).trans payload_updateOrPush
  distinct := by
    rw [ofItems, names_pushElements, names_newArray, List.singleton_append, List.nodup_cons]
    refine ⟨fun hmem => ?_, ?_⟩
    · obtain ⟨i, -, hi⟩ := List.mem_map.1 hmem
      exact ArrayIndex.name_ne_length i hi
    · exact ((Elements.presentFrom_rising 0 items).imp Nat.ne_of_lt).map _
        fun i j hne h => hne (ArrayIndex.name_injective h)
  element i x _ hx := by
    rw [find?_ofItems] at hx
    obtain ⟨v, hv, rfl⟩ := Option.map_eq_some_iff.1 hx
    exact ⟨(List.getElem?_eq_some_iff.1 (Option.join_eq_some_iff.1 hv)).1, rfl⟩

end Object

/-! ## Writing back -/

namespace Heap

variable {h : Heap} {a : ObjectId} {items : List (Option Value)} {length : Nat}
  {elements : Nat → Option Value}

theorem Lists.of_spans (hs : h.Spans a length elements) (hlength : items.length = length)
    (hitems : ∀ i, elements i = items[i]?.join) : h.Lists a items := by
  unfold Lists
  rw [hlength, ← funext hitems]
  exact hs

/-- An array with its elements in plain variables of its own. -/
theorem Lists.of_ofItems {proto : Option ObjectId} (ho : h.get? a = some (.ofItems proto a items))
    (hlength : items.length ≤ ArrayIndex.limit) : h.Lists a (Elements.unbound items) ∧ h.Direct a := by
  have hat : ∀ i, h.at? ⟨a, ArrayIndex.name i⟩ = (items[i]?.join).map (.plain (ArrayIndex.name i)) := by
    intro i
    unfold at? own?
    rw [ho]
    exact Object.find?_ofItems
  have hdirect : h.Direct a := by
    intro i x _ hx
    rw [hat] at hx
    obtain ⟨v, -, rfl⟩ := Option.map_eq_some_iff.1 hx
    rfl
  have hlt : ∀ i, (items[i]?.join).isSome = true → i < ArrayIndex.limit := by
    intro i hsome
    obtain ⟨v, hv⟩ := Option.isSome_iff_exists.1 hsome
    have := (List.getElem?_eq_some_iff.1 (Option.join_eq_some_iff.1 hv)).1
    omega
  have hspans : h.Spans a items.length fun i => (items[i]?.join).map Value.unbound := by
    refine ⟨⟨_, ho, Object.sequence_ofItems⟩, fun i => ?_, fun i v hi => ?_, fun i j hi hj heq => ?_⟩
    · rw [hat, Option.isSome_map, Option.isSome_map]
      exact (and_iff_right_of_imp (hlt i)).symm
    · obtain ⟨w, hw, rfl⟩ := Option.map_eq_some_iff.1 hi
      rw [hdirect.cell (hlt i (by rw [hw]; rfl)), hat, hw]
      exact ⟨_, rfl, rfl, rfl⟩
    · rw [Option.isSome_map] at hi hj
      rw [hdirect.cell (hlt i hi), hdirect.cell (hlt j hj)] at heq
      exact place_eq_iff.1 heq
  refine ⟨.of_spans hspans (List.length_map _) fun i => ?_, hdirect⟩
  rw [Elements.unbound, List.getElem?_map]
  cases items[i]? <;> rfl

/-- No element remembers a receiver. -/
theorem Lists.unbound (hs : h.Lists a items) : Elements.unbound items = items := by
  refine (List.map_congr_left fun item hitem => ?_).trans (List.map_id items)
  cases item with
  | none => rfl
  | some v =>
    obtain ⟨i, hi, hget⟩ := List.getElem_of_mem hitem
    obtain ⟨x, -, -, hvalue⟩ := hs.stored i v (by
      show items[i]?.join = some v
      rw [List.getElem?_eq_getElem hi, hget]
      rfl)
    rw [← hvalue]
    cases x.value <;> rfl

/-- An element lies below the limit of indices. -/
theorem Lists.lt_limit (hs : h.Lists a items) {i : Nat} (hi : (items[i]?.join).isSome = true) :
    i < ArrayIndex.limit := ((hs.owned i).1 hi).1

end Heap

namespace Script

variable {e : Engine} {m : Machine} {a : ObjectId} {length : Nat} {elements : Nat → Option Value}
  {items new : List (Option Value)}

/-- Writes at several indices put their values there, one after the other. -/
theorem writes_spans (hs : m.heap.Spans a length elements) (xs : List (Nat × Value))
    (hlt : ∀ x ∈ xs, x.1 < ArrayIndex.limit) (e : Engine) :
    ∃ n length', fold (fun _ (i, v) => do let _ ← writeMember a (ArrayIndex.name i) v) xs () e m
        = .value () { m with heap := n } ∧
      n.Spans a length' (Elements.overwrite elements xs) ∧ m.heap.Edits a n := by
  induction xs generalizing m length elements with
  | nil => exact ⟨m.heap, length, rfl, hs, .refl a _⟩
  | cons x xs ih =>
    obtain ⟨n, hwrite, hspans, hedits⟩ := writeMember_element hs (hlt x (.head _)) x.2 e
    obtain ⟨k, length', hrest, hlast, hmore⟩ := ih (m := { m with heap := n }) hspans
      fun y hy => hlt y (.tail _ hy)
    refine ⟨k, length', ?_, hlast, hedits.trans hmore⟩
    rw [fold_cons]
    exact (bind_of_value (bind_of_value hwrite _) _).trans hrest

/-- Deletions at several indices leave holes there. -/
theorem deletions_spans (hs : m.heap.Spans a length elements) (indices : List Nat)
    (hlt : ∀ i ∈ indices, i < ArrayIndex.limit) (e : Engine) :
    ∃ n, fold (fun _ i => do let _ ← deleteMember a (ArrayIndex.name i)) indices () e m
        = .value () { m with heap := n } ∧
      n.Spans a length (Elements.withdraw elements indices) ∧ m.heap.Edits a n := by
  induction indices generalizing m elements with
  | nil => exact ⟨m.heap, rfl, hs, .refl a _⟩
  | cons i rest ih =>
    obtain ⟨gone, n, hdelete, hspans, hedits⟩ := deleteMember_element hs (hlt i (.head _)) e
    obtain ⟨k, hrest, hlast, hmore⟩ := ih (m := { m with heap := n }) hspans
      fun j hj => hlt j (.tail _ hj)
    refine ⟨k, ?_, hlast, hedits.trans hmore⟩
    rw [fold_cons]
    exact (bind_of_value (bind_of_value hdelete _) _).trans hrest

/-- Elements are written and deleted before the length is set. -/
theorem writeElements_stored (hs : m.heap.Lists a items) (new : List (Option Value))
    (hnew : new.length ≤ ArrayIndex.limit) (e : Engine) :
    ∃ n length' gone, (∀ i, i ∈ gone ↔ (items[i]?.join).isSome = true ∧ ¬(new[i]?.join).isSome = true) ∧
      n.Spans a length' (Elements.withdraw
        (Elements.overwrite (fun i => items[i]?.join) (Elements.presentFrom 0 new)) gone) ∧
      m.heap.Edits a n ∧
      writeElements a (.ofItems items) (.ofItems new) e m
        = (do let _ ← writeMember a "length" (.ofNat new.length) : Script Unit) e { m with heap := n } := by
  have hindices : ∀ x ∈ Elements.presentFrom 0 new, x.1 < ArrayIndex.limit := by
    intro x hx
    have := (Elements.le_of_mem_presentFrom hx).2
    omega
  have hmissing : ∀ i, i ∈ missingFrom ((Elements.presentFrom 0 items).map Prod.fst)
        ((Elements.presentFrom 0 new).map Prod.fst) ↔
      (items[i]?.join).isSome = true ∧ ¬(new[i]?.join).isSome = true := by
    intro i
    rw [mem_missingFrom (Elements.presentFrom_rising 0 items) (Elements.presentFrom_rising 0 new),
      Elements.mem_indices_presentFrom, Elements.mem_indices_presentFrom]
  obtain ⟨n, length', hwrites, hwritten, hedits⟩ := writes_spans hs (Elements.presentFrom 0 new) hindices e
  obtain ⟨k, hdeletions, hdeleted, hmore⟩ := deletions_spans (m := { m with heap := n }) hwritten
    (missingFrom ((Elements.presentFrom 0 items).map Prod.fst) ((Elements.presentFrom 0 new).map Prod.fst))
    (fun i hi => hs.lt_limit ((hmissing i).1 hi).1) e
  exact ⟨k, length', _, hmissing, hdeleted, hedits.trans hmore,
    (bind_of_value hwrites _).trans (bind_of_value hdeletions _)⟩

/-- When elements are written back, the array has the new ones. -/
theorem writeElements_lists (hs : m.heap.Lists a items) (new : List (Option Value))
    (hnew : new.length < ArrayIndex.limit) (e : Engine) :
    ∃ n, writeElements a (.ofItems items) (.ofItems new) e m = .value () { m with heap := n } ∧
      n.Lists a (Elements.unbound new) ∧ m.heap.Edits a n := by
  obtain ⟨n, length', gone, hgone, hspans, hedits, hwrite⟩ := writeElements_stored hs new (Nat.le_of_lt hnew) e
  obtain ⟨k, hset, hlast, hmore⟩ := writeMember_setLength (m := { m with heap := n }) hspans _ hnew e
  refine ⟨k, ?_, .of_spans hlast (List.length_map _) (Elements.written_eq hgone), hedits.trans hmore⟩
  rw [hwrite]
  exact bind_of_value hset _

/-- Elements up to the limit itself are not written back with success. -/
theorem lt_of_writeElements (hs : m.heap.Lists a items) (new : List (Option Value))
    (hnew : new.length ≤ ArrayIndex.limit) {n : Machine}
    (h : writeElements a (.ofItems items) (.ofItems new) e m = .value () n) : new.length < ArrayIndex.limit := by
  refine Nat.lt_of_le_of_ne hnew fun hlength => ?_
  obtain ⟨k, length', gone, -, hspans, -, hwrite⟩ := writeElements_stored hs new hnew e
  obtain ⟨o, ho, hsequence⟩ := hspans.object
  have hrefused := writeMember_length_limit (m := { m with heap := k }) ⟨o, ho, hsequence.isArray⟩ e
  rw [hwrite] at h
  obtain ⟨v, j, hset, -⟩ := bind_value h
  rw [hlength, hrefused] at hset
  exact raise_ne_value _ _ v hset

/-! ## New arrays -/

/-- A new array is made in a free slot, and nothing else is changed. -/
theorem arrayOfElements_new (hm : m.heap.Sound) (items : List (Option Value)) (e : Engine) :
    ∃ b n, arrayOfElements (.ofItems items) e m = .value b { m with heap := n } ∧
      m.heap.get? b = none ∧ (∀ c, c ≠ b → n.get? c = m.heap.get? c) ∧
      n.get? b = some (.ofItems (some Intrinsic.array) b items) := by
  let b : ObjectId := (m.heap.alloc (.empty (some Intrinsic.array))).1
  let k : Heap := (m.heap.alloc (.empty (some Intrinsic.array))).2
  let n : Heap := (k.modify b (·.makeArray b items.length)).modify b
    (·.pushElements (Elements.presentFrom 0 items))
  have hslot := fun c => Heap.slot?_alloc (a := c) hm (.empty (some Intrinsic.array))
  have hget : n.get? b = some (.ofItems (some Intrinsic.array) b items) :=
    Heap.get?_modify_self (Heap.get?_modify_self (Heap.get?_new hm _))
  refine ⟨b, n, rfl, ?_, fun c hc => ?_, hget⟩
  · rw [Heap.get?, Heap.slot?_new hm]
    rfl
  · show ((k.modifySlot b _).modifySlot b _).get? c = _
    rw [Heap.get?_modifySlot, if_neg (Ne.symm hc), Heap.get?_modifySlot, if_neg (Ne.symm hc), Heap.get?, hslot,
      if_neg (Ne.symm hc), Heap.get?]

/-- A new array of elements has just these, and nothing else is changed. -/
theorem arrayOfElements_lists (hm : m.heap.Sound) (items : List (Option Value))
    (hlength : items.length ≤ ArrayIndex.limit) (e : Engine) :
    ∃ b n, arrayOfElements (.ofItems items) e m = .value b { m with heap := n } ∧
      m.heap.get? b = none ∧ (∀ c, c ≠ b → n.get? c = m.heap.get? c) ∧
      n.Lists b (Elements.unbound items) ∧ n.Direct b := by
  obtain ⟨b, n, hmake, hfresh, hrest, hget⟩ := arrayOfElements_new hm items e
  exact ⟨b, n, hmake, hfresh, hrest, Heap.Lists.of_ofItems hget hlength⟩

end Script

/-! ## Arrays that hold a list -/

/-- Whether an array that may be read has the elements of a list, as plain variables of its own. -/
structure Machine.Holds (m : Machine) (a : ObjectId) (items : List (Option Value)) : Prop where
  lists : m.heap.Lists a items
  direct : m.heap.Direct a
  bare : m.heap.Bare a
  shows : m.Shows a
  length_lt : items.length < ArrayIndex.limit

theorem Object.key_ofItems {proto : Option ObjectId} {a : ObjectId} {items : List (Option Value)} :
    ∀ x ∈ (ofItems proto a items).members, x.key = 0 := by
  have hpush : ∀ (xs : List (Nat × Value)) (o : Object), (∀ x ∈ o.members, x.key = 0) →
      ∀ x ∈ (o.pushElements xs).members, x.key = 0 := by
    intro xs
    induction xs with
    | nil => exact fun o ho => ho
    | cons y xs ih =>
      refine fun o ho => ih _ fun x hx => ?_
      rcases Array.mem_push.1 hx with hx | rfl
      · exact ho x hx
      · rfl
  have hmembers : ((Object.empty proto).makeArray a items.length).members
      = #[{ Variable.plain "length" .undefined with
          link := .hook .arrayLength a, hidden := true, permanent := true }] := by
    simp [makeArray, updateOrPush, empty, push]
  refine hpush _ _ fun x hx => ?_
  rw [hmembers, List.mem_toArray, List.mem_singleton] at hx
  rw [hx]
  rfl

/-- A new array of the elements of a list may be read. -/
theorem Machine.Shows.of_ofItems {m : Machine} {a : ObjectId} {proto : Option ObjectId}
    {items : List (Option Value)} (ho : m.heap.get? a = some (.ofItems proto a items))
    (hlength : items.length ≤ ArrayIndex.limit) : m.Shows a := by
  have hkey : ∀ name x, m.heap.at? ⟨a, name⟩ = some x → x.key = 0 := by
    intro name x hx
    unfold Heap.at? Heap.own? at hx
    rw [ho] at hx
    exact Object.key_ofItems x (Array.mem_of_find?_eq_some hx)
  refine ⟨fun x hx => .inl (hkey _ x hx), fun i x hi hx => ?_⟩
  rw [(Heap.Lists.of_ofItems ho hlength).2.cell hi] at hx
  exact .inl (hkey _ x hx)

/-- A new array of the elements of a list holds them. -/
theorem Machine.Holds.of_ofItems {m : Machine} {a : ObjectId} {proto : Option ObjectId}
    {items : List (Option Value)} (ho : m.heap.get? a = some (.ofItems proto a items))
    (hunbound : Elements.unbound items = items) (hbare : m.heap.Bare a)
    (hlength : items.length < ArrayIndex.limit) : m.Holds a items := by
  obtain ⟨hlists, hdirect⟩ := Heap.Lists.of_ofItems ho (Nat.le_of_lt hlength)
  exact ⟨hunbound ▸ hlists, hdirect, hbare, .of_ofItems ho (Nat.le_of_lt hlength), hlength⟩

end PageScript
