import PageScript.Proofs.Collection.Reachability

/-! # Slots of a sound heap

In a sound heap the slots that wait to be used again are empty, so that a new object never takes the
place of a live one.
-/

set_option autoImplicit false

namespace PageScript.Heap

variable {h : Heap} {a b : ObjectId} {i : Nat} {o : Object}

/-- The slots that wait to be used again are empty and different. -/
structure Sound (h : Heap) : Prop where
  empty : ∀ i ∈ h.free, i < h.slots.size ∧ h.slot? ⟨i⟩ = none
  different : h.free.Nodup

/-! ## Changes -/

theorem slot?_modifySlot (f : Slot → Slot) :
    (h.modifySlot a f).slot? b = if a = b then (h.slot? b).map f else h.slot? b := by
  rw [modifySlot, slot?, slot?, Array.getElem?_modify]
  by_cases hab : a = b
  · rw [if_pos hab, if_pos (congrArg ObjectId.index hab)]
    cases h.slots[b.index]? with
    | none => rfl
    | some s => rfl
  · have hindex : a.index ≠ b.index := fun he => hab (congrArg ObjectId.mk he)
    rw [if_neg hab, if_neg hindex]

theorem isLive_modifySlot (f : Slot → Slot) : (h.modifySlot a f).isLive b = h.isLive b := by
  rw [isLive, isLive, slot?_modifySlot]
  split
  · rw [Option.isSome_map]
  · rfl

theorem get?_modifySlot (f : Slot → Slot) :
    (h.modifySlot a f).get? b
      = if a = b then (h.slot? b).map fun s => (f s).object else h.get? b := by
  rw [get?, slot?_modifySlot]
  split
  · rw [Option.map_map]
    rfl
  · rfl

theorem Sound.modifySlot (hs : h.Sound) (f : Slot → Slot) : (h.modifySlot a f).Sound := by
  refine ⟨fun i hi => ?_, hs.different⟩
  obtain ⟨hlt, hnone⟩ := hs.empty i hi
  refine ⟨?_, ?_⟩
  · rw [Heap.modifySlot, Array.size_modify]
    exact hlt
  · rw [slot?_modifySlot, hnone]
    split <;> rfl

/-! ## New objects -/

theorem slot?_of_size_le (hi : h.slots.size ≤ i) : h.slot? ⟨i⟩ = none := by
  rw [slot?, Array.getElem?_eq_none hi]
  rfl

theorem slot?_new (hs : h.Sound) (o : Object) : h.slot? (h.alloc o).1 = none := by
  unfold alloc
  cases hfree : h.free with
  | nil => exact slot?_of_size_le (Nat.le_refl _)
  | cons i free => exact (hs.empty i (hfree ▸ .head _)).2

theorem slot?_alloc (hs : h.Sound) (o : Object) :
    (h.alloc o).2.slot? a = if (h.alloc o).1 = a then some ⟨o, 0⟩ else h.slot? a := by
  unfold alloc
  cases hfree : h.free with
  | nil =>
    show ((h.slots.push (some ⟨o, 0⟩))[a.index]?).join
      = if (⟨h.slots.size⟩ : ObjectId) = a then some ⟨o, 0⟩ else h.slot? a
    rw [Array.getElem?_push]
    by_cases ha : a.index = h.slots.size
    · rw [if_pos ha, if_pos (congrArg ObjectId.mk ha).symm]
      rfl
    · have hne : (⟨h.slots.size⟩ : ObjectId) ≠ a := by
        rintro rfl
        exact ha rfl
      rw [if_neg ha, if_neg hne]
      rfl
  | cons i free =>
    have hi := (hs.empty i (hfree ▸ .head _)).1
    show ((h.slots.setIfInBounds i (some ⟨o, 0⟩))[a.index]?).join
      = if (⟨i⟩ : ObjectId) = a then some ⟨o, 0⟩ else h.slot? a
    rw [Array.getElem?_setIfInBounds]
    by_cases ha : i = a.index
    · rw [if_pos ha, if_pos hi, if_pos (congrArg ObjectId.mk ha)]
      rfl
    · rw [if_neg ha, if_neg fun he => ha (congrArg ObjectId.index he)]
      rfl

theorem get?_new (hs : h.Sound) (o : Object) : (h.alloc o).2.get? (h.alloc o).1 = some o := by
  rw [get?, slot?_alloc hs, if_pos rfl]
  rfl

/-- A new object does not take the place of a live one. -/
theorem alloc_ne (hs : h.Sound) (ha : h.isLive a = true) (o : Object) : (h.alloc o).1 ≠ a := by
  rintro rfl
  rw [isLive, slot?_new hs] at ha
  cases ha

theorem Sound.alloc (hs : h.Sound) (o : Object) : (h.alloc o).2.Sound := by
  have hslot := fun a => slot?_alloc (a := a) hs o
  unfold Heap.alloc at hslot ⊢
  cases hfree : h.free with
  | nil => exact ⟨nofun, List.nodup_nil⟩
  | cons i free =>
    rw [hfree] at hslot
    have hnodup := hs.different
    rw [hfree, List.nodup_cons] at hnodup
    refine ⟨fun j hj => ?_, hnodup.2⟩
    obtain ⟨hlt, hnone⟩ := hs.empty j (hfree ▸ .tail _ hj)
    refine ⟨?_, ?_⟩
    · rw [Array.size_setIfInBounds]
      exact hlt
    · refine (hslot ⟨j⟩).trans ?_
      have hij : (⟨i⟩ : ObjectId) ≠ ⟨j⟩ := by
        intro he
        cases he
        exact hnodup.1 hj
      rw [if_neg hij, hnone]

/-! ## Collections -/

theorem foldl_cons (xs ys : List Nat) : xs.foldl (fun l x => x :: l) ys = xs.reverse ++ ys := by
  rw [List.foldl_flip_cons_eq_append, List.map_id']

theorem mem_unmarked {marks : Array Bool} :
    i ∈ h.unmarked marks ↔ i < h.slots.size ∧ h.isLive ⟨i⟩ = true ∧ (marks[i]?.getD false) = false := by
  rw [unmarked, List.mem_filter, List.mem_range, Bool.and_eq_true, Bool.not_eq_true']

theorem Sound.sweep (hs : h.Sound) (marks : Array Bool) : (h.sweep marks).Sound := by
  refine ⟨fun i hi => ?_, ?_⟩
  · have hsize : (h.sweep marks).slots.size = h.slots.size := Array.size_mapIdx
    change i ∈ (h.unmarked marks).foldl (fun l x => x :: l) h.free at hi
    rw [foldl_cons, List.mem_append, List.mem_reverse] at hi
    rcases hi with hi | hi
    · obtain ⟨hlt, -, hmark⟩ := mem_unmarked.1 hi
      refine ⟨hsize ▸ hlt, ?_⟩
      rw [slot?_sweep, hmark, if_neg Bool.false_ne_true]
    · obtain ⟨hlt, hnone⟩ := hs.empty i hi
      refine ⟨hsize ▸ hlt, ?_⟩
      rw [slot?_sweep, hnone, ite_self]
  · show ((h.unmarked marks).foldl (fun l x => x :: l) h.free).Nodup
    rw [foldl_cons, List.nodup_append]
    refine ⟨(List.reverse_perm _).nodup_iff.2 (List.nodup_range.filter _), hs.different, ?_⟩
    rintro i hi j hj rfl
    obtain ⟨-, hlive, -⟩ := mem_unmarked.1 (List.mem_reverse.1 hi)
    rw [isLive, (hs.empty i hj).2] at hlive
    cases hlive

end PageScript.Heap
