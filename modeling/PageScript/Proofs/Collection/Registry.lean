import PageScript.Proofs.Collection.Exact
import PageScript.Proofs.Collection.Pins

/-! # The slots of a heap over its history

A heap is made without slots and changed by making, changing, pinning and collecting objects.  Whatever the
order of these changes, the empty slots are just those that wait to be used again, each listed once.  So a new
object never takes the slot of a live one, and it starts without pins.
-/

set_option autoImplicit false

namespace PageScript.Heap

variable {h : Heap} {a b : ObjectId} {i : Nat} {o : Object}

/-! ## Changes of a heap -/

/-- What can be done to a heap. -/
inductive Change where
  | alloc (o : Object)
  | update (id : ObjectId) (f : Object → Object)
  | pin (id : ObjectId)
  | unpin (id : ObjectId)
  | collect (roots : List ObjectId)

/-- The heap after a change. -/
def Change.apply : Change → Heap → Heap
  | .alloc o, h => (h.alloc o).2
  | .update id f, h => h.modify id f
  | .pin id, h => h.pin id
  | .unpin id, h => h.unpin id
  | .collect roots, h => (h.collect roots).2

/-- The heap after some changes of one without slots, the first one first. -/
def after (changes : List Change) : Heap := changes.foldl (fun h c => c.apply h) .empty

/-! ## Empty slots -/

/-- The empty slots are just those that wait to be used again, each listed once. -/
structure Registered (h : Heap) : Prop extends h.Sound where
  listed : ∀ i < h.slots.size, h.slot? ⟨i⟩ = none → i ∈ h.free

theorem getElem?_eq_some_none_iff : h.slots[i]? = some none ↔ i < h.slots.size ∧ h.slot? ⟨i⟩ = none := by
  rw [slot?]
  cases hslot : h.slots[i]? with
  | none =>
    have hout := Array.getElem?_eq_none_iff.1 hslot
    exact ⟨by rintro ⟨⟩, fun hlt => absurd hout (Nat.not_le_of_lt hlt.1)⟩
  | some s =>
    have hlt : i < h.slots.size := (Array.getElem?_eq_some_iff.1 hslot).1
    rw [Option.some.injEq]
    exact ⟨fun hs => ⟨hlt, hs⟩, fun hs => hs.2⟩

namespace Registered

theorem initial : Registered .empty where
  empty := nofun
  different := List.nodup_nil
  listed := nofun

theorem mem_free_iff (hr : h.Registered) : i ∈ h.free ↔ h.slots[i]? = some none := by
  rw [getElem?_eq_some_none_iff]
  exact ⟨hr.empty i, fun hi => hr.listed i hi.1 hi.2⟩

theorem alloc (hr : h.Registered) (o : Object) : (h.alloc o).2.Registered := by
  refine ⟨hr.toSound.alloc o, fun i hlt hnone => ?_⟩
  rw [slot?_alloc hr.toSound] at hnone
  split at hnone
  · cases hnone
  · rename_i hne
    unfold Heap.alloc at hlt hne ⊢
    cases hfree : h.free with
    | nil =>
      rw [hfree] at hlt hne
      -- Without an empty slot a new one is made, the last one.
      change i < (h.slots.push _).size at hlt
      rw [Array.size_push] at hlt
      have hi : i ≠ h.slots.size := fun hi => hne (congrArg ObjectId.mk hi.symm)
      have hlisted := hr.listed i (by omega) hnone
      rw [hfree] at hlisted
      exact hlisted
    | cons j free =>
      rw [hfree] at hlt hne
      change i < (h.slots.setIfInBounds j _).size at hlt
      rw [Array.size_setIfInBounds] at hlt
      have hlisted := hr.listed i hlt hnone
      rw [hfree] at hlisted
      exact (List.mem_cons.1 hlisted).resolve_left fun hi => hne (congrArg ObjectId.mk hi.symm)

theorem modifySlot (hr : h.Registered) (f : Slot → Slot) : (h.modifySlot a f).Registered := by
  refine ⟨hr.toSound.modifySlot f, fun i hlt hnone => hr.listed i ?_ ?_⟩
  · rwa [Heap.modifySlot, Array.size_modify] at hlt
  · rw [slot?_modifySlot] at hnone
    split at hnone
    · exact Option.map_eq_none_iff.1 hnone
    · exact hnone

theorem collect (hr : h.Registered) (roots : List ObjectId) : (h.collect roots).2.Registered := by
  refine ⟨hr.toSound.sweep _, fun i hlt hnone => ?_⟩
  change i ∈ (h.unmarked (h.marked roots)).foldl (fun free i => i :: free) h.free
  change (h.sweep (h.marked roots)).slot? ⟨i⟩ = none at hnone
  have hsize : i < h.slots.size := Nat.lt_of_lt_of_eq hlt Array.size_mapIdx
  rw [foldl_cons, List.mem_append, List.mem_reverse, mem_unmarked]
  cases hlive : h.isLive ⟨i⟩ with
  | false =>
    rw [isLive, Option.isSome_eq_false_iff, Option.isNone_iff_eq_none] at hlive
    exact .inr (hr.listed i hsize hlive)
  | true =>
    rw [slot?_sweep] at hnone
    split at hnone
    · rw [isLive, hnone] at hlive
      cases hlive
    · rename_i hmark
      exact .inl ⟨hsize, rfl, Bool.not_eq_true _ ▸ hmark⟩

/-- Every change of a heap leaves its empty slots registered. -/
theorem apply (hr : h.Registered) (c : Change) : (c.apply h).Registered := by
  cases c with
  | alloc o => exact hr.alloc o
  | update id f => exact hr.modifySlot _
  | pin id => exact hr.modifySlot _
  | unpin id => exact hr.modifySlot _
  | collect roots => exact hr.collect roots

/-- Every slot is either taken by a live object or waits to be used again. -/
theorem liveCount_add_length (hr : h.Registered) : h.liveCount + h.free.length = h.slots.size := by
  have hempty : h.free.Perm ((List.range h.slots.size).filter fun i => !h.isLive ⟨i⟩) := by
    refine (List.perm_ext_iff_of_nodup hr.different (List.nodup_range.filter _)).2 fun i => ?_
    rw [hr.mem_free_iff, getElem?_eq_some_none_iff, List.mem_filter, List.mem_range, isLive,
      Bool.not_eq_true', Option.isSome_eq_false_iff, Option.isNone_iff_eq_none]
  have hsplit := List.length_eq_length_filter_add (l := List.range h.slots.size) fun i => h.isLive ⟨i⟩
  rw [liveCount_eq, hempty.length_eq, ← hsplit, List.length_range]

end Registered

theorem registered_after (changes : List Change) : (after changes).Registered := by
  unfold after
  induction changes using List.reverseRecOn with
  | nil => exact .initial
  | append_singleton changes c ih =>
    rw [List.foldl_append]
    exact ih.apply c

/-! ## Pins -/

/-- A collection frees no pinned object, so that no pin is lost with its slot. -/
theorem pinsAt_collect (h : Heap) (roots : List ObjectId) (a : ObjectId) :
    (h.collect roots).2.pinsAt a = h.pinsAt a := by
  cases hlive : (h.collect roots).2.isLive a with
  | true => rw [pinsAt, slot?_collect_of_isLive hlive, pinsAt]
  | false =>
    have hfreed : (h.collect roots).2.slot? a = none := by
      rwa [isLive, Option.isSome_eq_false_iff, Option.isNone_iff_eq_none] at hlive
    rw [pinsAt, hfreed]
    cases hs : h.slot? a with
    | none => rw [pinsAt, hs]
    | some s =>
      rw [pinsAt_of_slot? hs]
      rcases Nat.eq_zero_or_pos s.pins with hpins | hpins
      · exact hpins.symm
      · rw [isLive_collect_iff.2 ⟨by rw [isLive, hs]; rfl, .pinned hs hpins⟩] at hlive
        cases hlive

/-- How often an object is pinned after a change, if it was pinned `n` times before and is not freed. -/
def Change.pinsAfter (a : ObjectId) (n : Nat) : Change → Nat
  | .pin b => if b = a then n + 1 else n
  | .unpin b => if b = a then n - 1 else n
  | _ => n

theorem pinsAt_apply (hs : h.Sound) (hlive : h.isLive a = true) (c : Change) :
    (c.apply h).pinsAt a = c.pinsAfter a (h.pinsAt a) := by
  cases c with
  | alloc o => exact pinsAt_alloc hs o
  | update id f => exact pinsAt_modify f
  | collect roots => exact pinsAt_collect h roots a
  | pin id =>
    have hboth : (id = a ∧ h.isLive a = true) = (id = a) := propext (and_iff_left hlive)
    refine pinsAt_pin.trans ?_
    simp only [hboth]
    rfl
  | unpin id => exact pinsAt_unpin

/-- Over a history that does not free an object, its pins are just counted. -/
theorem pinsAt_foldl (hr : h.Registered) (changes : List Change)
    (hlive : ∀ front, front <+: changes → (front.foldl (fun h c => c.apply h) h).isLive a = true) :
    (changes.foldl (fun h c => c.apply h) h).pinsAt a =
      changes.foldl (fun n c => c.pinsAfter a n) (h.pinsAt a) := by
  induction changes generalizing h with
  | nil => rfl
  | cons c changes ih =>
    have hfirst : h.isLive a = true := hlive [] List.nil_prefix
    rw [List.foldl_cons, List.foldl_cons, ← pinsAt_apply hr.toSound hfirst]
    refine ih (hr.apply c) fun front hfront => hlive (c :: front) ?_
    exact List.cons_prefix_cons.2 ⟨rfl, hfront⟩

/-! ## Histories -/

/-- After any changes the slots that wait to be used again are the empty ones, each listed once, and the others
are taken by live objects.  A new object gets the id of no live one, without any pins, and leaves the others as
they are.  As long as it is not freed, its pins are those set on it since then, less those taken back. -/
theorem after_registered (changes : List Change) :
    (after changes).free.Nodup ∧
    (∀ i, i ∈ (after changes).free ↔ (after changes).slots[i]? = some none) ∧
    (after changes).liveCount + (after changes).free.length = (after changes).slots.size ∧
    ∀ o id h, (after changes).alloc o = (id, h) →
      (after changes).isLive id = false ∧ h.slot? id = some ⟨o, 0⟩ ∧
      (∀ other, other ≠ id → h.slot? other = (after changes).slot? other) ∧
      ∀ later, (∀ front, front <+: later → (after (changes ++ .alloc o :: front)).isLive id = true) →
        (after (changes ++ .alloc o :: later)).pinsAt id = later.foldl (fun n c => c.pinsAfter id n) 0 := by
  have hr := registered_after changes
  refine ⟨hr.different, fun i => hr.mem_free_iff, hr.liveCount_add_length, ?_⟩
  intro o id h halloc
  obtain ⟨rfl, rfl⟩ := Prod.ext_iff.1 halloc.symm
  have hnew : ((after changes).alloc o).2.slot? ((after changes).alloc o).1 = some ⟨o, 0⟩ := by
    rw [slot?_alloc hr.toSound, if_pos rfl]
  refine ⟨?_, hnew, fun other hne => ?_, fun later hlive => ?_⟩
  · rw [isLive, slot?_new hr.toSound]
    rfl
  · rw [slot?_alloc hr.toSound, if_neg hne.symm]
  · have hcut : ∀ front, after (changes ++ .alloc o :: front) =
        front.foldl (fun h c => c.apply h) ((after changes).alloc o).2 := fun front => List.foldl_append
    simp only [hcut] at hlive ⊢
    rw [pinsAt_foldl (hr.alloc o) later hlive, pinsAt_of_slot? hnew]

end PageScript.Heap
