import PageScript.Proofs.Collection.Slots

/-! # Pins

How often objects are pinned: only pinning and its undoing change it, and a collection leaves the objects
that are pinned.
-/

set_option autoImplicit false

namespace PageScript

namespace Heap

variable {h n : Heap} {a b : ObjectId}

/-- How often the object of a slot is pinned. -/
def pinsAt (h : Heap) (id : ObjectId) : Nat := ((h.slot? id).map Slot.pins).getD 0

theorem pinsAt_of_slot? {s : Slot} (hs : h.slot? a = some s) : h.pinsAt a = s.pins := by
  rw [pinsAt, hs]
  rfl

theorem pinsAt_modify (f : Object → Object) : (h.modify a f).pinsAt b = h.pinsAt b := by
  rw [pinsAt, pinsAt, modify, slot?_modifySlot]
  split
  · cases h.slot? b <;> rfl
  · rfl

theorem pinsAt_alloc (hs : h.Sound) (o : Object) : (h.alloc o).2.pinsAt b = h.pinsAt b := by
  rw [pinsAt, pinsAt, slot?_alloc hs]
  split
  · rename_i he
    rw [← he, slot?_new hs]
    rfl
  · rfl

theorem pinsAt_unpin : (h.unpin a).pinsAt b = if a = b then h.pinsAt b - 1 else h.pinsAt b := by
  rw [pinsAt, pinsAt, unpin, slot?_modifySlot]
  split
  · cases h.slot? b <;> rfl
  · rfl

theorem pinsAt_pin :
    (h.pin a).pinsAt b = if a = b ∧ h.isLive b = true then h.pinsAt b + 1 else h.pinsAt b := by
  rw [pinsAt, pinsAt, pin, isLive, slot?_modifySlot]
  by_cases hab : a = b
  · rw [if_pos hab]
    cases h.slot? b with
    | none => rw [if_neg (by rintro ⟨-, ⟨⟩⟩)]; rfl
    | some s => rw [if_pos ⟨hab, rfl⟩]; rfl
  · rw [if_neg hab, if_neg fun hc => hab hc.1]

/-- A pin that was set on an object at the start is taken back at the end, whether the object is live or
not. -/
theorem pinsAt_unpin_of_pin (hn : n.pinsAt b = (h.pin a).pinsAt b) :
    (n.unpin a).pinsAt b = h.pinsAt b := by
  rw [pinsAt_unpin, hn, pinsAt_pin]
  by_cases hab : a = b
  · rw [if_pos hab]
    by_cases hlive : h.isLive b = true
    · rw [if_pos ⟨hab, hlive⟩]
      rfl
    · have hzero : h.pinsAt b = 0 := by
        rw [isLive, Bool.not_eq_true, Option.isSome_eq_false_iff, Option.isNone_iff_eq_none] at hlive
        rw [pinsAt, hlive]
        rfl
      rw [if_neg fun hc => hlive hc.2, hzero]
  · rw [if_neg hab, if_neg fun hc => hab hc.1]

end Heap

/-- A collection does not change how often the objects are pinned, as it leaves those that are. -/
theorem Machine.pinsAt_collected {m : Machine} {hp : Heap} {a : ObjectId}
    (hreach : m.Reaches a → hp.slot? a = m.heap.slot? a)
    (hsub : hp.slot? a = m.heap.slot? a ∨ hp.slot? a = none) : hp.pinsAt a = m.heap.pinsAt a := by
  rcases hsub with hsame | hnone
  · rw [Heap.pinsAt, Heap.pinsAt, hsame]
  · cases hs : m.heap.slot? a with
    | none => rw [Heap.pinsAt, Heap.pinsAt, hnone, hs]
    | some s =>
      rcases Nat.eq_zero_or_pos s.pins with hpins | hpins
      · rw [Heap.pinsAt_of_slot? hs, hpins, Heap.pinsAt, hnone]
        rfl
      · rw [hreach (.pinned hs hpins), hs] at hnone
        cases hnone

end PageScript
