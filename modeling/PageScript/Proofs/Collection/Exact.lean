import Mathlib.Data.Set.Card
import PageScript.Proofs.Collection.Slots

/-! # Exact collections

A collection keeps just the objects to which a chain of references leads from a root or from a pinned
object.  What it keeps stays as it is and refers to nothing that was freed, and its census counts what it
kept and what it freed.
-/

set_option autoImplicit false

namespace PageScript

/-! ## References -/

theorem Object.refersTo_of_mem_references {o : Object} {id : ObjectId} (h : id ∈ o.references) :
    o.RefersTo id := by
  unfold references at h
  rcases List.mem_append.1 h with h | hproto
  · rcases List.mem_append.1 h with h | hmaker
    · rcases List.mem_append.1 h with h | hcode
      · obtain ⟨x, hx, hid⟩ := List.mem_flatMap.1 h
        rcases List.mem_append.1 hid with hvalue | hlink
        · cases hv : x.value with
          | object a receiver =>
            rw [hv] at hvalue
            rcases List.mem_cons.1 hvalue with rfl | hreceiver
            · exact .value hx hv
            · rw [Option.mem_toList] at hreceiver
              exact .receiver hx (hreceiver ▸ hv)
          | _ =>
            rw [hv] at hvalue
            cases hvalue
        · cases hl : x.link with
          | plain =>
            rw [hl] at hlink
            cases hlink
          | hook hook owner =>
            rw [hl] at hlink
            cases List.mem_singleton.1 hlink
            exact .owner hx hl
          | synonym target name =>
            rw [hl] at hlink
            cases List.mem_singleton.1 hlink
            exact .target hx hl
      · cases hc : o.callable with
        | none =>
          rw [hc] at hcode
          cases hcode
        | some callable =>
          rw [hc] at hcode
          cases callable with
          | script tree scope =>
            cases List.mem_singleton.1 hcode
            exact .scope hc
          | native name native => cases hcode
    · exact .maker (Option.mem_toList.1 hmaker)
  · exact .proto (Option.mem_toList.1 hproto)

namespace Heap

variable {h : Heap} {marks : Array Bool} {work roots : List ObjectId}

/-- The objects to which a chain of references leads from a root or from a pinned object. -/
inductive Held (h : Heap) (roots : List ObjectId) : ObjectId → Prop where
  | root {a : ObjectId} (member : a ∈ roots) : Held h roots a
  | pinned {a : ObjectId} {s : Slot} (slot : h.slot? a = some s) (pins : 0 < s.pins) : Held h roots a
  | field {a b : ObjectId} {o : Object} (from_ : Held h roots a) (object : h.get? a = some o)
      (field : o.RefersTo b) : Held h roots b

/-! ## What is marked -/

theorem slot_of_mem_pinned {a : ObjectId} (ha : a ∈ h.pinned) :
    ∃ s, h.slot? a = some s ∧ 0 < s.pins := by
  obtain ⟨i, -, hi⟩ := List.mem_filterMap.1 ha
  cases hs : h.slot? ⟨i⟩ with
  | none =>
    rw [hs] at hi
    cases hi
  | some s =>
    rw [hs] at hi
    dsimp only at hi
    split at hi
    · rename_i hpins
      cases hi
      exact ⟨s, hs, hpins⟩
    · cases hi

/-- The marker marks nothing but what is held, if it starts from there. -/
theorem held_of_mark (hwork : ∀ a ∈ work, h.Held roots a)
    (hmarks : ∀ a : ObjectId, marks[a.index]? = some true → h.Held roots a) {a : ObjectId}
    (ha : (h.mark marks work)[a.index]? = some true) : h.Held roots a := by
  -- The induction is on the run of the marker: whatever stands on its work list is held at each step.
  fun_induction Heap.mark h marks work with
  | case1 => exact hmarks a ha
  | case2 marks id rest o hm ho ih =>
    have hid : h.Held roots id := hwork id (.head _)
    refine ih (fun b hb => ?_) (fun b hb => ?_) ha
    · rcases List.mem_append.1 hb with hb | hb
      · exact .field hid ho (Object.refersTo_of_mem_references hb)
      · exact hwork b (.tail _ hb)
    · rcases (marks_set (Array.getElem?_eq_some_iff.1 hm).1).1 hb with heq | hb
      · have hidb : id = b := congrArg ObjectId.mk heq
        exact hidb ▸ hid
      · exact hmarks b hb
  | case3 marks id rest hother ih => exact ih (fun b hb => hwork b (.tail _ hb)) hmarks ha

theorem held_of_marked {a : ObjectId} (ha : (h.marked roots)[a.index]? = some true) :
    h.Held roots a := by
  refine held_of_mark (fun b hb => ?_) (fun b hb => ?_) ha
  · rcases List.mem_append.1 hb with hroot | hpinned
    · exact .root hroot
    · obtain ⟨s, hs, hpins⟩ := slot_of_mem_pinned hpinned
      exact .pinned hs hpins
  · rw [Array.getElem?_replicate] at hb
    split at hb <;> simp at hb

theorem Held.marked {a : ObjectId} (ha : h.Held roots a) (hlive : h.isLive a = true) :
    (h.marked roots)[a.index]? = some true := by
  induction ha with
  | root hroot => exact marked_root (.inl hroot) hlive
  | pinned hs hpins => exact marked_root (.inr (mem_pinned hs hpins)) hlive
  | field _ ho hfield ih =>
    exact marked_field (ih (isLive_of_get? ho)) ho hfield.mem_references hlive

/-! ## What is left -/

/-- A live object is marked just if it is held. -/
theorem marked_eq_true_iff {a : ObjectId} (hlive : h.isLive a = true) :
    (h.marked roots)[a.index]?.getD false = true ↔ h.Held roots a := by
  refine ⟨fun hmark => held_of_marked ?_, fun hheld => ?_⟩
  · cases hm : (h.marked roots)[a.index]? with
    | none =>
      rw [hm] at hmark
      cases hmark
    | some marked => rw [hm] at hmark; exact congrArg some hmark
  · rw [hheld.marked hlive]
    rfl

theorem isLive_collect_iff {a : ObjectId} :
    (h.collect roots).2.isLive a = true ↔ h.isLive a = true ∧ h.Held roots a := by
  show ((h.sweep (h.marked roots)).slot? a).isSome = true ↔ _
  rw [slot?_sweep]
  by_cases hlive : h.isLive a = true
  · rw [← marked_eq_true_iff hlive]
    split
    · rename_i hmark
      exact ⟨fun _ => ⟨hlive, hmark⟩, fun _ => hlive⟩
    · rename_i hmark
      exact ⟨nofun, fun hheld => absurd hheld.2 hmark⟩
  · refine ⟨fun hsome => absurd ?_ hlive, fun hheld => absurd hheld.1 hlive⟩
    split at hsome
    · exact hsome
    · cases hsome

/-- What is live after a collection stands in the slot where it stood, pinned as often. -/
theorem slot?_collect_of_isLive {a : ObjectId} (ha : (h.collect roots).2.isLive a = true) :
    (h.collect roots).2.slot? a = h.slot? a := by
  have hswept : (h.collect roots).2.slot? a = _ := slot?_sweep (h := h) a
  split at hswept
  · exact hswept
  · rw [isLive, hswept] at ha
    cases ha

/-! ## Counting -/

theorem isLive_eq_false_of_size_le {i : Nat} (hi : h.slots.size ≤ i) : h.isLive ⟨i⟩ = false := by
  rw [isLive, slot?_of_size_le hi]
  rfl

/-- Live objects of a kind are counted by going through the slots. -/
theorem ncard_live (p : Nat → Bool) :
    {a : ObjectId | h.isLive a = true ∧ p a.index = true}.ncard
      = ((List.range h.slots.size).filter fun i => h.isLive ⟨i⟩ && p i).length := by
  have hset : {a : ObjectId | h.isLive a = true ∧ p a.index = true}
      = ObjectId.mk '' {i | i ∈ (List.range h.slots.size).filter fun i => h.isLive ⟨i⟩ && p i} := by
    ext ⟨i⟩
    simp only [Set.mem_ofPred_eq, Set.mem_image, List.mem_filter, List.mem_range, Bool.and_eq_true,
      ObjectId.mk.injEq, exists_eq_right]
    refine ⟨fun hi => ⟨Nat.lt_of_not_le fun hle => ?_, hi⟩, fun hi => hi.2⟩
    exact Bool.false_ne_true ((isLive_eq_false_of_size_le hle).symm.trans hi.1)
  rw [hset, Set.ncard_image_of_injective _ fun _ _ he => congrArg ObjectId.index he,
    ← List.coe_toFinset, Set.ncard_coe_finset, List.toFinset_card_of_nodup (List.nodup_range.filter _)]

theorem liveCount_eq (h : Heap) :
    h.liveCount = ((List.range h.slots.size).filter fun i => h.isLive ⟨i⟩).length := by
  have hlist : h.slots.toList = (List.range h.slots.size).map fun i => h.slot? ⟨i⟩ := by
    refine List.ext_getElem (by simp) fun i hi _ => ?_
    rw [List.getElem_map, List.getElem_range, slot?, ← Array.getElem?_toList, List.getElem?_eq_getElem hi]
    rfl
  rw [liveCount, ← Array.countP_toList, hlist, List.countP_map, List.countP_eq_length_filter]
  rfl

theorem ncard_isLive (h : Heap) : {a : ObjectId | h.isLive a = true}.ncard = h.liveCount := by
  have hcount := ncard_live (h := h) fun _ => true
  simp only [and_true, Bool.and_true] at hcount
  rw [hcount, liveCount_eq]

theorem ncard_unmarked (marks : Array Bool) :
    {a : ObjectId | h.isLive a = true ∧ ¬marks[a.index]?.getD false = true}.ncard
      = (h.unmarked marks).length := by
  rw [unmarked, ← ncard_live]
  simp only [Bool.not_eq_true, Bool.not_eq_true']

/-! ## Collections -/

/-- A collection keeps the live objects that are held, as they are, and frees the others.  What it keeps
refers to nothing that it freed, and the census counts both. -/
theorem collect_exact (h : Heap) (roots : List ObjectId) :
    (∀ a, (h.collect roots).2.isLive a = true ↔ h.isLive a = true ∧ h.Held roots a) ∧
    (∀ a, (h.collect roots).2.isLive a = true → (h.collect roots).2.slot? a = h.slot? a) ∧
    (∀ a o b, (h.collect roots).2.get? a = some o → o.RefersTo b → h.isLive b = true →
      (h.collect roots).2.isLive b = true) ∧
    (h.collect roots).1.live = {a | h.isLive a = true ∧ h.Held roots a}.ncard ∧
    (h.collect roots).1.freed = {a | h.isLive a = true ∧ ¬h.Held roots a}.ncard := by
  refine ⟨fun a => isLive_collect_iff, fun a => slot?_collect_of_isLive, fun a o b ho hb hlive => ?_, ?_, ?_⟩
  · have hkept := isLive_of_get? ho
    rw [get?, slot?_collect_of_isLive hkept] at ho
    exact isLive_collect_iff.2 ⟨hlive, .field (isLive_collect_iff.1 hkept).2 ho hb⟩
  · rw [show (h.collect roots).1.live = (h.collect roots).2.liveCount from rfl, ← ncard_isLive]
    simp only [isLive_collect_iff]
  · rw [show (h.collect roots).1.freed = (h.unmarked (h.marked roots)).length from rfl,
      ← ncard_unmarked]
    refine congrArg Set.ncard (Set.ext fun a => and_congr_right fun hlive => ?_)
    exact not_congr (marked_eq_true_iff hlive)

end Heap

end PageScript
