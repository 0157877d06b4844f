import Mathlib.Data.List.Forall2
import Mathlib.Data.List.Sort
import PageScript.Library.Arrays
import PageScript.Proofs.Tidy

/-! # Elements that were read

The elements of an object are read by rising index, and each value forgets its receiver as it is read.  So
the elements that methods of arrays take from one object or from several ones can be added to a new array
without a look at the names that it has already.
-/

set_option autoImplicit false

namespace PageScript

/-! ## Yielded values -/

namespace Script

variable {α β : Type} {x : Script α} {f : α → Script β} {P : α → Prop} {Q : β → Prop}

/-- Whether all values that a computation may yield have a property. -/
def Yields (P : α → Prop) (x : Script α) : Prop := ∀ e m v n, x e m = .value v n → P v

theorem Yields.pure {a : α} (h : P a) : Yields P (pure a) := by
  intro e m v n hv
  cases hv
  exact h

theorem Yields.bind (hx : Yields P x) (hf : ∀ a, P a → Yields Q (f a)) : Yields Q (x >>= f) := by
  intro e m v n hv
  change Script.bind x f e m = _ at hv
  unfold Script.bind at hv
  cases ho : x e m with
  | value a k =>
    rw [ho] at hv
    exact hf a (hx e m a k ho) e k v n hv
  | abrupt c k => rw [ho] at hv; cases hv
  | exhausted k => rw [ho] at hv; cases hv

theorem yields_any (x : Script α) : Yields (fun _ => True) x := fun _ _ _ _ _ => trivial

theorem Yields.after (hf : ∀ a, Yields Q (f a)) : Yields Q (x >>= f) :=
  (yields_any x).bind fun a _ => hf a

theorem Yields.read {view : Machine → α} (h : ∀ m, P (view m)) : Yields P (Script.read view) := by
  intro e m v n hv
  cases hv
  exact h m

/-- What is yielded for each member of a list stands in the order of the list. -/
theorem Yields.each {f : β → Script α} {R : β → α → Prop} (hf : ∀ b, Yields (R b) (f b)) (items : List β) :
    Yields (List.Forall₂ R items) (Script.each f items) := by
  have hfold : ∀ (done : List β) (results : List α), List.Forall₂ R done results → ∀ rest : List β,
      Yields (fun results => List.Forall₂ R (rest.reverse ++ done) results)
        (Script.fold (fun results b => do return (← f b) :: results) rest results) := by
    intro done results hdone rest e m v n hv
    change Script.foldOver _ rest results e m = _ at hv
    induction rest generalizing done results m with
    | nil =>
      cases hv
      exact hdone
    | cons b rest ih =>
      unfold Script.foldOver at hv
      rw [List.reverse_cons, List.append_assoc]
      have hstep : Yields (fun results' => List.Forall₂ R (b :: done) results')
          (do return (← f b) :: results) := (hf b).bind fun a ha => .pure (.cons ha hdone)
      cases ho : (do return (← f b) :: results : Script (List α)) e m with
      | value results' k =>
        rw [ho] at hv
        exact ih _ _ (hstep e m _ _ ho) k hv
      | abrupt c k => rw [ho] at hv; cases hv
      | exhausted k => rw [ho] at hv; cases hv
  refine Yields.bind (hfold [] [] .nil items) fun results hresults => .pure ?_
  rw [List.append_nil] at hresults
  rw [← List.reverse_reverse items]
  exact List.rel_reverse hresults

end Script

/-! ## Indices of an object -/

/-- The numbers that were taken so far fall towards the first, which no later one is below. -/
theorem eraseReps_loop_rising {rest taken : List Nat} {last : Nat}
    (hrest : (last :: rest).Pairwise (· ≤ ·)) (htaken : (last :: taken).Pairwise (· > ·)) :
    (List.eraseRepsBy.loop (· == ·) last rest taken).Pairwise (· < ·) := by
  induction rest generalizing last taken with
  | nil => exact List.pairwise_reverse.2 htaken
  | cons i rest ih =>
    obtain ⟨hlast, htail⟩ := List.pairwise_cons.1 hrest
    unfold List.eraseRepsBy.loop
    split
    · exact ih (hrest.sublist (.cons_cons _ (List.sublist_cons_self i rest))) htaken
    · rename_i hne
      have hlt : last < i := lt_of_le_of_ne (hlast i (.head _)) (beq_eq_false_iff_ne.1 hne)
      refine ih htail (List.pairwise_cons.2 ⟨fun j hj => ?_, htaken⟩)
      rcases List.mem_cons.1 hj with rfl | hj
      · exact hlt
      · exact lt_trans ((List.pairwise_cons.1 htaken).1 j hj) hlt

theorem mem_eraseReps_loop {rest taken : List Nat} {last i : Nat}
    (hi : i ∈ List.eraseRepsBy.loop (· == ·) last rest taken) : i ∈ taken ∨ i ∈ last :: rest := by
  induction rest generalizing last taken with
  | nil =>
    rcases List.mem_cons.1 (List.mem_reverse.1 hi) with rfl | hi
    · exact .inr (.head _)
    · exact .inl hi
  | cons j rest ih =>
    unfold List.eraseRepsBy.loop at hi
    split at hi
    · exact (ih hi).imp_right fun hi => List.cons_subset_cons _ (List.subset_cons_self j rest) hi
    · rcases ih hi with hi | hi
      · rcases List.mem_cons.1 hi with rfl | hi
        · exact .inr (.head _)
        · exact .inl hi
      · exact .inr (.tail _ hi)

namespace Heap

theorem indices_rising (h : Heap) (id : ObjectId) (limit : Nat) :
    (h.indices id limit).Pairwise (· < ·) := by
  unfold indices
  have hsorted := List.pairwise_mergeSort' (· ≤ ·) ((h.chain id).flatMap fun x =>
    x.2.members.toList.filterMap fun v => (ArrayIndex.ofName? v.name).filter (· < limit))
  dsimp only
  generalize List.mergeSort _ _ = sorted at hsorted
  cases sorted with
  | nil => exact .nil
  | cons i rest => exact eraseReps_loop_rising hsorted (List.pairwise_singleton _ _)

theorem lt_of_mem_indices {h : Heap} {id : ObjectId} {limit i : Nat} (hi : i ∈ h.indices id limit) :
    i < limit := by
  unfold indices at hi
  have hall : i ∈ (h.chain id).flatMap fun x =>
      x.2.members.toList.filterMap fun v => (ArrayIndex.ofName? v.name).filter (· < limit) := by
    refine (List.mergeSort_perm _ (fun i j : Nat => decide (i ≤ j))).mem_iff.1 ?_
    dsimp only at hi
    generalize List.mergeSort _ _ = sorted at hi ⊢
    cases sorted with
    | nil => exact hi
    | cons j rest => exact (mem_eraseReps_loop hi).elim (absurd · List.not_mem_nil) fun hi => hi
  obtain ⟨⟨_, o⟩, -, hi⟩ := List.mem_flatMap.1 hall
  obtain ⟨x, -, hx⟩ := List.mem_filterMap.1 hi
  exact of_decide_eq_true (Option.filter_eq_some_iff.1 hx).2

end Heap

/-! ## Elements -/

namespace Elements

/-- The indices of elements rise and are below the length, and no value remembers a receiver. -/
structure Tidy (e : Elements) : Prop where
  rising : (e.present.map Prod.fst).Pairwise (· < ·)
  below : ∀ x ∈ e.present, x.1 < e.length
  unbound : ∀ x ∈ e.present, x.2.receiver? = none

variable {e : Elements} {start stop base length : Nat}

theorem mem_moved {x : Nat × Value} (hx : x ∈ e.moved start stop base) :
    ∃ i, (i, x.2) ∈ e.present ∧ start ≤ i ∧ i < stop ∧ x.1 = i - start + base := by
  obtain ⟨⟨i, v⟩, hmem, hx⟩ := List.mem_filterMap.1 hx
  dsimp only at hx
  split at hx
  · rename_i hbounds
    cases hx
    rw [Bool.and_eq_true, decide_eq_true_eq, decide_eq_true_eq] at hbounds
    exact ⟨i, hmem, hbounds.1, hbounds.2, rfl⟩
  · cases hx

theorem Tidy.moved_rising (h : e.Tidy) (start stop base : Nat) :
    ((e.moved start stop base).map Prod.fst).Pairwise (· < ·) := by
  have hrising := List.pairwise_map.1 h.rising
  refine List.pairwise_map.2 (List.Pairwise.filterMap _ ?_ hrising)
  rintro ⟨i, v⟩ ⟨j, w⟩ hij x hx y hy
  dsimp only at hij hx hy
  split at hx
  · split at hy
    · rename_i hi hj
      cases hx
      cases hy
      rw [Bool.and_eq_true, decide_eq_true_eq, decide_eq_true_eq] at hi hj
      show i - start + base < j - start + base
      omega
    · cases hy
  · cases hx

/-- A part of the elements, from a base on, as far as a length leaves room for it. -/
theorem Tidy.part (h : e.Tidy) (hlength : stop - start ≤ length) :
    (⟨length, e.moved start stop 0⟩ : Elements).Tidy := by
  refine ⟨h.moved_rising start stop 0, fun x hx => ?_, fun x hx => ?_⟩ <;>
    obtain ⟨i, hi, hstart, hstop, hindex⟩ := mem_moved hx
  · show x.1 < length
    omega
  · exact h.unbound (i, x.2) hi

/-- Elements may be followed by those of another object, from the length on. -/
theorem Tidy.append {f : Elements} (he : e.Tidy) (hf : f.Tidy) :
    (⟨e.length + f.length, e.present ++ f.moved 0 f.length e.length⟩ : Elements).Tidy := by
  refine ⟨?_, fun x hx => ?_, fun x hx => ?_⟩
  · rw [List.map_append, List.pairwise_append]
    refine ⟨he.rising, hf.moved_rising _ _ _, fun i hi j hj => ?_⟩
    obtain ⟨x, hx, rfl⟩ := List.mem_map.1 hi
    obtain ⟨y, hy, rfl⟩ := List.mem_map.1 hj
    obtain ⟨k, -, -, -, hindex⟩ := mem_moved hy
    have hbelow := he.below x hx
    omega
  · show x.1 < e.length + f.length
    rcases List.mem_append.1 hx with hx | hx
    · have hbelow := he.below x hx
      omega
    · obtain ⟨k, -, -, hk, hindex⟩ := mem_moved hx
      omega
  · rcases List.mem_append.1 hx with hx | hx
    · exact he.unbound x hx
    · obtain ⟨k, hk, -⟩ := mem_moved hx
      exact hf.unbound (k, x.2) hk

/-- Elements may be followed by a value. -/
theorem Tidy.snoc (he : e.Tidy) {v : Value} (hv : v.receiver? = none) :
    (⟨e.length + 1, e.present ++ [(e.length, v)]⟩ : Elements).Tidy := by
  refine ⟨?_, fun x hx => ?_, fun x hx => ?_⟩
  · rw [List.map_append, List.pairwise_append]
    refine ⟨he.rising, List.pairwise_singleton _ _, fun i hi j hj => ?_⟩
    obtain ⟨x, hx, rfl⟩ := List.mem_map.1 hi
    cases List.mem_singleton.1 hj
    exact he.below x hx
  · show x.1 < e.length + 1
    rcases List.mem_append.1 hx with hx | hx
    · exact Nat.lt_succ_of_lt (he.below x hx)
    · cases List.mem_singleton.1 hx
      exact Nat.lt_succ_self _
  · rcases List.mem_append.1 hx with hx | hx
    · exact he.unbound x hx
    · cases List.mem_singleton.1 hx
      exact hv

end Elements

namespace Script

/-- Elements that were read one after the other, each at its index and without a receiver. -/
theorem present_of_each {indices : List Nat} {present : List (Nat × Value)}
    (h : List.Forall₂ (fun i x => x.1 = i ∧ x.2.receiver? = none) indices present) :
    present.map Prod.fst = indices ∧ ∀ x ∈ present, x.2.receiver? = none := by
  induction h with
  | nil => exact ⟨rfl, fun _ hx => absurd hx List.not_mem_nil⟩
  | cons hx _ ih =>
    refine ⟨by rw [List.map_cons, hx.1, ih.1], fun y hy => ?_⟩
    rcases List.mem_cons.1 hy with rfl | hy
    · exact hx.2
    · exact ih.2 y hy

theorem readElements_tidy (id : ObjectId) : Yields Elements.Tidy (readElements id) := by
  refine .after fun length => ?_
  refine Yields.bind (P := fun indices => indices.Pairwise (· < ·) ∧ ∀ i ∈ indices, i < length)
    (.read fun m => ⟨m.heap.indices_rising id length, fun _ hi => Heap.lt_of_mem_indices hi⟩)
    fun indices hindices => ?_
  refine Yields.bind (.each (R := fun i x => x.1 = i ∧ x.2.receiver? = none)
    (fun i => .after fun v => .pure ⟨rfl, v.receiver?_unbound⟩) indices) fun present hpresent => ?_
  obtain ⟨rfl, hunbound⟩ := present_of_each hpresent
  exact .pure ⟨hindices.1, fun x hx => hindices.2 x.1 (List.mem_map_of_mem hx), hunbound⟩

theorem append_tidy {e : Elements} (he : e.Tidy) (v : Value) : Yields Elements.Tidy (append e v) := by
  have hone : Yields Elements.Tidy
      (pure ⟨e.length + 1, e.present ++ [(e.length, v.unbound)]⟩) :=
    .pure (he.snoc v.receiver?_unbound)
  refine .after fun c => ?_
  split
  · exact (readElements_tidy _).bind fun more hmore => .pure (he.append hmore)
  · exact hone

end Script

end PageScript
