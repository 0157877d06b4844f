import PageScript.Machine.State

/-! # What a collection leaves

A machine can come to an object again through its activations, the value of the last statement, pins,
and the fields of objects that it can come to.  A collection leaves all of these objects alone.
-/

set_option autoImplicit false

namespace PageScript

/-! ## References -/

/-- The objects that stand in the fields of an object. -/
inductive Object.RefersTo (o : Object) : ObjectId → Prop where
  | value {x : Variable} {id : ObjectId} {receiver : Option ObjectId} (member : x ∈ o.members.toList)
      (field : x.value = .object id receiver) : RefersTo o id
  | receiver {x : Variable} {id receiver : ObjectId} (member : x ∈ o.members.toList)
      (field : x.value = .object id (some receiver)) : RefersTo o receiver
  | owner {x : Variable} {hook : Hook} {owner : ObjectId} (member : x ∈ o.members.toList)
      (field : x.link = .hook hook owner) : RefersTo o owner
  | target {x : Variable} {target : ObjectId} {name : String} (member : x ∈ o.members.toList)
      (field : x.link = .synonym target name) : RefersTo o target
  | scope {tree : FunctionTree} {scope : ObjectId} (field : o.callable = some (.script tree scope)) :
      RefersTo o scope
  | maker {id : ObjectId} (field : o.maker = some id) : RefersTo o id
  | proto {id : ObjectId} (field : o.proto = some id) : RefersTo o id

theorem Object.mem_references_of_member {o : Object} {x : Variable} {id : ObjectId}
    (hx : x ∈ o.members.toList) (hid : id ∈ x.value.references ++ x.link.references) :
    id ∈ o.references := by
  unfold references
  refine List.mem_append_left _ (List.mem_append_left _ (List.mem_append_left _ ?_))
  exact List.mem_flatMap.2 ⟨x, hx, hid⟩

theorem Object.RefersTo.mem_references {o : Object} {id : ObjectId} (h : o.RefersTo id) :
    id ∈ o.references := by
  cases h with
  | value hx hv => exact mem_references_of_member hx (by rw [hv]; exact .head _)
  | receiver hx hv => exact mem_references_of_member hx (by rw [hv]; exact .tail _ (.head _))
  | owner hx hl =>
    refine mem_references_of_member hx (List.mem_append_right _ ?_)
    rw [hl]
    exact .head _
  | target hx hl =>
    refine mem_references_of_member hx (List.mem_append_right _ ?_)
    rw [hl]
    exact .head _
  | scope hc =>
    unfold references
    refine List.mem_append_left _ (List.mem_append_left _ (List.mem_append_right _ ?_))
    rw [hc]
    exact .head _
  | maker hm =>
    unfold references
    refine List.mem_append_left _ (List.mem_append_right _ ?_)
    rw [hm]
    exact .head _
  | proto hp =>
    unfold references
    refine List.mem_append_right _ ?_
    rw [hp]
    exact .head _

/-- The objects that a machine can come to. -/
inductive Machine.Reaches (m : Machine) : ObjectId → Prop where
  | intrinsic (i : Nat) (bound : i ≤ 14) : Reaches m ⟨i⟩
  | locals {f : Frame} (frame : f ∈ m.frames) : Reaches m f.locals
  | scope {f : Frame} (frame : f ∈ m.frames) : Reaches m f.scope
  | entry {f : Frame} {w : WithEntry} (frame : f ∈ m.frames) (entry : w ∈ f.withs) :
      Reaches m w.object
  | arguments {f : Frame} {id : ObjectId} (frame : f ∈ m.frames) (field : f.arguments = some id) :
      Reaches m id
  | callee {f : Frame} {id : ObjectId} (frame : f ∈ m.frames) (field : f.callee = some id) :
      Reaches m id
  | this {f : Frame} {id : ObjectId} (frame : f ∈ m.frames) (field : f.this = some id) : Reaches m id
  | result {id : ObjectId} {receiver : Option ObjectId} (field : m.result = .object id receiver) :
      Reaches m id
  | resultReceiver {id receiver : ObjectId} (field : m.result = .object id (some receiver)) :
      Reaches m receiver
  | pinned {id : ObjectId} {s : Slot} (slot : m.heap.slot? id = some s) (pins : 0 < s.pins) :
      Reaches m id
  | field {a b : ObjectId} {o : Object} (from_ : Reaches m a) (object : m.heap.get? a = some o)
      (field : o.RefersTo b) : Reaches m b

/-! ## Marking -/

namespace Heap

variable {h : Heap} {marks : Array Bool} {work roots : List ObjectId}

theorem get?_of_isLive {id : ObjectId} (hid : h.isLive id = true) : ∃ o, h.get? id = some o := by
  rw [isLive, Option.isSome_iff_exists] at hid
  obtain ⟨s, hs⟩ := hid
  exact ⟨s.object, by rw [get?, hs]; rfl⟩

theorem isLive_of_get? {id : ObjectId} {o : Object} (ho : h.get? id = some o) : h.isLive id = true := by
  obtain ⟨s, hs, -⟩ := Option.map_eq_some_iff.1 ho
  rw [isLive, hs]
  rfl

theorem isLive_of_slot? {id : ObjectId} {s : Slot} (hs : h.slot? id = some s) :
    h.isLive id = true := by rw [isLive, hs]; rfl

theorem lt_size_of_slot? {id : ObjectId} {s : Slot} (hs : h.slot? id = some s) :
    id.index < h.slots.size := by
  refine Nat.lt_of_not_le fun hn => ?_
  rw [slot?, Array.getElem?_eq_none hn] at hs
  cases hs

theorem marks_set {i j : Nat} (hi : i < marks.size) :
    (marks.setIfInBounds i true)[j]? = some true ↔ i = j ∨ marks[j]? = some true := by
  rw [Array.getElem?_setIfInBounds]
  by_cases hij : i = j
  · simp [hij, hij ▸ hi]
  · simp [hij]

/-- Whether marked objects lead only to objects that are marked, or else on a work list. -/
def Covers (h : Heap) (marks : Array Bool) (work : List ObjectId) : Prop :=
  ∀ a o, marks[a.index]? = some true → h.get? a = some o → ∀ b ∈ o.references, h.isLive b = true →
    marks[b.index]? = some true ∨ b ∈ work

theorem mark_keeps {i : Nat} (hi : marks[i]? = some true) : (h.mark marks work)[i]? = some true := by
  fun_induction Heap.mark h marks work with
  | case1 => exact hi
  | case2 marks id rest o hm ho ih =>
    exact ih ((marks_set (Array.getElem?_eq_some_iff.1 hm).1).2 (.inr hi))
  | case3 marks id rest hother ih => exact ih hi

/-- A live object that the marker passes over is marked already. -/
theorem marked_of_passed (hsize : marks.size = h.slots.size) {a : ObjectId}
    (hlive : h.isLive a = true)
    (hother : ∀ o, marks[a.index]? = some false → h.get? a = some o → False) :
    marks[a.index]? = some true := by
  obtain ⟨o, ho⟩ := get?_of_isLive hlive
  obtain ⟨s, hs⟩ := Option.isSome_iff_exists.1 hlive
  have hlt : a.index < marks.size := hsize ▸ lt_size_of_slot? hs
  cases hv : marks[a.index] with
  | true => exact Array.getElem?_eq_some_iff.2 ⟨hlt, hv⟩
  | false => exact absurd ho (hother o (Array.getElem?_eq_some_iff.2 ⟨hlt, hv⟩))

theorem mark_work (hsize : marks.size = h.slots.size) {a : ObjectId} (ha : a ∈ work)
    (hlive : h.isLive a = true) : (h.mark marks work)[a.index]? = some true := by
  fun_induction Heap.mark h marks work with
  | case1 => cases ha
  | case2 marks id rest o hm ho ih =>
    have hid := (Array.getElem?_eq_some_iff.1 hm).1
    have hset : (marks.setIfInBounds id.index true).size = h.slots.size := by
      rw [Array.size_setIfInBounds, hsize]
    rcases List.mem_cons.1 ha with rfl | ha
    · exact mark_keeps ((marks_set hid).2 (.inl rfl))
    · exact ih hset (List.mem_append_right _ ha)
  | case3 marks id rest hother ih =>
    rcases List.mem_cons.1 ha with rfl | ha
    · exact mark_keeps (marked_of_passed hsize hlive hother)
    · exact ih hsize ha

theorem mark_covers (hsize : marks.size = h.slots.size) (hcovers : h.Covers marks work) :
    h.Covers (h.mark marks work) [] := by
  -- The induction is on the run of the marker: each step takes one object off the work list, and the new
  -- marks and the new list cover what the old ones did.
  fun_induction Heap.mark h marks work with
  | case1 => exact hcovers
  | case2 marks id rest o hm ho ih =>
    have hid := (Array.getElem?_eq_some_iff.1 hm).1
    refine ih (by rw [Array.size_setIfInBounds, hsize]) fun a o' ha ho' b hb hlive => ?_
    rcases (marks_set hid).1 ha with hia | ha
    · have hida : id = a := congrArg ObjectId.mk hia
      rw [← hida, ho] at ho'
      cases ho'
      -- The references of a new mark go on the work list in the same step.
      exact .inr (List.mem_append_left _ hb)
    · rcases hcovers a o' ha ho' b hb hlive with hmark | hwork
      · exact .inl ((marks_set hid).2 (.inr hmark))
      · cases hwork with
        | head => exact .inl ((marks_set hid).2 (.inl rfl))
        | tail _ hwork => exact .inr (List.mem_append_right _ hwork)
  | case3 marks id rest hother ih =>
    refine ih hsize fun a o ha ho b hb hlive => ?_
    rcases hcovers a o ha ho b hb hlive with hmark | hwork
    · exact .inl hmark
    · rcases List.mem_cons.1 hwork with rfl | hwork
      · exact .inl (marked_of_passed hsize hlive hother)
      · exact .inr hwork

/-! ## What is marked in the end -/

theorem mem_pinned {id : ObjectId} {s : Slot} (hs : h.slot? id = some s) (hpins : 0 < s.pins) :
    id ∈ h.pinned := by
  unfold pinned
  refine List.mem_filterMap.2 ⟨id.index, List.mem_range.2 (lt_size_of_slot? hs), ?_⟩
  have hslot : h.slot? ⟨id.index⟩ = some s := hs
  rw [hslot]
  exact if_pos hpins

theorem marked_root {id : ObjectId} (hid : id ∈ roots ∨ id ∈ h.pinned) (hlive : h.isLive id = true) :
    (h.marked roots)[id.index]? = some true :=
  mark_work Array.size_replicate (List.mem_append.2 hid) hlive

theorem marked_field {a b : ObjectId} {o : Object} (ha : (h.marked roots)[a.index]? = some true)
    (ho : h.get? a = some o) (hb : b ∈ o.references) (hlive : h.isLive b = true) :
    (h.marked roots)[b.index]? = some true := by
  have hstart : h.Covers (Array.replicate h.slots.size false) (roots ++ h.pinned) :=
    fun a _ ha => by
      rw [Array.getElem?_replicate] at ha
      split at ha <;> simp at ha
  exact (mark_covers Array.size_replicate hstart a o ha ho b hb hlive).resolve_right List.not_mem_nil

theorem slot?_sweep (id : ObjectId) :
    (h.sweep marks).slot? id = if marks[id.index]?.getD false then h.slot? id else none := by
  rw [slot?, slot?, sweep, Array.getElem?_mapIdx]
  cases h.slots[id.index]? with
  | none => split <;> rfl
  | some s => split <;> rfl

end Heap

/-! ## Collections -/

namespace Machine

variable {m : Machine} {id : ObjectId}

theorem mem_roots_of_frame {f : Frame} (hf : f ∈ m.frames) (hid : id ∈ f.references) :
    id ∈ m.roots :=
  List.mem_append_left _ (List.mem_append_right _ (List.mem_flatMap.2 ⟨f, hf, hid⟩))

theorem mem_roots_of_result (hid : id ∈ m.result.references) : id ∈ m.roots :=
  List.mem_append_right _ hid

theorem mem_roots_of_intrinsic {i : Nat} (hi : i ≤ 14) : (⟨i⟩ : ObjectId) ∈ m.roots := by
  refine List.mem_append_left _ (List.mem_append_left _ ?_)
  have hall : ∀ i ≤ 14, (⟨i⟩ : ObjectId) ∈ Intrinsic.globalObject :: Intrinsic.prototypes := by decide
  exact hall i hi

theorem Reaches.marked (h : m.Reaches id) (hlive : m.heap.isLive id = true) :
    (m.heap.marked m.roots)[id.index]? = some true := by
  induction h with
  | intrinsic i hi => exact Heap.marked_root (.inl (mem_roots_of_intrinsic hi)) hlive
  | locals hf => exact Heap.marked_root (.inl (mem_roots_of_frame hf (by simp [Frame.references]))) hlive
  | scope hf => exact Heap.marked_root (.inl (mem_roots_of_frame hf (by simp [Frame.references]))) hlive
  | entry hf hw =>
    refine Heap.marked_root (.inl (mem_roots_of_frame hf ?_)) hlive
    simp only [Frame.references, List.cons_append, List.mem_cons, List.mem_append, List.mem_map]
    exact .inr (.inr (.inl (.inl (.inl ⟨_, hw, rfl⟩))))
  | arguments hf he =>
    exact Heap.marked_root (.inl (mem_roots_of_frame hf (by simp [Frame.references, he]))) hlive
  | callee hf he =>
    exact Heap.marked_root (.inl (mem_roots_of_frame hf (by simp [Frame.references, he]))) hlive
  | this hf he =>
    exact Heap.marked_root (.inl (mem_roots_of_frame hf (by simp [Frame.references, he]))) hlive
  | result he =>
    exact Heap.marked_root (.inl (mem_roots_of_result (by rw [he]; exact .head _))) hlive
  | resultReceiver he =>
    exact Heap.marked_root (.inl (mem_roots_of_result (by rw [he]; exact .tail _ (.head _)))) hlive
  | pinned hs hpins => exact Heap.marked_root (.inr (Heap.mem_pinned hs hpins)) hlive
  | field _ ho hr ih =>
    obtain ⟨s, hs, -⟩ := Option.map_eq_some_iff.1 ho
    exact Heap.marked_field (ih (Heap.isLive_of_slot? hs)) ho hr.mem_references hlive

/-- A collection leaves each slot as it is, or empties it. -/
theorem slot?_collect_or (m : Machine) (id : ObjectId) :
    m.collect.2.heap.slot? id = m.heap.slot? id ∨ m.collect.2.heap.slot? id = none := by
  have hswept : m.collect.2.heap.slot? id = _ := Heap.slot?_sweep id
  split at hswept
  · exact .inl hswept
  · exact .inr hswept

/-- A collection leaves each slot alone that a machine can come to. -/
theorem slot?_collect (h : m.Reaches id) : m.collect.2.heap.slot? id = m.heap.slot? id := by
  show (m.heap.sweep (m.heap.marked m.roots)).slot? id = m.heap.slot? id
  rw [Heap.slot?_sweep]
  cases hs : m.heap.slot? id with
  | none => rw [ite_self]
  | some s => rw [h.marked (Heap.isLive_of_slot? hs), if_pos (by rfl)]

end Machine

end PageScript
