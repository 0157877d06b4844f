import PageScript.Heap.Slots

/-! # Collection

An object stays if a chain of references leads to it from a root or from a pinned object.  The marker
follows the references of each object once; each step marks a slot or shortens the work list, so it
ends.  The sweep then empties every slot that was not marked.
-/

set_option autoImplicit false

namespace PageScript

/-! ## References -/

/-- The objects that a value refers to: its object and its receiver. -/
def Value.references : Value → List ObjectId
  | .object id receiver => id :: receiver.toList
  | _ => []

/-- The objects that a link refers to. -/
def Link.references : Link → List ObjectId
  | .plain => []
  | .hook _ owner => [owner]
  | .synonym object _ => [object]

/-- The objects that a function refers to: the scope of script code. -/
def Callable.references : Callable → List ObjectId
  | .script _ scope => [scope]
  | .native _ _ => []

/-- The objects that an object refers to. -/
def Object.references (o : Object) : List ObjectId :=
  (o.members.toList.flatMap fun v => v.value.references ++ v.link.references)
    ++ (o.callable.map Callable.references).getD [] ++ o.maker.toList ++ o.proto.toList

/-! ## Marking -/

theorem count_set_lt {marks : Array Bool} {i : Nat} (h : marks[i]? = some false) :
    (marks.setIfInBounds i true).toList.count false < marks.toList.count false := by
  have hi : i < marks.toList.length := by
    rw [Array.length_toList]
    exact (Array.getElem?_eq_some_iff.1 h).1
  have hv : marks.toList[i] = false := by
    have := (Array.getElem?_eq_some_iff.1 h).2
    simpa using this
  have hpos : 0 < marks.toList.count false :=
    List.count_pos_iff.2 (hv ▸ List.getElem_mem hi)
  rw [Array.toList_setIfInBounds, List.count_set hi, hv]
  simp only [beq_self_eq_true, if_true, Bool.true_beq, Bool.false_eq_true, if_false]
  omega

namespace Heap

/-- Marks what a work list leads to, beyond what is marked already. -/
def mark (h : Heap) (marks : Array Bool) (work : List ObjectId) : Array Bool :=
  match work with
  | [] => marks
  | id :: rest =>
    match _hm : marks[id.index]?, h.get? id with
    | some false, some o => mark h (marks.setIfInBounds id.index true) (o.references ++ rest)
    | _, _ => mark h marks rest
termination_by (marks.toList.count false, work.length)
decreasing_by
  · exact Prod.Lex.left _ _ (count_set_lt _hm)
  · exact Prod.Lex.right _ (by simp)

/-- The pinned objects. -/
def pinned (h : Heap) : List ObjectId :=
  (List.range h.slots.size).filterMap fun i =>
    match h.slot? ⟨i⟩ with
    | some s => if 0 < s.pins then some ⟨i⟩ else none
    | none => none

/-- Which slots are reached from some roots and the pinned objects. -/
def marked (h : Heap) (roots : List ObjectId) : Array Bool :=
  h.mark (Array.replicate h.slots.size false) (roots ++ h.pinned)

/-! ## Sweeping -/

/-- The full slots that are not marked, in rising order. -/
def unmarked (h : Heap) (marks : Array Bool) : List Nat :=
  (List.range h.slots.size).filter fun i => h.isLive ⟨i⟩ && !(marks[i]?.getD false)

/-- Empties the slots that are not marked; the last one emptied is the first to be used again. -/
def sweep (h : Heap) (marks : Array Bool) : Heap :=
  { slots := h.slots.mapIdx fun i s => if marks[i]?.getD false then s else none
    free := (h.unmarked marks).foldl (fun free i => i :: free) h.free
    fresh := 0 }

/-- How many objects a collection left and how many it freed. -/
structure Census where
  live : Nat
  freed : Nat

/-- Frees every object that is not reached from the roots or from a pinned object. -/
def collect (h : Heap) (roots : List ObjectId) : Census × Heap :=
  let marks := h.marked roots
  let freed := (h.unmarked marks).length
  let swept := h.sweep marks
  (⟨swept.liveCount, freed⟩, swept)

end Heap

end PageScript
