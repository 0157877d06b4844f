import PageScript.Heap.Object

/-! # The heap

Objects stand in numbered slots.  Slots that were emptied are used again, the last one emptied first;
new slots are only made when none is empty.  An object may be pinned any number of times.
-/

set_option autoImplicit false

namespace PageScript

/-- An object and how often it is pinned. -/
structure Slot where
  object : Object
  pins : Nat

instance : Inhabited Slot := ⟨⟨default, 0⟩⟩

/-- The slots, the numbers of the empty ones, and how many objects were made since the last
collection. -/
structure Heap where
  slots : Array (Option Slot)
  free : List Nat
  fresh : Nat

namespace Heap

/-- A heap without slots. -/
def empty : Heap := ⟨#[], [], 0⟩

instance : Inhabited Heap := ⟨empty⟩

/-- Puts an object into a slot of its own. -/
def alloc (o : Object) (h : Heap) : ObjectId × Heap :=
  match h.free with
  | i :: free => (⟨i⟩, ⟨h.slots.setIfInBounds i (some ⟨o, 0⟩), free, h.fresh + 1⟩)
  | [] => (⟨h.slots.size⟩, ⟨h.slots.push (some ⟨o, 0⟩), [], h.fresh + 1⟩)

/-- The slot of an object, if it is live. -/
def slot? (h : Heap) (id : ObjectId) : Option Slot := (h.slots[id.index]?).join

/-- The object in a slot. -/
def get? (h : Heap) (id : ObjectId) : Option Object := (h.slot? id).map Slot.object

/-- Whether a slot holds an object. -/
def isLive (h : Heap) (id : ObjectId) : Bool := (h.slot? id).isSome

/-- Changes the slot of a live object. -/
def modifySlot (id : ObjectId) (f : Slot → Slot) (h : Heap) : Heap :=
  { h with slots := h.slots.modify id.index (Option.map f) }

/-- Changes a live object. -/
def modify (id : ObjectId) (f : Object → Object) (h : Heap) : Heap :=
  h.modifySlot id fun s => { s with object := f s.object }

/-- Pins a live object once more. -/
def pin (id : ObjectId) (h : Heap) : Heap :=
  h.modifySlot id fun s => { s with pins := s.pins + 1 }

/-- Takes back one pin of a live object. -/
def unpin (id : ObjectId) (h : Heap) : Heap :=
  h.modifySlot id fun s => { s with pins := s.pins - 1 }

/-- The number of live objects. -/
def liveCount (h : Heap) : Nat := h.slots.countP Option.isSome

/-- The variable of a name of a live object. -/
def own? (h : Heap) (id : ObjectId) (name : String) : Option Variable :=
  (h.get? id).bind (·.find? name)

/-- Whether a live object has a variable of its own of a name. -/
def owns (h : Heap) (id : ObjectId) (name : String) : Bool :=
  match h.get? id with
  | some o => o.has name
  | none => false

/-- The prototype of a live object. -/
def proto? (h : Heap) (id : ObjectId) : Option ObjectId := (h.get? id).bind (·.proto)

end Heap

end PageScript
