import PageScript.Proofs.Collection.Boundary

/-! # New interpreters

A new interpreter has the heap of the realm, with nothing under way.  An embedding program defines its
functions there before it runs scripts.
-/

set_option autoImplicit false

namespace PageScript

/-! ## The heap of the realm -/

namespace Realm

/-- Whether a heap has so many slots, none of them empty, and only refers to these. -/
def isFull (h : Heap) (size : Nat) : Bool :=
  h.free.isEmpty && h.slots.toList.length == size && h.slots.toList.all fun slot =>
    match slot with
    | some s => s.object.references.all fun id => decide (id.index < size)
    | none => false

/-- Whether a heap holds no functions of script code. -/
def isNative (h : Heap) : Bool :=
  h.slots.toList.all fun slot =>
    match slot.bind (·.object.callable) with
    | some (.script _ _) => false
    | _ => true

/-- Whether an object has the hooks of an array, as far as it can be computed. -/
def hasArrayHooks (id : ObjectId) (o : Object) : Bool :=
  match o.additionHook, o.find? "length" with
  | some .arrayIndex, some ⟨_, _, .hook .arrayLength owner, _, true, true⟩ => owner == id
  | _, _ => false

/-- Whether the objects of a heap have the hooks of arrays where they have the payload or a hook of one. -/
def isCounted (h : Heap) : Bool :=
  h.slots.toList.zipIdx.all fun (slot, i) =>
    match slot with
    | none => true
    | some s =>
      (match s.object.payload with
        | .array _ => hasArrayHooks ⟨i⟩ s.object
        | _ => true) &&
      s.object.members.toList.all fun x =>
        match x.link with
        | .hook .arrayLength owner => owner == ⟨i⟩ && hasArrayHooks ⟨i⟩ s.object
        | _ => true

section

variable {h : Heap} {size : Nat} (hfull : isFull h size = true)

include hfull

theorem free_of_isFull : h.free = [] := by
  rw [isFull, Bool.and_eq_true, Bool.and_eq_true, List.isEmpty_iff] at hfull
  exact hfull.1.1

theorem size_of_isFull : h.slots.size = size := by
  rw [isFull, Bool.and_eq_true, Bool.and_eq_true, beq_iff_eq, Array.length_toList] at hfull
  exact hfull.1.2

theorem slot_of_isFull {a : ObjectId} (ha : a.index < size) :
    ∃ s, h.slot? a = some s ∧ ∀ b ∈ s.object.references, b.index < size := by
  have hlt : a.index < h.slots.size := size_of_isFull hfull ▸ ha
  have hmem : h.slots[a.index] ∈ h.slots.toList := Array.mem_toList_iff.2 (Array.getElem_mem hlt)
  rw [isFull, Bool.and_eq_true, List.all_eq_true] at hfull
  have hslot := hfull.2 _ hmem
  cases hs : h.slots[a.index] with
  | none =>
    rw [hs] at hslot
    cases hslot
  | some s =>
    rw [hs] at hslot
    refine ⟨s, ?_, fun b hb => of_decide_eq_true (List.all_eq_true.1 hslot b hb)⟩
    rw [Heap.slot?, Array.getElem?_eq_getElem hlt, hs]
    rfl

theorem isLive_of_isFull {a : ObjectId} (ha : a.index < size) : h.isLive a = true := by
  obtain ⟨s, hs, -⟩ := slot_of_isFull hfull ha
  exact Heap.isLive_of_slot? hs

theorem sound_of_isFull : h.Sound := by
  refine ⟨?_, ?_⟩
  · rw [free_of_isFull hfull]
    exact nofun
  · rw [free_of_isFull hfull]
    exact List.nodup_nil

end

set_option maxRecDepth 100000 in
theorem heap_computed : (isFull heap 151 && isNative heap && isCounted heap) = true := by
  decide +kernel

theorem heap_isFull : isFull heap 151 = true := by
  have h := heap_computed
  rw [Bool.and_eq_true, Bool.and_eq_true] at h
  exact h.1.1

theorem heap_isCounted : isCounted heap = true := by
  have h := heap_computed
  rw [Bool.and_eq_true] at h
  exact h.2

theorem heap_sound : heap.Sound := sound_of_isFull heap_isFull

end Realm

/-! ## Functions of the embedding program -/

namespace Interpreter

variable {config : Config} {host : Host}

/-- A function of the embedding program, to be defined on the global object. -/
structure Registration where
  name : String
  arity : Nat
  behavior : String

/-- A new interpreter with some functions of the embedding program. -/
def fresh (config : Config) (host : Host) (functions : List Registration) : Interpreter :=
  functions.foldl
    (fun i f => (i.register Intrinsic.globalObject f.name f.arity f.behavior).2) (new config host)

theorem new_machine (config : Config) (host : Host) :
    ∃ es, (new config host).machine = { initialMachine config with events := es } ∧ shown es = [] := by
  obtain ⟨es, hlog, hes⟩ := Simulation.log_value .debug
    (fun m => "interpreter ready, " ++ toString m.heap.liveCount ++ " objects")
    (.upTo config host nestingLimit) (initialMachine config)
  refine ⟨es, ?_, hes⟩
  unfold new perform apply
  dsimp only
  rw [hlog]

/-- What holds of a new interpreter, and of a machine with one more function of the embedding program if
it did before, holds of a new interpreter with some functions. -/
theorem fresh_machine {P : Machine → Prop} (functions : List Registration)
    (hnew : ∀ es, shown es = [] → P { initialMachine config with events := es })
    (hregister : ∀ (i : Interpreter) (name : String) (arity : Nat) (behavior : String), P i.machine →
      P (i.register Intrinsic.globalObject name arity behavior).2.machine) :
    P (fresh config host functions).machine := by
  have hstart : P (new config host).machine := by
    obtain ⟨es, hes, hshown⟩ := new_machine config host
    rw [hes]
    exact hnew es hshown
  unfold fresh
  generalize new config host = i at hstart
  induction functions generalizing i with
  | nil => exact hstart
  | cons f rest ih => exact ih _ (hregister i f.name f.arity f.behavior hstart)

end Interpreter

end PageScript
