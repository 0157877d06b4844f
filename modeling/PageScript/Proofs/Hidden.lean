import PageScript.Proofs.Collection.Renaming
import PageScript.Proofs.Fresh
import PageScript.Proofs.Pairing.Identity

/-! # Machines that differ in a hidden value

Nothing that a run does depends on the value of a variable that a pairing hides: one that is protected with
a secret key, or one whose hook answers in its place.  Machines that differ only there match, and they are
renamings of each other if all objects are live that they can come to.
-/

set_option autoImplicit false

namespace PageScript

/-! ## Machines that differ in a value -/

/-- Replaces the value that stands in a variable. -/
def Object.withValue (name : String) (v : Value) (o : Object) : Object :=
  o.update name fun x => { x with value := v }

/-- Replaces the value that stands in a variable. -/
def Machine.withValue (a : ObjectId) (name : String) (v : Value) (m : Machine) : Machine :=
  { m with heap := m.heap.modify a (·.withValue name v) }

/-- Whether all objects are live that a machine can come to. -/
structure Machine.Closed (m : Machine) : Prop where
  sound : m.heap.Sound
  live : ∀ a, m.Reaches a → m.heap.isLive a = true

/-- What an object refers to after one of its variables was changed, without a new reference. -/
theorem Object.RefersTo.of_update {o : Object} {name : String} {g : Variable → Variable} {b : ObjectId}
    (hvalue : ∀ x, (g x).value = x.value ∨ (g x).value.id? = none) (hlink : ∀ x, (g x).link = x.link)
    (h : (o.update name g).RefersTo b) : o.RefersTo b := by
  unfold Object.update at h
  split at h
  · have hmember : ∀ {y : Variable} {i : Nat}, y ∈ (o.members.modify i g).toList →
        ∃ x ∈ o.members.toList, y = x ∨ y = g x := fun hy => by
      obtain ⟨x, hx, hyx⟩ := Object.of_mem_modify (Array.mem_toList_iff.1 hy)
      exact ⟨x, Array.mem_toList_iff.2 hx, hyx⟩
    cases h with
    | value hy hv =>
      obtain ⟨x, hx, rfl | rfl⟩ := hmember hy
      · exact .value hx hv
      · rcases hvalue x with hsame | hnone
        · exact .value hx (hsame.symm.trans hv)
        · rw [hv] at hnone
          cases hnone
    | receiver hy hv =>
      obtain ⟨x, hx, rfl | rfl⟩ := hmember hy
      · exact .receiver hx hv
      · rcases hvalue x with hsame | hnone
        · exact .receiver hx (hsame.symm.trans hv)
        · rw [hv] at hnone
          cases hnone
    | owner hy hl =>
      obtain ⟨x, hx, rfl | rfl⟩ := hmember hy
      · exact .owner hx hl
      · exact .owner hx ((hlink x).symm.trans hl)
    | target hy hl =>
      obtain ⟨x, hx, rfl | rfl⟩ := hmember hy
      · exact .target hx hl
      · exact .target hx ((hlink x).symm.trans hl)
    | scope hc => exact .scope hc
    | maker hm => exact .maker hm
    | proto hp => exact .proto hp
  · exact h

/-- A machine stays closed when an object is changed without a new reference. -/
theorem Machine.Closed.modify {m : Machine} (h : m.Closed) (a : ObjectId) {f : Object → Object}
    (hf : ∀ o b, (f o).RefersTo b → o.RefersTo b) : { m with heap := m.heap.modify a f }.Closed where
  sound := h.sound.modifySlot _
  live b hb := by
    show (m.heap.modifySlot a _).isLive b = true
    rw [Heap.isLive_modifySlot]
    refine h.live b ?_
    induction hb with
    | intrinsic i bound => exact .intrinsic i bound
    | locals hf => exact .locals hf
    | scope hf => exact .scope hf
    | entry hf hw => exact .entry hf hw
    | arguments hf he => exact .arguments hf he
    | callee hf he => exact .callee hf he
    | this hf he => exact .this hf he
    | result he => exact .result he
    | resultReceiver he => exact .resultReceiver he
    | @pinned c s hs hpins =>
      change (m.heap.modifySlot a _).slot? c = some s at hs
      rw [Heap.slot?_modifySlot] at hs
      split at hs
      · obtain ⟨t, ht, rfl⟩ := Option.map_eq_some_iff.1 hs
        exact .pinned ht hpins
      · exact .pinned hs hpins
    | @field c d o _ ho hr ih =>
      change ((m.heap.modifySlot a _).slot? c).map Slot.object = some o at ho
      rw [Heap.slot?_modifySlot] at ho
      split at ho
      · rw [Option.map_map] at ho
        obtain ⟨t, ht, rfl⟩ := Option.map_eq_some_iff.1 ho
        exact .field ih (by rw [Heap.get?, ht]; rfl) (hf _ _ hr)
      · exact .field ih ho hr

theorem Matching.list_modify_right {α : Type} {V : Matching α} {p : Pairing} {xs ys : List α}
    (h : Matching.list V p xs ys) {g : α → α} {i : Nat}
    (hg : ∀ a b, ys[i]? = some b → V p a b → V p a (g b)) : Matching.list V p xs (ys.modify i g) := by
  induction h generalizing i with
  | nil => cases i <;> exact .nil
  | cons h hs ih =>
    cases i with
    | zero => exact .cons (hg _ _ rfl h) hs
    | succ i => exact .cons h (ih hg)

variable {p : Pairing} {name : String} {x : Variable} {v : Value}

theorem Variable.Matches.withValue {u w : Variable} (h : Variable.Matches p u w) (hhides : p.Hides w)
    (hname : w.name ≠ "prototype") : Variable.Matches p u { w with value := v } := by
  refine { h with value := fun hreveals => absurd (h.name.symm.trans (hreveals ?_)) hname }
  unfold Pairing.Hides
  rw [h.key, h.link.isHook_eq]
  exact hhides

theorem Object.Matches.withValue {o o' : Object} (h : Object.Matches p o o')
    (hx : o'.find? name = some x) (hhides : p.Hides x) (hname : x.name ≠ "prototype") :
    Object.Matches p o (o'.withValue name v) := by
  unfold Object.withValue Object.update
  split
  · rename_i i hi
    rw [Object.find?, Array.find?_eq_bind_findIdx?_getElem?, hi, Option.bind_some] at hx
    refine { h with members := ?_ }
    rw [Array.toList_modify]
    refine Matching.list_modify_right h.members fun u w hw huw => ?_
    rw [Array.getElem?_toList, hx] at hw
    cases hw
    exact huw.withValue hhides hname
  · exact h

/-- Machines match if they only differ in a value that a pairing of equals hides. -/
theorem Machine.Matches.withValue {secret : Nat → Prop} {unlocked : ¬secret 0} {veiled : Prop} {m : Machine}
    {a : ObjectId} (hx : m.heap.own? a name = some x) (hhides : (Pairing.equal secret unlocked veiled).Hides x)
    (hreadable : ¬secret m.key) (hname : name ≠ "prototype") :
    Machine.Matches (.equal secret unlocked veiled) m (m.withValue a name v) := by
  have hsame : Machine.Matches (.equal secret unlocked veiled) m m := .refl m hreadable
  refine { hsame with heap := ?_ }
  rintro b _ rfl
  have hslot := hsame.heap b b rfl
  show Matching.option Slot.Matches _ (m.heap.slot? b) ((m.heap.modify a _).slot? b)
  rw [Heap.modify, Heap.slot?_modifySlot]
  split
  · rename_i hab
    obtain ⟨o, ho, hfind⟩ := Option.bind_eq_some_iff.1 hx
    obtain ⟨s, hs, rfl⟩ := Option.map_eq_some_iff.1 ho
    rw [← hab, hs]
    refine .some ⟨(Object.Matches.refl s.object).withValue hfind hhides ?_, rfl⟩
    rw [Heap.name_of_own? hx]
    exact hname
  · exact hslot

theorem Machine.Matches.renamed {secret : Nat → Prop} {m m' : Machine} (h : Machine.Matches p m m')
    (hsecret : p.secret = secret) (hm : m.Closed) (hm' : m'.Closed) (hshown : shown m.events = shown m'.events) :
    Renamed secret (p.reached m m') m m' :=
  ⟨h.reached (fun _ _ => rfl) fun _ _ => rfl, hsecret, fun a _ h => hm.live a h.2.1, hm.sound, hm'.sound,
    hshown⟩

/-! ## New interpreters -/

/-- A machine with nothing under way is closed if its heap is full. -/
theorem Machine.closed_of_isFull {m : Machine} {size : Nat} (hfull : Realm.isFull m.heap size = true)
    (hsize : 14 < size) (hframes : m.frames = [Frame.outermost Intrinsic.globalObject []])
    (hresult : m.result = .undefined) : m.Closed where
  sound := Realm.sound_of_isFull hfull
  live a ha := by
    refine Realm.isLive_of_isFull hfull ?_
    have hframe : ∀ f ∈ m.frames, f = Frame.outermost Intrinsic.globalObject [] := fun f hf =>
      List.mem_singleton.1 (hframes ▸ hf)
    induction ha with
    | intrinsic i bound => exact Nat.lt_of_le_of_lt bound hsize
    | locals hf => rw [hframe _ hf]; exact hsize
    | scope hf => rw [hframe _ hf]; exact hsize
    | entry hf hw => rw [hframe _ hf] at hw; cases hw
    | arguments hf he => rw [hframe _ hf] at he; cases he
    | callee hf he => rw [hframe _ hf] at he; cases he
    | this hf he => rw [hframe _ hf] at he; cases he; exact hsize
    | result he => rw [hresult] at he; cases he
    | resultReceiver he => rw [hresult] at he; cases he
    | pinned hs _ => exact Realm.size_of_isFull hfull ▸ Heap.lt_size_of_slot? hs
    | field _ ho hr ih =>
      obtain ⟨s, hs, hfields⟩ := Realm.slot_of_isFull hfull ih
      rw [Heap.get?] at ho
      obtain ⟨t, ht, rfl⟩ := Option.map_eq_some_iff.1 ho
      cases hs.symm.trans ht
      exact hfields _ hr.mem_references

theorem Interpreter.initialMachine_closed (config : Config) : (initialMachine config).Closed :=
  Machine.closed_of_isFull Realm.heap_isFull (by decide) rfl rfl

end PageScript
