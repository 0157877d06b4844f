import PageScript.Proofs.Arrays.Hooks

/-! # The length of arrays

The length of an array exceeds all its indices, with one exception: a value that is assigned to `length` is
converted after the old length was read, and indices that the conversion adds are overlooked.
-/

set_option autoImplicit false

namespace PageScript

/-! ## Indices and the length -/

/-- The length in the payload of an object, or else zero. -/
def Object.counter (o : Object) : Nat :=
  match o.payload with
  | .array length => length
  | _ => 0

/-- Whether the length of an object exceeds all its indices. -/
def Object.Tight (o : Object) : Prop :=
  ∀ x ∈ o.members, ∀ i, ArrayIndex.ofName? x.name = some i → i < o.counter

/-- Whether the length of an object exceeds all its indices, if it is live. -/
def Heap.Tight (h : Heap) (a : ObjectId) : Prop := ∀ o, h.get? a = some o → o.Tight

namespace Object

variable {o : Object} {name : String}

theorem Tight.push (h : o.Tight) {x : Variable}
    (hx : ∀ i, ArrayIndex.ofName? x.name = some i → i < o.counter) : (o.push x).Tight := by
  intro y hy i hi
  rcases Array.mem_push.1 hy with hy | rfl
  · exact h y hy i hi
  · exact hx i hi

theorem payload_updateOrPush {f : Variable → Variable} : (o.updateOrPush name f).payload = o.payload := by
  unfold updateOrPush
  split <;> rfl

theorem payload_discard : (o.discard name).payload = o.payload := by
  unfold discard
  split
  · split
    · rfl
    · unfold remove
      split <;> rfl
  · rfl

theorem counter_updateOrPush (f : Variable → Variable) :
    (o.updateOrPush name f).counter = o.counter := by
  rw [counter, counter, payload_updateOrPush]

theorem Tight.store (h : o.Tight) (hname : ∀ i, ArrayIndex.ofName? name = some i → i < o.counter)
    (v : Value) : (o.store name v).Tight := by
  unfold Object.store
  split
  · exact h
  · intro x hx i hi
    rw [counter_updateOrPush]
    rcases of_mem_updateOrPush hx with hx | ⟨y, rfl, hy | rfl⟩
    · exact h x hx i hi
    · exact h y (Array.mem_of_find?_eq_some hy) i hi
    · exact hname i hi

theorem Tight.discard (h : o.Tight) (name : String) : (o.discard name).Tight := by
  intro x hx i hi
  rw [counter, payload_discard]
  exact h x (mem_of_mem_discard hx) i hi

theorem counter_addElement {index length : Nat} (hp : o.payload = .array length) :
    (o.addElement name index).counter = if length ≤ index then index + 1 else length := by
  have hpush : (o.push (.plain name .undefined)).payload = .array length := hp
  simp only [counter, addElement, hpush]

theorem members_addElement (index : Nat) :
    (o.addElement name index).members = o.members.push (.plain name .undefined) := by
  unfold addElement
  dsimp only
  split <;> rfl

theorem Tight.addElement (h : o.Tight) {index length : Nat} (hp : o.payload = .array length)
    (hname : ArrayIndex.ofName? name = some index) : (o.addElement name index).Tight := by
  have hbefore : o.counter = length := by rw [counter, hp]
  intro x hx i hi
  rw [counter_addElement hp]
  rw [members_addElement] at hx
  rcases Array.mem_push.1 hx with hx | rfl
  · have hlt := h x hx i hi
    rw [hbefore] at hlt
    split <;> omega
  · cases hname.symm.trans hi
    split <;> omega

end Object

theorem Heap.get?_modify_self {h : Heap} {a : ObjectId} {f : Object → Object} {o : Object}
    (ho : h.get? a = some o) : (h.modify a f).get? a = some (f o) := by
  obtain ⟨s, hs, rfl⟩ := Option.map_eq_some_iff.1 ho
  rw [modify, get?_modifySlot, if_pos rfl, hs]
  rfl

theorem Heap.Tight.modify {h : Heap} {a : ObjectId} {f : Object → Object} (ht : h.Tight a)
    (hf : ∀ o, h.get? a = some o → o.Tight → (f o).Tight) : (h.modify a f).Tight a := by
  intro o ho
  rw [Heap.modify, get?_modifySlot, if_pos rfl, Option.map_eq_some_iff] at ho
  obtain ⟨s, hs, rfl⟩ := ho
  have hget : h.get? a = some s.object := by rw [get?, hs]; rfl
  exact hf s.object hget (ht s.object hget)

/-! ## Writes of members -/

namespace Script

variable {e : Engine} {m n : Machine} {a : ObjectId} {v w : Value} {name : String}

theorem bind_value {α β : Type} {x : Script α} {f : α → Script β} {r : β}
    (h : (x >>= f) e m = .value r n) : ∃ y k, x e m = .value y k ∧ f y e k = .value r n := by
  change Script.bind x f e m = _ at h
  unfold Script.bind at h
  split at h
  · rename_i y k hx
    exact ⟨y, k, hx, h⟩
  · cases h
  · cases h

theorem raise_ne_value {α : Type} (kind : ErrorKind) (message : String) (r : α) :
    (raise kind message : Script α) e m ≠ .value r n := by
  intro h
  by_cases ht : 0 < m.tryDepth
  · rw [Simulation.raise_inside kind message ht] at h
    obtain ⟨_, _, -, hthrown⟩ := bind_value h
    cases hthrown
  · rw [Simulation.raise_outside kind message (Nat.eq_zero_of_not_pos ht)] at h
    split at h
    · obtain ⟨_, _, -, hstopped⟩ := bind_value h
      cases hstopped
    · cases h

/-- The old length is read before the value is converted, and the new one is set afterwards. -/
theorem writeLength_value (h : writeLength a v e m = .value w n) :
    ∃ k n' length, toNumber v e m = .value k n' ∧
      n = { n' with heap := n'.heap.modify a (·.setLength (arrayLength m a) length) } := by
  obtain ⟨current, _, hread, h⟩ := bind_value h
  cases hread
  obtain ⟨k, n', hk, h⟩ := bind_value h
  cases hlength : lengthOfNumber? k with
  | some length =>
    rw [hlength] at h
    cases h
    exact ⟨k, n', length, hk, rfl⟩
  | none =>
    rw [hlength] at h
    exact absurd h (raise_ne_value _ _ w)

theorem arrayLength_eq {o : Object} (ho : m.heap.get? a = some o) : arrayLength m a = o.counter := by
  rw [arrayLength, ho, Option.map_some, Object.counter]
  cases o.payload <;> rfl

theorem owns_eq {o : Object} (ho : m.heap.get? a = some o) :
    m.heap.owns a name = (o.find? name).isSome := by
  rw [Heap.owns, ho]
  exact Array.isSome_find?.symm

variable {config : Config} {host : Host}

end Script

end PageScript
