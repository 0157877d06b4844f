import PageScript.Proofs.Arrays.Spans
import PageScript.Proofs.Composed.Tasks
import PageScript.Proofs.Reads
import PageScript.Proofs.Whole

/-! # Writing elements back

The methods of arrays that change one store the new elements, delete the old ones that are missing among
them, and set the length.  On an array below the limit this always succeeds, and leaves exactly the new
elements, however the old and the new ones overlap.
-/

set_option autoImplicit false

namespace PageScript

namespace Script

variable {e : Engine} {m : Machine} {a : ObjectId} {name : String} {length i : Nat}
  {elements : Nat → Option Value} {v : Value}

/-- Nothing comes after an error. -/
theorem raise_bind {α β : Type} {n : Machine} {kind : ErrorKind} {message : String} {x : Script α}
    (h : x e m = (raise kind message : Script α) e n) (f : α → Script β) :
    (x >>= f) e m = (raise kind message : Script β) e n := by
  obtain ⟨c, k, hraise⟩ := raise_abrupt kind message e n
  rw [hraise] at h ⊢
  show Script.bind x f e m = _
  unfold Script.bind
  rw [h]

/-! ## Single writes -/

theorem writeMember_eq_of_owns (howns : m.heap.owns a name = true) (v : Value) (e : Engine) :
    writeMember a name v e m = (do let _ ← writeVariable ⟨a, name⟩ v; return v : Script Value) e m := by
  show (if m.heap.owns a name = true then _ else _ : Script Value) e m = _
  rw [if_pos howns]
  rfl

theorem owns_eq_isSome : m.heap.owns a name = (m.heap.at? ⟨a, name⟩).isSome := by
  unfold Heap.at? Heap.own?
  dsimp only
  cases ho : m.heap.get? a with
  | none => rw [Heap.owns, ho]; rfl
  | some o => exact owns_eq ho

/-- A write of a plain variable stores the value there. -/
theorem writeVariable_stores {p : Location} {x : Variable} (hx : m.heap.at? (m.heap.resolve p) = some x)
    (hlink : x.link = .plain) (v : Value) (e : Engine) :
    writeVariable p v e m = .value v.unbound { m with
      heap := m.heap.modify (m.heap.resolve p).object (·.store (m.heap.resolve p).name v.unbound) } := by
  have hown : (m.heap.own? (m.heap.resolve p).object (m.heap.resolve p).name).map Variable.link
      = some .plain := by
    rw [show m.heap.own? (m.heap.resolve p).object (m.heap.resolve p).name = some x from hx,
      Option.map_some, hlink]
  rw [Simulation.writeVariable_eq, hown]

/-- A write of a member that comes to a plain variable stores the value there. -/
theorem writeMember_stores {x : Variable} (howns : m.heap.owns a name = true)
    (hx : m.heap.at? (m.heap.resolve ⟨a, name⟩) = some x) (hlink : x.link = .plain) (v : Value) (e : Engine) :
    writeMember a name v e m = .value v { m with
      heap := m.heap.modify (m.heap.resolve ⟨a, name⟩).object
        (·.store (m.heap.resolve ⟨a, name⟩).name v.unbound) } := by
  rw [writeMember_eq_of_owns howns]
  exact bind_of_value (writeVariable_stores hx hlink v e) _

theorem writeMember_stored (hs : m.heap.Spans a length elements) {w : Value} (hi : elements i = some w)
    (v : Value) (e : Engine) :
    writeMember a (ArrayIndex.name i) v e m = .value v { m with
      heap := m.heap.modify (m.heap.cell a i).object (·.store (m.heap.cell a i).name v.unbound) } := by
  obtain ⟨x, hx, hlink, -⟩ := hs.stored i w hi
  exact writeMember_stores (by rw [owns_eq_isSome]; exact (hs.owned_of_some hi).2) hx hlink v e

theorem writeMember_inserted {o : Object} (ho : m.heap.get? a = some o) (ha : o.IsArray a)
    (hi : i < ArrayIndex.limit) (hnew : o.find? (ArrayIndex.name i) = none) (v : Value) (e : Engine) :
    writeMember a (ArrayIndex.name i) v e m
      = .value v { m with heap := m.heap.modify a (·.insertElement i v.unbound) } := by
  have hlive : m.heap.isLive a = true := by
    rw [Heap.get?, Option.map_eq_some_iff] at ho
    obtain ⟨s, hslot, -⟩ := ho
    exact Heap.isLive_of_slot? hslot
  have hoffer : offer .arrayIndex a (ArrayIndex.name i) e m
      = .value true { m with heap := m.heap.modify a (·.addElement (ArrayIndex.name i) i) } := by
    unfold offer
    rw [ArrayIndex.ofName?_name hi]
    show (if (!m.heap.isLive a) = true then _ else _ : Script Bool) e m = _
    rw [hlive, if_neg (by decide)]
    rfl
  -- The hook of the array adds an undefined variable first, which then is written like any other one.
  have hget := Heap.get?_modify_self (f := (·.addElement (ArrayIndex.name i) i)) ho
  have hadded : (m.heap.modify a (·.addElement (ArrayIndex.name i) i)).at? ⟨a, ArrayIndex.name i⟩
      = some (.plain (ArrayIndex.name i) .undefined) := by
    unfold Heap.at? Heap.own?
    rw [hget, Option.bind_some, Object.find?, Object.members_addElement]
    refine (Object.find?_push (.plain (ArrayIndex.name i) .undefined) o _).trans ?_
    rw [hnew, Option.none_or]
    exact if_pos rfl
  have hwrite := writeVariable_stores
    (m := { m with heap := m.heap.modify a (·.addElement (ArrayIndex.name i) i) })
    (p := ⟨a, ArrayIndex.name i⟩) (by rw [Heap.resolve_of_plain hadded rfl]; exact hadded) rfl v e
  rw [Heap.resolve_of_plain hadded rfl] at hwrite
  show (if m.heap.owns a (ArrayIndex.name i) = true then _ else _ : Script Value) e m = _
  rw [owns_eq ho, hnew, Option.isSome_none, if_neg Bool.false_ne_true, bind_read, ho, Option.bind_some,
    ha.additionHook]
  refine (bind_of_value hoffer _).trans ?_
  refine (bind_of_value hwrite _).trans ?_
  show Outcome.value v _ = _
  dsimp only
  rw [Heap.modify_modify]
  rfl

/-- A write at an index puts the value there, and raises the length beyond the index. -/
theorem writeMember_element (hs : m.heap.Spans a length elements) (hi : i < ArrayIndex.limit) (v : Value)
    (e : Engine) : ∃ n, writeMember a (ArrayIndex.name i) v e m = .value v { m with heap := n } ∧
      n.Spans a (max length (i + 1)) (Function.update elements i (some v.unbound)) ∧
      m.heap.Edits a n := by
  cases hv : elements i with
  | some w =>
    obtain ⟨x, hx, hlink, -⟩ := hs.stored i w hv
    refine ⟨_, writeMember_stored hs hv v e, ?_, Heap.edits_store hi hx hlink v.unbound⟩
    rw [Nat.max_eq_left (hs.lt_length hv)]
    exact hs.store hv v
  | none =>
    obtain ⟨o, ho, hsequence⟩ := hs.object
    have hnew : o.find? (ArrayIndex.name i) = none := by
      have hnone := hs.at?_of_none hv hi
      unfold Heap.at? Heap.own? at hnone
      rwa [ho] at hnone
    exact ⟨_, writeMember_inserted ho hsequence.isArray hi hnew v e, hs.insert hv hi v,
      Heap.edits_insertElement hi ho hnew v.unbound⟩

/-- A deletion at an index leaves a hole. -/
theorem deleteMember_element (hs : m.heap.Spans a length elements) (hi : i < ArrayIndex.limit)
    (e : Engine) : ∃ gone n, deleteMember a (ArrayIndex.name i) e m = .value gone { m with heap := n } ∧
      n.Spans a length (Function.update elements i none) ∧ m.heap.Edits a n := by
  obtain ⟨o, ho, hsequence⟩ := hs.object
  have hown : m.heap.own? a (ArrayIndex.name i) = o.find? (ArrayIndex.name i) := by rw [Heap.own?, ho]; rfl
  rw [Simulation.deleteMember_eq, hown]
  cases hx : o.find? (ArrayIndex.name i) with
  | none =>
    have hnone : elements i = none := by
      rw [← Option.not_isSome_iff_eq_none, hs.owned]
      rintro ⟨-, hsome⟩
      unfold Heap.at? at hsome
      rw [hown, hx] at hsome
      cases hsome
    refine ⟨true, m.heap, rfl, ?_, .refl a _⟩
    rw [← hnone, Function.update_eq_self]
    exact hs
  | some x =>
    rw [Option.map_some, hsequence.open_element hi x hx]
    exact ⟨true, _, rfl, hs.discard hi, Heap.edits_discard hi ho hsequence⟩

/-! ## The length -/

theorem arrayLength_of_spans (hs : m.heap.Spans a length elements) : arrayLength m a = length := by
  obtain ⟨o, ho, hsequence⟩ := hs.object
  rw [arrayLength_eq ho, Object.counter, hsequence.payload]

theorem length_link (ha : m.heap.HasArray a) :
    ∃ x, m.heap.at? ⟨a, "length"⟩ = some x ∧ x.link = .hook .arrayLength a := by
  obtain ⟨o, ho, harray⟩ := ha
  obtain ⟨x, hx, hlink, -⟩ := harray.length
  refine ⟨x, ?_, hlink⟩
  unfold Heap.at? Heap.own?
  rw [ho]
  exact hx

theorem resolve_length (ha : m.heap.HasArray a) : m.heap.resolve ⟨a, "length"⟩ = ⟨a, "length"⟩ := by
  obtain ⟨x, hx, hlink⟩ := length_link ha
  refine Heap.resolve_of_end fun b name h => ?_
  rw [hx, Option.map_some, hlink] at h
  cases h

/-- A write of a number to the length of an array goes to its counter. -/
theorem writeMember_length_eq (ha : m.heap.HasArray a) (k : Number) (e : Engine) :
    writeMember a "length" (.number k) e m
      = (do let _ ← writeLength a (.number k); return .number k : Script Value) e m := by
  obtain ⟨x, hx, hlink⟩ := length_link ha
  have hown : (m.heap.own? a "length").map Variable.link = some (.hook .arrayLength a) := by
    rw [show m.heap.own? a "length" = some x from hx, Option.map_some, hlink]
  have hwrite : writeVariable ⟨a, "length"⟩ (.number k) e m = writeLength a (.number k) e m := by
    rw [Simulation.writeVariable_eq, resolve_length ha, hown]
    rfl
  rw [writeMember_eq_of_owns (by rw [owns_eq_isSome, hx]; rfl)]
  exact bind_congr_left hwrite _

theorem writeLength_number (k : Number) (e : Engine) :
    writeLength a (.number k) e m
      = match lengthOfNumber? k with
        | some new => .value (.ofNat new)
            { m with heap := m.heap.modify a (·.setLength (arrayLength m a) new) }
        | none => (raise .range "invalid array length" : Script Value) e m := by
  show (match lengthOfNumber? k with
    | some length => (do
        modifyObject a (·.setLength (arrayLength m a) length)
        return .ofNat length : Script Value)
    | none => raise .range "invalid array length") e m = _
  cases lengthOfNumber? k <;> rfl

/-- A length below the limit is set. -/
theorem writeMember_length_lt (ha : m.heap.HasArray a) {new : Nat} (hnew : new < ArrayIndex.limit)
    (e : Engine) : writeMember a "length" (.ofNat new) e m = .value (.ofNat new)
      { m with heap := m.heap.modify a (·.setLength (arrayLength m a) new) } := by
  have hlength : lengthOfNumber? (.ofNat new) = some new := by
    rw [lengthOfNumber?_ofNat (by unfold ArrayIndex.limit at hnew; omega), if_pos hnew]
  have hset := writeLength_number (a := a) (m := m) (.ofNat new) e
  rw [hlength] at hset
  unfold Value.ofNat
  rw [writeMember_length_eq ha]
  exact bind_of_value hset _

/-- The limit itself is refused as a length. -/
theorem writeMember_length_limit (ha : m.heap.HasArray a) (e : Engine) :
    writeMember a "length" (.ofNat ArrayIndex.limit) e m
      = (raise .range "invalid array length" : Script Value) e m := by
  have hlength : lengthOfNumber? (.ofNat ArrayIndex.limit) = none := by
    rw [lengthOfNumber?_ofNat (by decide), if_neg (Nat.lt_irrefl _)]
  have hrefused := writeLength_number (a := a) (m := m) (.ofNat ArrayIndex.limit) e
  rw [hlength] at hrefused
  unfold Value.ofNat
  rw [writeMember_length_eq ha]
  exact raise_bind hrefused _

/-- A length below the limit drops what lies beyond it. -/
theorem writeMember_setLength (hs : m.heap.Spans a length elements) (new : Nat)
    (hnew : new < ArrayIndex.limit) (e : Engine) :
    ∃ n, writeMember a "length" (.ofNat new) e m = .value (.ofNat new) { m with heap := n } ∧
      n.Spans a new (fun i => if i < new then elements i else none) ∧ m.heap.Edits a n := by
  obtain ⟨o, ho, hsequence⟩ := hs.object
  have hset := writeMember_length_lt (a := a) (m := m) ⟨o, ho, hsequence.isArray⟩ hnew e
  rw [arrayLength_of_spans hs] at hset
  exact ⟨_, hset, hs.setLength new, Heap.edits_setLength ho length new⟩

end Script

end PageScript
