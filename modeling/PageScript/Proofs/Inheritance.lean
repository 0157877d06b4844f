import PageScript.Proofs.Arrays.Indices

/-! # Own and inherited properties

The owner of a name is the first object on the chain of prototypes that has it.  The searches that collect
names from a whole chain are told by this search for one name at a time.
-/

set_option autoImplicit false

namespace PageScript.Heap

variable {h : Heap} {a : ObjectId} {name : String} {limit i : Nat}

/-! ## The owner of a name -/

theorem findOwnerFrom_eq (h : Heap) (name : String) (limit : Nat) (start : Option ObjectId) :
    h.findOwnerFrom name limit start
      = ((h.chainFrom limit start).find? fun p => p.2.has name).map Prod.fst := by
  induction limit generalizing start with
  | zero => simp [findOwnerFrom, chainFrom]
  | succ limit ih =>
    cases start with
    | none => simp [findOwnerFrom, chainFrom]
    | some id =>
      unfold findOwnerFrom chainFrom
      cases h.get? id with
      | none => simp
      | some o => cases hhas : o.has name <;> simp [hhas, ih]

theorem findOwner_eq (h : Heap) (a : ObjectId) (name : String) :
    h.findOwner a name = ((h.chain a).find? fun p => p.2.has name).map Prod.fst :=
  h.findOwnerFrom_eq name chainLimit (some a)

theorem hasProperty_iff : h.hasProperty a name = true ↔ ∃ p ∈ h.chain a, name ∈ p.2.names := by
  rw [hasProperty, findOwner_eq, Option.isSome_map, List.find?_isSome]
  simp only [Object.has_iff]

/-- What stands in a chain of prototypes is an object of the heap under its id. -/
theorem get?_of_mem_chainFrom {start : Option ObjectId} {p : ObjectId × Object}
    (hp : p ∈ h.chainFrom limit start) : h.get? p.1 = some p.2 := by
  induction limit generalizing start with
  | zero => simp [chainFrom] at hp
  | succ limit ih =>
    cases start with
    | none => simp [chainFrom] at hp
    | some id =>
      unfold chainFrom at hp
      split at hp
      · rename_i o ho
        rcases List.mem_cons.1 hp with rfl | hp
        · exact ho
        · exact ih hp
      · simp at hp

/-! ## Indices -/

theorem mem_indices_iff (hlimit : limit ≤ ArrayIndex.limit) :
    i ∈ h.indices a limit ↔ i < limit ∧ h.hasProperty a (ArrayIndex.name i) = true := by
  rw [mem_indices, hasProperty_iff]
  refine and_congr_right fun hi => exists_congr fun p => and_congr_right fun _ => ?_
  rw [Object.names, List.mem_map]
  refine exists_congr fun x => and_congr Array.mem_toList_iff.symm ?_
  rw [ArrayIndex.ofName?_eq_some_iff]
  exact and_iff_right (by omega)

/-- The indices that are collected from the names of a whole chain are those that are found when each one is
asked for. -/
theorem indices_eq_filter (h : Heap) (a : ObjectId) (hlimit : limit ≤ ArrayIndex.limit) :
    h.indices a limit = (List.range limit).filter fun i => h.hasProperty a (ArrayIndex.name i) := by
  refine List.Pairwise.eq_of_mem_iff (h.indices_rising a limit) (List.pairwise_lt_range.filter _) ?_
  intro i
  rw [mem_indices_iff hlimit, List.mem_filter, List.mem_range]

end PageScript.Heap
