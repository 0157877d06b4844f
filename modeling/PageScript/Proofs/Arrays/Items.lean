import PageScript.Proofs.Arrays.Writes

/-! # Arrays as lists with holes

`Heap.Lists` describes an array by a list: a value for each index that has an element, and nothing for a
hole.  The elements that a method reads are then those of the list, and what it writes back is the list that
it has made of them.
-/

set_option autoImplicit false

namespace PageScript

/-! ## Elements of a list -/

namespace Elements

/-- The values of a list with holes, at their indices from a base on. -/
def presentFrom : Nat → List (Option Value) → List (Nat × Value)
  | _, [] => []
  | base, none :: rest => presentFrom (base + 1) rest
  | base, some v :: rest => (base, v) :: presentFrom (base + 1) rest

/-- The elements of a list with holes. -/
def ofItems (items : List (Option Value)) : Elements := ⟨items.length, presentFrom 0 items⟩

variable {base i : Nat} {items others : List (Option Value)} {v : Value}

theorem presentFrom_append (base : Nat) (items others : List (Option Value)) :
    presentFrom base (items ++ others) = presentFrom base items ++ presentFrom (base + items.length) others := by
  induction items generalizing base with
  | nil => rfl
  | cons item items ih =>
    have hbase : base + (item :: items).length = base + 1 + items.length := by
      rw [List.length_cons]
      omega
    cases item with
    | none => rw [List.cons_append, presentFrom, presentFrom, ih, hbase]
    | some v => rw [List.cons_append, presentFrom, presentFrom, ih, hbase, List.cons_append]

theorem mem_presentFrom :
    (i, v) ∈ presentFrom base items ↔ base ≤ i ∧ items[i - base]? = some (some v) := by
  induction items generalizing base with
  | nil => simp [presentFrom]
  | cons item items ih =>
    have hstep : base ≤ i → i ≠ base → (item :: items)[i - base]? = items[i - (base + 1)]? := by
      intro hle hne
      rw [show i - base = i - (base + 1) + 1 by omega, List.getElem?_cons_succ]
    cases item with
    | none =>
      rw [presentFrom, ih]
      by_cases hi : i = base
      · subst hi
        simp
      · refine ⟨fun h => ⟨by omega, by rw [hstep (by omega) hi]; exact h.2⟩, fun h => ⟨by omega, ?_⟩⟩
        rw [← hstep h.1 hi]
        exact h.2
    | some w =>
      rw [presentFrom, List.mem_cons, ih]
      by_cases hi : i = base
      · subst hi
        simp [eq_comm]
      · refine ⟨fun h => ?_, fun h => .inr ⟨by omega, ?_⟩⟩
        · rcases h with h | h
          · exact absurd (congrArg Prod.fst h) hi
          · exact ⟨by omega, by rw [hstep (by omega) hi]; exact h.2⟩
        · rw [← hstep h.1 hi]
          exact h.2

theorem mem_indices_presentFrom :
    i ∈ (presentFrom 0 items).map Prod.fst ↔ (items[i]?.join).isSome = true := by
  rw [List.mem_map]
  constructor
  · rintro ⟨⟨j, v⟩, hmem, rfl⟩
    have hj := (mem_presentFrom.1 hmem).2
    rw [Nat.sub_zero] at hj
    dsimp only
    rw [hj]
    rfl
  · intro hsome
    obtain ⟨v, hv⟩ := Option.isSome_iff_exists.1 hsome
    exact ⟨(i, v), mem_presentFrom.2 ⟨Nat.zero_le i, Option.join_eq_some_iff.1 hv⟩, rfl⟩

theorem le_of_mem_presentFrom {x : Nat × Value} (hx : x ∈ presentFrom base items) :
    base ≤ x.1 ∧ x.1 < base + items.length := by
  obtain ⟨hle, hsome⟩ := mem_presentFrom.1 (show (x.1, x.2) ∈ presentFrom base items from hx)
  have hlt := (List.getElem?_eq_some_iff.1 hsome).1
  exact ⟨hle, by omega⟩

theorem presentFrom_rising (base : Nat) (items : List (Option Value)) :
    ((presentFrom base items).map Prod.fst).Pairwise (· < ·) := by
  induction items generalizing base with
  | nil => exact .nil
  | cons item items ih =>
    cases item with
    | none => exact ih _
    | some v =>
      rw [presentFrom, List.map_cons, List.pairwise_cons]
      refine ⟨fun i hi => ?_, ih _⟩
      obtain ⟨x, hx, rfl⟩ := List.mem_map.1 hi
      exact (le_of_mem_presentFrom hx).1

/-- Elements may be numbered from another base on. -/
theorem map_presentFrom (start base : Nat) (items : List (Option Value)) :
    (presentFrom start items).map (fun x => (x.1 - start + base, x.2)) = presentFrom base items := by
  induction items generalizing start base with
  | nil => rfl
  | cons item items ih =>
    have hrest : (presentFrom (start + 1) items).map (fun x => (x.1 - start + base, x.2))
        = presentFrom (base + 1) items := by
      rw [← ih (start + 1) (base + 1)]
      refine List.map_congr_left fun x hx => ?_
      have hle := (le_of_mem_presentFrom hx).1
      rw [show x.1 - start + base = x.1 - (start + 1) + (base + 1) by omega]
    cases item with
    | none => exact hrest
    | some v => rw [presentFrom, presentFrom, List.map_cons, hrest, Nat.sub_self, Nat.zero_add]

/-- A part of the elements of a list is that part of the list. -/
theorem moved_presentFrom (items : List (Option Value)) (length start stop base : Nat) :
    (⟨length, presentFrom 0 items⟩ : Elements).moved start stop base
      = presentFrom base ((items.take stop).drop start) := by
  let pick (x : Nat × Value) : Option (Nat × Value) :=
    if start ≤ x.1 && x.1 < stop then some (x.1 - start + base, x.2) else none
  have hnone : ∀ x : Nat × Value, ¬(start ≤ x.1 ∧ x.1 < stop) → pick x = none := by
    intro x hx
    refine if_neg fun h => hx ?_
    rwa [Bool.and_eq_true, decide_eq_true_eq, decide_eq_true_eq] at h
  have hsome : ∀ x : Nat × Value, start ≤ x.1 → x.1 < stop → pick x = some (x.1 - start + base, x.2) := by
    intro x hle hlt
    exact if_pos (by rw [Bool.and_eq_true, decide_eq_true_eq, decide_eq_true_eq]; exact ⟨hle, hlt⟩)
  -- The list in three parts: before the start, up to the stop, and behind it.
  have hparts : items = (items.take stop).take start ++ (items.take stop).drop start ++ items.drop stop := by
    rw [List.take_append_drop, List.take_append_drop]
  have hbefore : (presentFrom 0 ((items.take stop).take start)).filterMap pick = [] := by
    refine List.filterMap_eq_nil_iff.2 fun x hx => hnone x fun h => ?_
    have hlt := (le_of_mem_presentFrom hx).2
    rw [List.length_take] at hlt
    omega
  have hmiddle : (presentFrom (0 + ((items.take stop).take start).length) ((items.take stop).drop start)).filterMap
      pick = presentFrom base ((items.take stop).drop start) := by
    by_cases hstart : start < (items.take stop).length
    · rw [List.length_take_of_le (Nat.le_of_lt hstart), Nat.zero_add, ← map_presentFrom start base,
        ← List.filterMap_eq_map]
      refine List.filterMap_congr fun x hx => hsome x (le_of_mem_presentFrom hx).1 ?_
      have hlt := (le_of_mem_presentFrom hx).2
      rw [List.length_drop] at hlt
      rw [List.length_take] at hlt hstart
      omega
    · rw [List.drop_of_length_le (Nat.not_lt.1 hstart)]
      rfl
  have hbehind : (presentFrom (0 + ((items.take stop).take start ++ (items.take stop).drop start).length)
      (items.drop stop)).filterMap pick = [] := by
    refine List.filterMap_eq_nil_iff.2 fun x hx => hnone x fun h => ?_
    obtain ⟨hle, hlt⟩ := le_of_mem_presentFrom hx
    rw [List.take_append_drop, List.length_take] at hle hlt
    rw [List.length_drop] at hlt
    omega
  show (presentFrom 0 items).filterMap pick = _
  conv_lhs => rw [hparts]
  rw [presentFrom_append, presentFrom_append, List.filterMap_append, List.filterMap_append, hbefore, hmiddle,
    hbehind, List.nil_append, List.append_nil]

theorem ofItems_moved (items : List (Option Value)) (start stop base : Nat) :
    (ofItems items).moved start stop base = presentFrom base ((items.take stop).drop start) :=
  moved_presentFrom items _ start stop base

/-- The elements of a list in reverse order are those of the reversed list. -/
theorem ofItems_reverse (items : List (Option Value)) : (ofItems items).reverse = ofItems items.reverse := by
  have hturned : ∀ (items : List (Option Value)) (length : Nat), items.length ≤ length →
      (presentFrom (length - items.length) items).reverse.map (fun x => (length - 1 - x.1, x.2))
        = presentFrom 0 items.reverse := by
    intro items
    induction items with
    | nil => exact fun _ _ => rfl
    | cons item items ih =>
      intro length hle
      rw [List.length_cons] at hle
      have hbase : length - (item :: items).length + 1 = length - items.length := by
        rw [List.length_cons]
        omega
      rw [List.reverse_cons, presentFrom_append, ← ih length (by omega), List.length_reverse, Nat.zero_add]
      cases item with
      | none => rw [presentFrom, hbase, presentFrom, presentFrom, List.append_nil]
      | some v =>
        rw [presentFrom, hbase, List.reverse_cons, List.map_append, presentFrom, presentFrom]
        rw [List.map_singleton, List.length_cons]
        dsimp only
        rw [show length - 1 - (length - (items.length + 1)) = items.length by omega]
  have h := hturned items items.length (Nat.le_refl _)
  rw [Nat.sub_self] at h
  unfold reverse ofItems
  rw [List.length_reverse, ← h]

/-- Values without gaps are a list without holes. -/
theorem map_zipIdx (values : List Value) (base : Nat) :
    (values.zipIdx.map fun (v, i) => (base + i, v)) = presentFrom base (values.map some) := by
  induction values generalizing base with
  | nil => rfl
  | cons v values ih =>
    rw [List.zipIdx_cons, List.map_cons, List.map_cons, presentFrom, Nat.add_zero]
    refine congrArg ((base, v) :: ·) ?_
    rw [← ih (base + 1), List.zipIdx_succ, List.map_map]
    refine List.map_congr_left fun x _ => ?_
    show (base + (x.2 + 1), x.1) = (base + 1 + x.2, x.1)
    rw [show base + (x.2 + 1) = base + 1 + x.2 by omega]

/-- Holes at the end are only seen in the length. -/
theorem presentFrom_append_holes (base : Nat) (items : List (Option Value)) (holes : Nat) :
    presentFrom base (items ++ List.replicate holes none) = presentFrom base items := by
  rw [presentFrom_append]
  have hnil : ∀ base, presentFrom base (List.replicate holes none) = [] := by
    induction holes with
    | zero => exact fun _ => rfl
    | succ holes ih => exact fun base => ih (base + 1)
  rw [hnil, List.append_nil]

theorem packed_eq (length : Nat) (values : List Value) (hle : values.length ≤ length) :
    packed length values
      = ofItems (values.map some ++ List.replicate (length - values.length) none) := by
  have h := map_zipIdx values 0
  unfold packed ofItems
  rw [List.length_append, List.length_map, List.length_replicate, Nat.add_sub_cancel' hle,
    presentFrom_append_holes, ← h]
  simp only [Nat.zero_add]

end Elements

end PageScript
