import Mathlib.Data.List.Permutation
import Mathlib.Data.List.ReduceOption
import Mathlib.Data.List.Sort
import PageScript.Proofs.Arrays.Comparisons
import PageScript.Proofs.Arrays.WriteBack

/-! # Sorting an array

Whatever a comparison function answers, an array that is sorted gets its elements back in another order, with
`undefined` behind all others and the holes at the end.  Answers that go by an order lead to a stable sort by
that order.  Nothing is written before the last answer, so a comparison that fails leaves the array as it was.
-/

set_option autoImplicit false

namespace PageScript

/-- The value that a computation gives, if it gives one. -/
def Outcome.value? {α : Type} : Outcome α → Option α
  | .value v _ => some v
  | _ => none

theorem Outcome.value?_eq_some {α : Type} {o : Outcome α} {v : α} (h : o.value? = some v) : ∃ m, o = .value v m := by
  cases o with
  | value w m =>
    cases h
    exact ⟨m, rfl⟩
  | abrupt => cases h
  | exhausted => cases h

namespace Script

variable {e : Engine} {m n k j : Machine} {a : ObjectId} {items : List (Option Value)} {args : List Value}
  {comparator : Option Value} {x y v : Value} {order : Ordering}

/-! ## Comparisons of elements -/

/-- Nothing is greater than `undefined`, and it is greater than anything else. -/
theorem elementOrder_undefined (h : elementOrder comparator x y e k = .value order j) :
    (y.isUndefined = true → (order == .gt) = false) ∧
      (x.isUndefined = true → y.isUndefined = false → (order == .gt) = true) := by
  unfold elementOrder at h
  cases hx : x.isUndefined <;> cases hy : y.isUndefined <;> rw [hx, hy] at h
  · exact ⟨nofun, nofun⟩
  · cases h
    exact ⟨fun _ => rfl, nofun⟩
  · cases h
    exact ⟨nofun, fun _ _ => rfl⟩
  · cases h
    exact ⟨fun _ => rfl, nofun⟩

/-- Whether a comparison is asked when the elements of a list are sorted. -/
def SortAsks (comparator : Option Value) (items : List (Option Value)) (e : Engine) (m : Machine)
    (x y : Value) (k : Machine) : Prop :=
  Decision.Asks (elementOrder comparator) e (Decision.sort items.reduceOption) m x y k

/-- Whether the answers to the comparisons of a sort go by an order of the values that are not undefined. -/
def SortsBy (le : Value → Value → Bool) (comparator : Option Value) (items : List (Option Value))
    (e : Engine) (m : Machine) : Prop :=
  ∀ x y k order j, SortAsks comparator items e m x y k → elementOrder comparator x y e k = .value order j →
    x.isUndefined = false → y.isUndefined = false → (order = .gt ↔ le x y = false)

theorem values_presentFrom (base : Nat) (items : List (Option Value)) :
    (Elements.presentFrom base items).map Prod.snd = items.reduceOption := by
  induction items generalizing base with
  | nil => rfl
  | cons item items ih =>
    cases item with
    | none => exact ih _
    | some v => exact congrArg (v :: ·) (ih _)

/-! ## What is sorted -/

/-- The sort of an array, once its comparator is known to be a function. -/
def sortElements (id : ObjectId) (comparator : Option Value) : Script Value := do
  let old ← readElements id
  let sorted ← sortValues comparator (old.present.map Prod.snd)
  writeElements id old (.packed old.length sorted)
  return .ref id

theorem sort_eq (a : ObjectId) (args : List Value) :
    sort a args = match given? args 0 with
      | some f => do
        if (← callable? f).isNone then typeError "sort comparator must be a function"
        sortElements a (some f)
      | none => sortElements a none := by
  unfold sort
  cases given? args 0 <;> rfl

theorem sortElements_of_sort (h : sort a args e m = .value v n) :
    sortElements a (given? args 0) e m = .value v n := by
  rw [sort_eq] at h
  cases hf : given? args 0 with
  | none =>
    rw [hf] at h
    exact h
  | some f =>
    rw [hf] at h
    obtain ⟨id, k, hid, h⟩ := bind_value h
    obtain rfl : k = m := by cases hid; rfl
    cases id with
    | some id => exact h
    | none =>
      obtain ⟨u, k, hraise, -⟩ := bind_value h
      exact absurd hraise (raise_ne_value _ _ u)

theorem sort_eq_sortElements (hcallable : ∀ f, given? args 0 = some f → callable? f e m ≠ .value none m) :
    sort a args e m = sortElements a (given? args 0) e m := by
  rw [sort_eq]
  cases hf : given? args 0 with
  | none => rfl
  | some f =>
    obtain ⟨id, hid⟩ : ∃ id, callable? f e m = .value id m := ⟨_, rfl⟩
    refine (bind_of_value hid _).trans ?_
    cases id with
    | some id => rfl
    | none => exact absurd hid (hcallable f hf)

/-- A sort that completes has followed the comparisons of its elements, and has written these back. -/
theorem sortElements_value (hs : m.heap.Lists a items) (hbare : m.heap.Bare a)
    (hlength : items.length ≤ ArrayIndex.limit) (h : sortElements a comparator e m = .value v n) :
    v = .ref a ∧ ∃ sorted k,
      (Decision.sort items.reduceOption).follow (elementOrder comparator) e m = .value sorted k ∧
      writeElements a (.ofItems items) (.packed items.length sorted) e k = .value () n := by
  obtain ⟨old, k, hread, hrest⟩ := bind_value h
  obtain ⟨rfl, rfl⟩ := (readElements_looks hs hbare hlength).only old k hread
  obtain ⟨sorted, k, hsort, hrest⟩ := bind_value hrest
  obtain ⟨u, j, hwrite, hrest⟩ := bind_value hrest
  cases hrest
  refine ⟨rfl, sorted, k, ?_, hwrite⟩
  rw [← Decision.follow_sort, ← values_presentFrom 0]
  exact hsort

/-- A comparison that fails ends the sort. -/
theorem sortElements_abrupt (hs : m.heap.Lists a items) (hbare : m.heap.Bare a) (hshows : m.Shows a)
    (hlength : items.length ≤ ArrayIndex.limit) {c : Abrupt} (hasked : SortAsks comparator items e m x y k)
    (hc : elementOrder comparator x y e k = .abrupt c j) : sortElements a comparator e m = .abrupt c j := by
  have hsort : sortValues comparator ((Elements.ofItems items).present.map Prod.snd) e m = .abrupt c j := by
    rw [show (Elements.ofItems items).present.map Prod.snd = items.reduceOption from values_presentFrom 0 items,
      Decision.follow_sort]
    exact hasked.abrupt hc
  refine (bind_of_value ((readElements_looks hs hbare hlength).yields hshows) _).trans ?_
  show Script.bind (sortValues _ _) _ e m = _
  unfold Script.bind
  rw [hsort]

/-! ## Orders with `undefined` at the end -/

/-- An order of values with `undefined` behind all others. -/
def UndefinedLast (le : Value → Value → Bool) (x y : Value) : Prop :=
  y.isUndefined = true ∨ (x.isUndefined = false ∧ le x y = true)

/-- Whether answers put `undefined` behind all other values. -/
def PutsUndefinedLast (answers : Value → Value → Bool → Prop) : Prop :=
  ∀ x y greater, answers x y greater → (y.isUndefined = true → greater = false) ∧
    (x.isUndefined = true → y.isUndefined = false → greater = true)

section

variable {le : Value → Value → Bool} {answers : Value → Value → Bool → Prop} {values sorted : List Value} {z : Value}

theorem PutsUndefinedLast.defined (h : PutsUndefinedLast answers) (hanswer : answers x y true) :
    y.isUndefined = false := by
  cases hy : y.isUndefined with
  | false => rfl
  | true => cases (h x y true hanswer).1 hy

theorem PutsUndefinedLast.undefined (h : PutsUndefinedLast answers) (hanswer : answers x y false)
    (hx : x.isUndefined = true) : y.isUndefined = true := by
  cases hy : y.isUndefined with
  | true => rfl
  | false => cases (h x y false hanswer).2 hx hy

/-- Sorting puts `undefined` behind all other values. -/
theorem sort_undefined (h : PutsUndefinedLast answers)
    (hreaches : Decision.Reaches answers (Decision.sort values) sorted) :
    sorted.Pairwise fun x y => x.isUndefined = true → y.isUndefined = true := by
  refine Decision.sort_ordered (fun x y z hxy hyz hx => hyz (hxy hx)) (fun x y hanswer hy => ?_)
    (fun x y hanswer => h.undefined hanswer) hreaches
  rw [h.defined hanswer] at hy
  cases hy

theorem UndefinedLast.trans (htrans : ∀ x y z, le x y = true → le y z = true → le x z = true)
    (hxy : UndefinedLast le x y) (hyz : UndefinedLast le y z) : UndefinedLast le x z := by
  rcases hyz with hz | ⟨hy, hyz⟩
  · exact .inl hz
  · rcases hxy with hxy | ⟨hx, hxy⟩
    · rw [hy] at hxy
      cases hxy
    · exact .inr ⟨hx, htrans x y z hxy hyz⟩

theorem UndefinedLast.le_of_defined (h : UndefinedLast le x y) (hy : y.isUndefined = false) :
    x.isUndefined = false ∧ le x y = true := by
  refine h.resolve_left fun hundefined => ?_
  rw [hy] at hundefined
  cases hundefined

/-- Sorting orders values by an order that the answers go by, and keeps those that are equal as they stand. -/
theorem sorted_by (htotal : ∀ x y, le x y = true ∨ le y x = true)
    (htrans : ∀ x y z, le x y = true → le y z = true → le x z = true) (hundefined : PutsUndefinedLast answers)
    (hdefined : ∀ x y greater, answers x y greater → x.isUndefined = false → y.isUndefined = false →
      (greater = true ↔ le x y = false))
    (h : Decision.Reaches answers (Decision.sort values) sorted) :
    (sorted.filter fun x => !x.isUndefined).Pairwise (fun x y => le x y = true) ∧
      ∀ z, (sorted.filter fun x => !x.isUndefined && le x z && le z x)
        = values.filter fun x => !x.isUndefined && le x z && le z x := by
  have hgreater : ∀ x y, answers x y true → UndefinedLast le y x := by
    intro x y hanswer
    have hy := hundefined.defined hanswer
    cases hx : x.isUndefined with
    | true => exact .inl hx
    | false =>
      have hle := (hdefined x y true hanswer hx hy).1 rfl
      exact .inr ⟨hy, (htotal x y).resolve_left (by rw [hle]; exact Bool.false_ne_true)⟩
  have hless : ∀ x y, answers x y false → UndefinedLast le x y := by
    intro x y hanswer
    cases hy : y.isUndefined with
    | true => exact .inl hy
    | false =>
      cases hx : x.isUndefined with
      | true =>
        rw [hundefined.undefined hanswer hx] at hy
        cases hy
      | false => exact .inr ⟨hx, Bool.not_eq_false _ ▸ mt (hdefined x y false hanswer hx hy).2 Bool.false_ne_true⟩
  have hordered : sorted.Pairwise (UndefinedLast le) :=
    Decision.sort_ordered (fun _ _ _ => .trans htrans) hgreater hless h
  refine ⟨?_, fun z => Decision.sort_stable (fun _ _ _ => .trans htrans) hgreater hless
    (fun x y w hx hw hxy hyw => ?_) (fun x y hx hy hanswer => ?_) h⟩
  · rw [List.pairwise_filter]
    exact hordered.imp fun {x y} hxy _ hy => (hxy.le_of_defined (Bool.not_eq_true' _ ▸ hy)).2
  -- What stands between two values that are equal to the given one is equal to it too.
  · simp only [Bool.and_eq_true, Bool.not_eq_true'] at hx hw ⊢
    obtain ⟨hy, hyw⟩ := hyw.le_of_defined hw.1.1
    exact ⟨⟨hy, htrans y w z hyw hw.1.2⟩, htrans z x y hx.2 (hxy.le_of_defined hy).2⟩
  · simp only [Bool.and_eq_true, Bool.not_eq_true'] at hx hy
    have hle := (hdefined x y true hanswer hx.1.1 hy.1.1).1 rfl
    rw [htrans x z y hx.1.2 hy.2] at hle
    cases hle

end

/-- A list of an array has no values with a receiver of their own, in whatever order they are put. -/
theorem unbound_sorted {sorted : List Value} (hs : m.heap.Lists a items) (hperm : sorted.Perm items.reduceOption)
    (count : Nat) : Elements.unbound (sorted.map some ++ List.replicate count none)
      = sorted.map some ++ List.replicate count none := by
  have hvalue : ∀ v ∈ sorted, v.unbound = v := by
    intro v hv
    have hitem : some v ∈ items := List.reduceOption_mem_iff.1 (hperm.mem_iff.1 hv)
    rw [← hs.unbound] at hitem
    obtain ⟨_ | w, -, hw⟩ := List.mem_map.1 hitem
    · cases hw
    · cases hw
      cases w <;> rfl
  rw [Elements.unbound, List.map_append, List.map_map, List.map_replicate]
  exact congrArg (· ++ _) (List.map_congr_left fun v hv => congrArg some (hvalue v hv))

/-! ## The whole sort -/

/-- Sorting an array without inherited indices, whose elements stand in plain variables of which no two are
the same, by comparisons that leave it alone.  If the sort completes, the elements stand at the lowest indices
in another order, `undefined` behind all others, and the length is what it was; by consistent answers it is a
stable sort.  If a comparison fails, so does the sort, and the array is as before. -/
theorem sort_lists (m : Machine) (a : ObjectId) (items : List (Option Value)) (r : Option ObjectId)
    (args : List Value) (e : Engine)
    (hs : m.heap.Lists a items) (hbare : m.heap.Bare a) (hlength : items.length ≤ ArrayIndex.limit)
    (hkeeps : ∀ x y k, SortAsks (given? args 0) items e m x y k → k.heap.Lists a items →
      (elementOrder (given? args 0) x y e k).machine.heap.Lists a items) :
    (∀ v n, applyArray .sort (.object a r) args e m = .value v n → v = .ref a ∧ ∃ sorted : List Value,
      n.heap.Lists a (sorted.map some ++ List.replicate (items.length - sorted.length) none) ∧
      sorted.length ≤ items.length ∧ sorted.Perm items.reduceOption ∧
      sorted.Pairwise (fun x y => x.isUndefined = true → y.isUndefined = true) ∧
      ∀ le : Value → Value → Bool, (∀ x y, le x y = true ∨ le y x = true) →
        (∀ x y z, le x y = true → le y z = true → le x z = true) → SortsBy le (given? args 0) items e m →
        (sorted.filter fun x => !x.isUndefined).Pairwise (fun x y => le x y = true) ∧
        ∀ z, (sorted.filter fun x => !x.isUndefined && le x z && le z x)
          = items.reduceOption.filter fun x => !x.isUndefined && le x z && le z x) ∧
    (m.Shows a → (∀ f, given? args 0 = some f → callable? f e m ≠ .value none m) → ∀ x y k c j,
      SortAsks (given? args 0) items e m x y k → elementOrder (given? args 0) x y e k = .abrupt c j →
      applyArray .sort (.object a r) args e m = .abrupt c j ∧ j.heap.Lists a items) := by
  have hsort : applyArray .sort (.object a r) args e m = sort a args e m := rfl
  rw [hsort]
  refine ⟨fun v n h => ?_, fun hshows hcallable x y k c j hasked hc => ⟨?_, ?_⟩⟩
  · obtain ⟨rfl, sorted, k, hfollow, hwrite⟩ :=
      sortElements_value hs hbare hlength (sortElements_of_sort h)
    have hk : k.heap.Lists a items :=
      Decision.follow_keeps (P := fun k => k.heap.Lists a items) hfollow hs hkeeps
    have hreaches := Decision.reaches_of_follow (fun x y greater => ∃ k order j,
      SortAsks (given? args 0) items e m x y k ∧ elementOrder (given? args 0) x y e k = .value order j ∧
        greater = (order == .gt)) hfollow fun x y k order j hasked ho => ⟨k, order, j, hasked, ho, rfl⟩
    have hundefined : PutsUndefinedLast fun x y greater => ∃ k order j,
        SortAsks (given? args 0) items e m x y k ∧ elementOrder (given? args 0) x y e k = .value order j ∧
          greater = (order == .gt) := by
      rintro x y _ ⟨k, order, j, -, ho, rfl⟩
      exact elementOrder_undefined ho
    have hperm : sorted.Perm items.reduceOption := Decision.sort_perm hreaches
    have hle : sorted.length ≤ items.length := hperm.length_eq ▸ List.reduceOption_length_le items
    let new : List (Option Value) := sorted.map some ++ List.replicate (items.length - sorted.length) none
    have hnewLength : new.length = items.length := by
      rw [List.length_append, List.length_map, List.length_replicate, Nat.add_sub_cancel' hle]
    rw [Elements.packed_eq _ _ hle] at hwrite
    have hlimit := lt_of_writeElements hk new (hnewLength ▸ hlength) hwrite
    obtain ⟨r, hdone, hlists, -⟩ := writeElements_lists hk new hlimit e
    -- The write is the one that was made, so what it leaves is what the sort leaves.
    cases hdone.symm.trans hwrite
    refine ⟨rfl, sorted, unbound_sorted hs hperm _ ▸ hlists, hle, hperm, sort_undefined hundefined hreaches,
      fun le htotal htrans hby => sorted_by htotal htrans hundefined ?_ hreaches⟩
    rintro x y _ ⟨k, order, j, hasked, ho, rfl⟩ hx hy
    rw [beq_iff_eq]
    exact hby x y k order j hasked ho hx hy
  · rw [sort_eq_sortElements hcallable]
    exact sortElements_abrupt hs hbare hshows hlength hasked hc
  · have hk : k.heap.Lists a items :=
      Decision.Asks.keeps (P := fun k => k.heap.Lists a items) hasked hs hkeeps
    have hj := hkeeps x y k hasked hk
    rwa [hc] at hj

/-- Two texts with a hole behind them are sorted by the order of texts. -/
theorem sort_lists_texts :
    let items : List (Option Value) := [some (.string "b"), some (.string "a"), none]
    let m : Machine :=
      { (Interpreter.fresh {} (Stock.host (Stock.scripted none [] [])) []).machine with
        heap := ⟨#[some ⟨.ofItems none ⟨0⟩ items, 0⟩], [], 0⟩ }
    ∀ e, m.heap.Lists ⟨0⟩ items ∧ m.heap.Bare ⟨0⟩ ∧
      (∀ x y k, SortAsks none items e m x y k → k.heap.Lists ⟨0⟩ items →
        (elementOrder none x y e k).machine.heap.Lists ⟨0⟩ items) ∧
      ∃ n, applyArray .sort (.ref ⟨0⟩) [] e m = .value (.ref ⟨0⟩) n ∧
        n.heap.Lists ⟨0⟩ [some (.string "a"), some (.string "b"), none] := by
  intro items m e
  have hproto : (Object.ofItems none ⟨0⟩ items).proto = none :=
    Object.proto_of_makeup ((Object.pushElements_makeup _ _).trans (Object.makeArray_makeup _ _ _))
  have hbare : m.heap.Bare ⟨0⟩ := by
    intro p hp
    rw [Heap.chain_eq (h := m.heap) (a := ⟨0⟩) rfl, List.tail_cons, hproto] at hp
    exact (List.not_mem_nil hp).elim
  have ha : m.Holds ⟨0⟩ items := .of_ofItems (m := m) rfl rfl hbare (by decide)
  have htree : Decision.sort items.reduceOption = .asks (.string "b") (.string "a") fun greater =>
      .settled (if greater then [.string "a", .string "b"] else [.string "b", .string "a"]) := by
    show Decision.sort [.string "b", .string "a"] = _
    simp only [Decision.sort, Decision.bind, Decision.merge, List.length_cons, List.length_nil, List.take_succ_cons,
      List.take_zero, List.drop_succ_cons, List.drop_zero]
    refine congrArg (Decision.asks _ _) (funext fun greater => ?_)
    cases greater <;> rfl
  have hanswer : elementOrder none (.string "b") (.string "a") e m = .value .gt m := rfl
  have hasks : ∀ x y k, SortAsks none items e m x y k → x = .string "b" ∧ y = .string "a" ∧ k = m := by
    intro x y k hasked
    unfold SortAsks at hasked
    rw [htree] at hasked
    rcases hasked with _ | ⟨-, _ | _⟩
    exact ⟨rfl, rfl, rfl⟩
  have hkeeps : ∀ x y k, SortAsks none items e m x y k → k.heap.Lists ⟨0⟩ items →
      (elementOrder none x y e k).machine.heap.Lists ⟨0⟩ items := by
    intro x y k hasked hk
    obtain ⟨rfl, rfl, rfl⟩ := hasks x y k hasked
    rw [hanswer]
    exact hk
  refine ⟨ha.lists, hbare, hkeeps, ?_⟩
  obtain ⟨n, hdone⟩ : ∃ n, applyArray .sort (.ref ⟨0⟩) [] e m = .value (.ref ⟨0⟩) n := by
    have hread := (readElements_looks (e := e) ha.lists ha.bare (Nat.le_of_lt ha.length_lt)).yields ha.shows
    have hfollow : sortValues none ((Elements.ofItems items).present.map Prod.snd) e m
        = .value [.string "a", .string "b"] m := by
      rw [Decision.follow_sort, show (Elements.ofItems items).present.map Prod.snd = items.reduceOption from rfl, htree]
      exact (bind_of_value hanswer _).trans rfl
    obtain ⟨n, hwrite, -⟩ := writeElements_lists ha.lists
      [some (.string "a"), some (.string "b"), none] (by decide) e
    refine ⟨_, (bind_of_value hread _).trans ((bind_of_value hfollow _).trans (bind_of_value hwrite _))⟩
  have hsorted := (sort_lists m ⟨0⟩ items none [] e ha.lists hbare (by decide) hkeeps).1 _ n hdone
  obtain ⟨-, sorted, hlists, -, hperm, -, hby⟩ := hsorted
  -- The order of the two texts, in which the first one is the least of all values.
  let rank : Value → Nat := fun v => if v.text = "a" then 0 else 1
  have hpairwise := (hby (fun x y => decide (rank x ≤ rank y)) (fun x y => ?_) (fun x y z => ?_) ?_).1
  · have hcases : sorted ∈ [[.string "b", .string "a"], [.string "a", .string "b"]] :=
      List.mem_permutations'.2 hperm
    rcases hcases with _ | ⟨_, _ | ⟨_, hcases⟩⟩
    · exact absurd (of_decide_eq_true (List.rel_of_pairwise_cons hpairwise (.head _))) (by decide)
    · exact ⟨n, hdone, hlists⟩
    · cases hcases
  · simp only [decide_eq_true_eq]
    omega
  · simp only [decide_eq_true_eq]
    omega
  · intro x y k order j hasked ho _ _
    obtain ⟨rfl, rfl, rfl⟩ := hasks x y k hasked
    cases hanswer.symm.trans ho
    exact iff_of_true rfl (by decide)

/-- Makes the `arguments` object of a function with certain parameters. -/
def callWith (parameters : List String) (args : List Value) : Script ObjectId := do
  let locals ← alloc (.empty (some Intrinsic.globalObject))
  let arguments ← newArguments Intrinsic.function locals parameters args
  modifyObject locals fun o => Object.addArguments arguments (Object.putParameters parameters args o)
  return arguments

/-- Where two elements are one variable, as those of two parameters of the same name are, a sort of texts
writes the greatest one over another one that then is lost. -/
theorem sort_shared_variable :
    let observed : Script (Bool × Bool × List String × List String) := do
      let a ← callWith ["x", "y", "x"] [.string "a", .string "b", .string "c"]
      let bare ← read fun m => (m.heap.chain a).tail.all fun p => p.2.members.all fun x =>
        (ArrayIndex.ofName? x.name).isNone
      let array ← isArray (.ref a)
      let before ← readElements a
      let _ ← applyArray .sort (.ref a) []
      let after ← readElements a
      return (bare, array, before.present.map fun x => x.2.text, after.present.map fun x => x.2.text)
    let e : Engine := .upTo {} (Stock.printer (Stock.scripted none [] [])) 100
    (∀ s t k, elementOrder none (.string s) (.string t) e k = .value (textOrder s t) k) ∧
      (∃ n, observed e (Interpreter.initialMachine {}) = .value (true, true, ["c", "b", "c"], ["c", "c", "c"]) n) ∧
      ¬["c", "c", "c"].Perm ["c", "b", "c"] := by
  intro observed e
  refine ⟨fun s t k => rfl, ?_, by decide⟩
  have hindices : Heap.indices = fun h id limit => (((h.chain id).flatMap fun p =>
      p.2.members.toList.filterMap fun v => (ArrayIndex.ofName? v.name).filter (· < limit)).insertionSort
        (· ≤ ·)).eraseReps := by
    funext h id limit
    unfold Heap.indices
    rw [← List.mergeSort_eq_insertionSort]
  have hresult : (observed e (Interpreter.initialMachine {})).value?
      = some (true, true, ["c", "b", "c"], ["c", "c", "c"]) := by
    simp only [observed, applyArray, sort, readElements, hindices]
    decide +kernel
  exact Outcome.value?_eq_some hresult

end Script

end PageScript
