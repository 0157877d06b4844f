import PageScript.Proofs.Arrays.WriteBack

/-! # The methods of arrays as operations on lists

An array whose elements are plain variables of its own, and which inherits no indices, is a list with holes.
The methods that add, remove, move or copy elements do on it what the operations of lists do, and leave
everything else as it was.
-/

set_option autoImplicit false

namespace PageScript

/-! ## What a method makes of a heap -/

namespace Heap

/-- Whether a heap is another one with the elements of a list for those of an array, and nothing else of an
object that was there changed. -/
structure Turns (h : Heap) (a : ObjectId) (items : List (Option Value)) (n : Heap) : Prop where
  lists : n.Lists a items
  direct : n.Direct a
  rest : ∀ c o, h.get? c = some o → ∃ o', n.get? c = some o' ∧ o'.bare = o.bare ∧ (c ≠ a → o' = o)

/-- Whether a heap is another one with a new array of the elements of a list. -/
structure Gains (h : Heap) (b : ObjectId) (items : List (Option Value)) (n : Heap) : Prop where
  fresh : h.get? b = none
  lists : n.Lists b items
  direct : n.Direct b

variable {h n k : Heap} {a b c : ObjectId} {items : List (Option Value)} {i : Nat} {name : String}

theorem get?_modify_ne (hc : c ≠ a) (f : Object → Object) : (h.modify a f).get? c = h.get? c := by
  rw [modify, get?_modifySlot, if_neg (Ne.symm hc)]

theorem Within.turns (hn : h.Within a n) (hlists : n.Lists a items) (hdirect : n.Direct a) :
    h.Turns a items n := by
  obtain ⟨f, rfl, hf⟩ := hn
  refine ⟨hlists, hdirect, fun c o ho => ?_⟩
  by_cases hc : c = a
  · subst hc
    exact ⟨f o, get?_modify_self ho, hf o, fun hne => absurd rfl hne⟩
  · exact ⟨o, (get?_modify_ne hc f).trans ho, rfl, fun _ => rfl⟩

theorem Within.sound (hn : h.Within a n) (hs : h.Sound) : n.Sound := by
  obtain ⟨f, rfl, -⟩ := hn
  exact hs.modifySlot _

/-- An array with plain elements of its own stays the same as long as its object does. -/
theorem Lists.of_same (hs : h.Lists a items) (hd : h.Direct a) (hsame : n.get? a = h.get? a) :
    n.Lists a items ∧ n.Direct a := by
  have hat : ∀ i, n.at? ⟨a, ArrayIndex.name i⟩ = h.at? ⟨a, ArrayIndex.name i⟩ := by
    intro i
    unfold at? own?
    rw [hsame]
  have hdirect : n.Direct a := fun i x hi hx => hd i x hi (by rw [← hat]; exact hx)
  have hcell : ∀ i, i < ArrayIndex.limit → n.cell a i = h.cell a i := by
    intro i hi
    rw [hdirect.cell hi, hd.cell hi]
  refine ⟨⟨?_, fun i => ?_, fun i v hv => ?_, fun i j hi hj heq => ?_⟩, hdirect⟩
  · rw [hsame]
    exact hs.object
  · rw [hat]
    exact hs.owned i
  · have hi := (hs.owned_of_some hv).1
    rw [hcell i hi, hd.cell hi, hat, ← hd.cell hi]
    exact hs.stored i v hv
  · rw [hcell i (hs.lt_limit hi), hcell j (hs.lt_limit hj)] at heq
    exact hs.apart i j hi hj heq

theorem ne_of_fresh {o : Object} (hfresh : h.get? b = none) (ho : h.get? c = some o) : c ≠ b := by
  rintro rfl
  rw [hfresh] at ho
  cases ho

/-- A new array leaves another one as it is. -/
theorem Turns.gain (ht : h.Turns a items n) (hfresh : n.get? b = none)
    (hrest : ∀ c, c ≠ b → k.get? c = n.get? c) : h.Turns a items k := by
  have hlive : ∀ c o, n.get? c = some o → k.get? c = some o := by
    intro c o ho
    rw [hrest c (ne_of_fresh hfresh ho), ho]
  obtain ⟨o, ho, -⟩ := ht.lists.object
  obtain ⟨hlists, hdirect⟩ := ht.lists.of_same ht.direct ((hlive a o ho).trans ho.symm)
  refine ⟨hlists, hdirect, fun c o ho => ?_⟩
  obtain ⟨o', ho', hsame⟩ := ht.rest c o ho
  exact ⟨o', hlive c o' ho', hsame⟩

/-- A name that no object of a chain has is found nowhere on it. -/
theorem findOwnerFrom_eq_none {limit : Nat} {start : Option ObjectId}
    (hnone : ∀ p ∈ h.chainFrom limit start, p.2.has name = false) :
    h.findOwnerFrom name limit start = none := by
  induction limit generalizing start with
  | zero => rfl
  | succ limit ih =>
    cases start with
    | none => rfl
    | some id =>
      unfold chainFrom at hnone
      unfold findOwnerFrom
      cases ho : h.get? id with
      | none => rfl
      | some o =>
        rw [ho] at hnone
        dsimp only
        rw [hnone _ (.head _), if_neg Bool.false_ne_true]
        exact ih fun p hp => hnone p (.tail _ hp)

end Heap

namespace Elements

variable {i : Nat} {items others inserted : List (Option Value)} {args : List Value}

theorem ofItems_at?_zero (items : List (Option Value)) : (ofItems items).at? 0 = items.head?.join := by
  cases items with
  | nil => rfl
  | cons item items =>
    cases item with
    | some v => rfl
    | none =>
      have hnone : (presentFrom 1 items).find? (fun x => x.1 == 0) = none := by
        refine List.find?_eq_none.2 fun x hx h => ?_
        have := (le_of_mem_presentFrom hx).1
        rw [beq_iff_eq] at h
        omega
      show ((presentFrom 1 items).find? fun x => x.1 == 0).map Prod.snd = none
      rw [hnone]
      rfl

theorem ofItems_append (items others : List (Option Value)) :
    (⟨items.length + others.length, presentFrom 0 items ++ presentFrom items.length others⟩ : Elements)
      = ofItems (items ++ others) := by
  unfold ofItems
  rw [presentFrom_append, List.length_append, Nat.zero_add]

/-- Elements moved apart, with values between them, are those of the list with a part of it replaced. -/
theorem ofItems_splice {start count : Nat} (hstart : start ≤ items.length) (hcount : count ≤ items.length - start)
    (values : List Value) :
    (⟨items.length - count + values.length,
      (ofItems items).moved 0 start 0 ++ values.zipIdx.map (fun (v, i) => (start + i, v)) ++
        (ofItems items).moved (start + count) items.length (start + values.length)⟩ : Elements)
      = ofItems (items.take start ++ values.map some ++ items.drop (start + count)) := by
  have htaken : (items.take start).length = start := List.length_take_of_le hstart
  have hlength : (items.take start ++ values.map some ++ items.drop (start + count)).length
      = items.length - count + values.length := by
    rw [List.length_append, List.length_append, htaken, List.length_map, List.length_drop]
    omega
  rw [ofItems_moved, ofItems_moved, List.take_length, List.drop_zero, map_zipIdx, ofItems, hlength,
    presentFrom_append, presentFrom_append, List.length_append, htaken, List.length_map, Nat.zero_add, Nat.zero_add]

theorem unbound_append (items others : List (Option Value)) :
    unbound (items ++ others) = unbound items ++ unbound others := List.map_append

end Elements

/-! ## Arguments -/

namespace Position

theorem clamp_le (p : Position) (length : Nat) : p.clamp length ≤ length := by
  rcases p with _ | i | _
  · exact Nat.zero_le _
  · exact Nat.min_le_right _ _
  · exact Nat.le_refl _

theorem fromEnd_le (p : Position) (length : Nat) : p.fromEnd length ≤ length := by
  rcases p with _ | i | _
  · exact Nat.zero_le _
  · show (if i < 0 then (length + i).toNat else min i.toNat length) ≤ length
    split
    · omega
    · exact Nat.min_le_right _ _
  · exact Nat.le_refl _

end Position

namespace Script

/-- Whether an argument is missing or a number. -/
def Numeric (args : List Value) (i : Nat) : Prop := ∀ v, args[i]? = some v → ∃ k, v = .number k

/-- The index that a number names, counted from the end if it is negative. -/
def namedIndex (args : List Value) (i length default : Nat) : Nat :=
  match args[i]? with
  | some (.number k) => (Position.ofNumber k).fromEnd length
  | _ => default

/-- The count that a number names, at most as many as there are. -/
def namedCount (args : List Value) (i most : Nat) : Nat :=
  match args[i]? with
  | some (.number k) => (Position.ofNumber k).clamp most
  | _ => most

/-- Whether joining a value to a list adds certain elements: those of an array, or the value itself. -/
def Adds (m : Machine) (v : Value) (items : List (Option Value)) : Prop :=
  (∃ b r, v = .object b r ∧ m.Holds b items) ∨
  ((∀ b o length, v.id? = some b → m.heap.get? b = some o → o.payload ≠ .array length) ∧
    items = [some v.unbound])

variable {e : Engine} {m : Machine} {a : ObjectId} {items : List (Option Value)} {args : List Value}
  {i length default most : Nat} {v : Value}

theorem namedIndex_le (args : List Value) (i : Nat) (hdefault : default ≤ length) :
    namedIndex args i length default ≤ length := by
  unfold namedIndex
  split
  · exact Position.fromEnd_le _ _
  · exact hdefault

theorem namedCount_le (args : List Value) (i most : Nat) : namedCount args i most ≤ most := by
  unfold namedCount
  split
  · exact Position.clamp_le _ _
  · exact Nat.le_refl _

theorem positionFromEnd_eq (hargs : Numeric args i) (length default : Nat) (e : Engine) (m : Machine) :
    positionFromEnd args i length default e m = .value (namedIndex args i length default) m := by
  unfold positionFromEnd namedIndex given?
  cases hv : args[i]? with
  | none => rfl
  | some v =>
    obtain ⟨k, rfl⟩ := hargs v hv
    rfl

/-- What reads a count from an argument goes on with the one that the argument names. -/
theorem count_eq (hargs : Numeric args i) (most : Nat) (rest : Nat → Script Value) (e : Engine) (m : Machine) :
    (match args[i]? with
      | none => do
        let count ← pure most
        rest count
      | some v => do
        let position ← toPosition v
        let count ← pure (position.clamp most)
        rest count : Script Value) e m = rest (namedCount args i most) e m := by
  unfold namedCount
  cases hv : args[i]? with
  | none => rfl
  | some v =>
    obtain ⟨k, rfl⟩ := hargs v hv
    rfl

/-! ## Reading -/

/-- An element that is missing in an array without inherited indices is undefined. -/
theorem readMember_hole (hs : m.heap.Lists a items) (hbare : m.heap.Bare a) (hi : items[i]?.join = none)
    (hlt : i < ArrayIndex.limit) (e : Engine) :
    readMember (.ref a) (ArrayIndex.name i) e m = .value .undefined m := by
  obtain ⟨o, ho, -⟩ := hs.object
  have hnone : m.heap.findOwner a (ArrayIndex.name i) = none := by
    refine Heap.findOwnerFrom_eq_none fun p hp => ?_
    have hchain : p ∈ m.heap.chain a := hp
    rw [Object.has, Array.any_eq_false']
    rw [Heap.chain_eq ho] at hchain
    rcases List.mem_cons.1 hchain with rfl | htail
    · have hfind := hs.at?_of_none hi hlt
      unfold Heap.at? Heap.own? at hfind
      rw [ho] at hfind
      exact fun x hx => Array.find?_eq_none.1 hfind x hx
    · intro x hx hname
      have hindex := hbare p (by rw [Heap.chain_eq ho]; exact htail) x hx
      rw [beq_iff_eq.1 hname, ArrayIndex.ofName?_name hlt] at hindex
      cases hindex
  have hprototype : (ArrayIndex.name i == "prototype") = false := by
    rw [beq_eq_false_iff_ne]
    intro h
    exact absurd (ArrayIndex.isDigit_of_mem_name (i := i) (c := 'p') (h ▸ by decide)) (by decide)
  show readObjectMember a (ArrayIndex.name i) e m = _
  unfold readObjectMember
  rw [bind_read, hnone]
  dsimp only
  rw [hprototype, if_neg Bool.false_ne_true]
  rfl

/-- An element of a list is read as its value, a hole as undefined. -/
theorem readMember_item (ha : m.Holds a items) (hlt : i < ArrayIndex.limit) (e : Engine) :
    ∃ w, readMember (.ref a) (ArrayIndex.name i) e m = .value w m ∧
      w.unbound = (items[i]?.join).getD .undefined := by
  cases hv : items[i]?.join with
  | none => exact ⟨.undefined, readMember_hole ha.lists ha.bare hv hlt e, rfl⟩
  | some v =>
    obtain ⟨w, hw, hunbound⟩ := readMember_element (e := e) ha.lists hv
    exact ⟨w, hw.yields ha.shows, hunbound⟩

theorem readElements_holds (ha : m.Holds a items) (e : Engine) :
    readElements a e m = .value (.ofItems items) m :=
  (readElements_looks ha.lists ha.bare (Nat.le_of_lt ha.length_lt)).yields ha.shows

theorem lengthOf_holds (ha : m.Holds a items) (e : Engine) : lengthOf a e m = .value items.length m :=
  (lengthOf_looks ha.lists (Nat.le_of_lt ha.length_lt)).yields ha.shows

/-- What is written back turns the array into the list of it. -/
theorem writeElements_turns (ha : m.Holds a items) (new : List (Option Value))
    (hnew : new.length < ArrayIndex.limit) (e : Engine) :
    ∃ n, writeElements a (.ofItems items) (.ofItems new) e m = .value () { m with heap := n } ∧
      m.heap.Turns a (Elements.unbound new) n ∧ (m.heap.Sound → n.Sound) := by
  obtain ⟨n, hwrite, hlists, hedits⟩ := writeElements_lists ha.lists new hnew e
  obtain ⟨hdirect, hwithin⟩ := hedits ha.direct
  exact ⟨n, hwrite, hwithin.turns hlists hdirect, hwithin.sound⟩

/-! ## Ends of an array -/

theorem push_lists (ha : m.Holds a items) (hlength : items.length + args.length < ArrayIndex.limit)
    (e : Engine) :
    ∃ n, push a args e m = .value (.ofNat (items.length + args.length)) { m with heap := n } ∧
      m.heap.Turns a (items ++ args.map fun v => some v.unbound) n := by
  have hindices : ∀ x ∈ Elements.presentFrom items.length (args.map some), x.1 < ArrayIndex.limit := by
    intro x hx
    have := (Elements.le_of_mem_presentFrom hx).2
    rw [List.length_map] at this
    omega
  obtain ⟨n, length', hwrites, hspans, hedits⟩ := writes_spans ha.lists _ hindices e
  obtain ⟨k, hset, hlast, hmore⟩ := writeMember_setLength (m := { m with heap := n }) hspans _ hlength e
  obtain ⟨hdirect, hwithin⟩ := (hedits.trans hmore) ha.direct
  refine ⟨k, ?_, hwithin.turns (.of_spans hlast ?_ fun i => ?_) hdirect⟩
  · rw [← Elements.map_zipIdx, fold_map] at hwrites
    refine (bind_of_value (lengthOf_holds ha e) _).trans ?_
    exact (bind_of_value hwrites _).trans hset
  · rw [List.length_append, List.length_map]
  · have hvalues : args.map (fun v => some v.unbound) = Elements.unbound (args.map some) := by
      rw [Elements.unbound, List.map_map]
      rfl
    rw [Elements.overwrite_presentFrom, hvalues]
    unfold Elements.itemFrom Elements.unbound
    by_cases hi : i < items.length
    · rw [if_pos (by omega), if_neg (by omega), List.getElem?_append_left hi]
      rfl
    · rw [List.getElem?_append_right (by omega), List.getElem?_map, if_pos (Nat.not_lt.1 hi),
        List.getElem?_eq_none (Nat.not_lt.1 hi), List.getElem?_map]
      by_cases hlt : i < items.length + args.length
      · rw [if_pos hlt, List.getElem?_map, List.getElem?_eq_getElem (by omega)]
        rfl
      · rw [if_neg hlt, List.getElem?_eq_none (by rw [List.length_map]; omega)]
        rfl

theorem pop_lists (ha : m.Holds a items) (e : Engine) :
    ∃ n, pop a e m = .value (items.getLast?.join.getD .undefined) { m with heap := n } ∧
      m.heap.Turns a items.dropLast n := by
  have hlength := lengthOf_holds ha e
  cases hcount : items.length with
  | zero =>
    obtain rfl := List.length_eq_zero_iff.1 hcount
    obtain ⟨n, hset, hspans, hedits⟩ := writeMember_setLength ha.lists 0 (by decide) e
    obtain ⟨hdirect, hwithin⟩ := hedits ha.direct
    refine ⟨n, ?_, hwithin.turns (.of_spans hspans rfl fun i => ?_) hdirect⟩
    · exact (bind_of_value hlength _).trans (bind_of_value hset _)
    · exact ite_self _
  | succ length =>
    have hlt : length < ArrayIndex.limit := by
      have := ha.length_lt
      omega
    obtain ⟨w, hread, hunbound⟩ := readMember_item ha hlt e
    obtain ⟨gone, n, hdelete, hspans, hedits⟩ := deleteMember_element ha.lists hlt e
    obtain ⟨k, hset, hlast, hmore⟩ := writeMember_setLength (m := { m with heap := n }) hspans _ hlt e
    obtain ⟨hdirect, hwithin⟩ := (hedits.trans hmore) ha.direct
    refine ⟨k, ?_, hwithin.turns (.of_spans hlast ?_ fun i => ?_) hdirect⟩
    · rw [hcount] at hlength
      refine (bind_of_value hlength _).trans ?_
      refine (bind_of_value hread _).trans ?_
      refine (bind_of_value hdelete _).trans ?_
      refine (bind_of_value hset _).trans ?_
      rw [List.getLast?_eq_getElem?, hcount]
      exact congrArg (Outcome.value · _) hunbound
    · rw [List.length_dropLast, hcount, Nat.add_sub_cancel]
    · rw [List.getElem?_dropLast, hcount, Nat.add_sub_cancel]
      by_cases hi : i < length
      · rw [if_pos hi, if_pos hi, Function.update_of_ne (by omega)]
      · rw [if_neg hi, if_neg hi]
        rfl

theorem shift_lists (ha : m.Holds a items) (e : Engine) :
    ∃ n, shift a e m = .value (items.head?.join.getD .undefined) { m with heap := n } ∧
      m.heap.Turns a items.tail n := by
  have hread := readElements_holds ha e
  cases items with
  | nil =>
    obtain ⟨n, hset, hspans, hedits⟩ := writeMember_setLength ha.lists 0 (by decide) e
    obtain ⟨hdirect, hwithin⟩ := hedits ha.direct
    refine ⟨n, ?_, hwithin.turns (.of_spans hspans rfl fun i => ?_) hdirect⟩
    · exact (bind_of_value hread _).trans (bind_of_value hset _)
    · exact ite_self _
  | cons item items =>
    have hnew : (⟨(Elements.ofItems (item :: items)).length - 1,
        (Elements.ofItems (item :: items)).moved 1 (Elements.ofItems (item :: items)).length 0⟩ : Elements)
          = .ofItems items := by
      rw [Elements.ofItems_moved, show (Elements.ofItems (item :: items)).length = (item :: items).length from rfl,
        List.take_length]
      rfl
    obtain ⟨n, hwrite, hturns, -⟩ := writeElements_turns ha items
      (Nat.lt_of_succ_lt ha.length_lt) e
    have hunbound : Elements.unbound items = items := (List.cons.inj ha.lists.unbound).2
    refine ⟨n, ?_, hunbound ▸ hturns⟩
    refine (bind_of_value hread _).trans ?_
    show (do
      writeElements a (.ofItems (item :: items)) ⟨(Elements.ofItems (item :: items)).length - 1,
        (Elements.ofItems (item :: items)).moved 1 (Elements.ofItems (item :: items)).length 0⟩
      return ((Elements.ofItems (item :: items)).at? 0).getD .undefined : Script Value) e m = _
    rw [hnew, Elements.ofItems_at?_zero]
    exact bind_of_value hwrite _

theorem unshift_lists (ha : m.Holds a items) (hlength : items.length + args.length < ArrayIndex.limit)
    (e : Engine) :
    ∃ n, unshift a args e m = .value (.ofNat (items.length + args.length)) { m with heap := n } ∧
      m.heap.Turns a (args.map (fun v => some v.unbound) ++ items) n := by
  have hnew : (⟨items.length + args.length, (Elements.packed args.length args).present ++
      (Elements.ofItems items).moved 0 items.length args.length⟩ : Elements)
        = .ofItems (args.map some ++ items) := by
    rw [Elements.packed_eq args.length args (Nat.le_refl _), Nat.sub_self, Elements.ofItems_moved,
      List.take_length, List.replicate_zero, List.append_nil, ← Elements.ofItems_append, List.length_map,
      Nat.add_comm]
    rfl
  obtain ⟨n, hwrite, hturns, -⟩ := writeElements_turns ha (args.map some ++ items)
    (by rw [List.length_append, List.length_map]; omega) e
  have hunbound : Elements.unbound (args.map some ++ items) = args.map (fun v => some v.unbound) ++ items := by
    rw [Elements.unbound_append, ha.lists.unbound, Elements.unbound, List.map_map]
    rfl
  refine ⟨n, ?_, hunbound ▸ hturns⟩
  refine (bind_of_value (readElements_holds ha e) _).trans ?_
  rw [← hnew] at hwrite
  exact bind_of_value hwrite _

theorem reverse_lists (ha : m.Holds a items) (e : Engine) :
    ∃ n, (do
        let old ← readElements a
        writeElements a old old.reverse
        return .ref a : Script Value) e m = .value (.ref a) { m with heap := n } ∧
      m.heap.Turns a items.reverse n := by
  obtain ⟨n, hwrite, hturns, -⟩ := writeElements_turns ha items.reverse
    (by rw [List.length_reverse]; exact ha.length_lt) e
  have hunbound : Elements.unbound items.reverse = items.reverse := by
    rw [Elements.unbound, List.map_reverse]
    exact congrArg List.reverse ha.lists.unbound
  refine ⟨n, ?_, hunbound ▸ hturns⟩
  refine (bind_of_value (readElements_holds ha e) _).trans ?_
  rw [Elements.ofItems_reverse]
  exact bind_of_value hwrite _

/-! ## Parts of an array -/

theorem unbound_part (hs : m.heap.Lists a items) (start count : Nat) :
    Elements.unbound ((items.drop start).take count) = (items.drop start).take count := by
  rw [Elements.unbound, List.map_take, List.map_drop]
  exact congrArg (fun items => (items.drop start).take count) hs.unbound

theorem splice_lists (hm : m.heap.Sound) (ha : m.Holds a items) (hstart : Numeric args 0)
    (hcount : Numeric args 1) {start count : Nat} (hs : start = namedIndex args 0 items.length 0)
    (hc : count = namedCount args 1 (items.length - start))
    (hlength : items.length - count + (args.drop 2).length < ArrayIndex.limit) (e : Engine) :
    ∃ b n, splice a args e m = .value (.ref b) { m with heap := n } ∧
      m.heap.Turns a
        (items.take start ++ (args.drop 2).map (fun v => some v.unbound) ++ items.drop (start + count)) n ∧
      m.heap.Gains b ((items.drop start).take count) n := by
  have hle : start ≤ items.length := hs ▸ namedIndex_le args 0 (Nat.zero_le _)
  have hmost : count ≤ items.length - start := hc ▸ namedCount_le args 1 _
  generalize hinserted : args.drop 2 = inserted at hlength ⊢
  -- The removed elements are read before the write, so the new array is made of the old list.
  let new := items.take start ++ inserted.map some ++ items.drop (start + count)
  have hnew := Elements.ofItems_splice hle hmost inserted
  have hnewLength : new.length = items.length - count + inserted.length := (congrArg Elements.length hnew).symm
  have hremoved : (⟨count, (Elements.ofItems items).moved start (start + count) 0⟩ : Elements)
      = .ofItems ((items.drop start).take count) := by
    rw [Elements.ofItems_moved, List.drop_take, Nat.add_sub_cancel_left, Elements.ofItems,
      List.length_take_of_le (by rw [List.length_drop]; exact hmost)]
  obtain ⟨k, hwrite, hturns, hsound⟩ := writeElements_turns ha new (by rw [hnewLength]; exact hlength) e
  obtain ⟨b, n, hmake, hfresh, hrest, hlists, hdirect⟩ := arrayOfElements_lists (m := { m with heap := k })
    (hsound hm) ((items.drop start).take count)
    (by have := ha.length_lt; rw [List.length_take, List.length_drop]; omega) e
  have hunbound : Elements.unbound new
      = items.take start ++ inserted.map (fun v => some v.unbound) ++ items.drop (start + count) := by
    rw [Elements.unbound_append, Elements.unbound_append]
    have hbefore : Elements.unbound (items.take start) = items.take start := by
      rw [Elements.unbound, List.map_take]
      exact congrArg (List.take start) ha.lists.unbound
    have hbehind : Elements.unbound (items.drop (start + count)) = items.drop (start + count) := by
      rw [Elements.unbound, List.map_drop]
      exact congrArg (List.drop (start + count)) ha.lists.unbound
    rw [hbefore, hbehind, Elements.unbound, List.map_map]
    rfl
  refine ⟨b, n, ?_, hunbound ▸ hturns.gain hfresh hrest, ?_⟩
  · refine (bind_of_value (readElements_holds ha e) _).trans ?_
    refine (bind_of_value (positionFromEnd_eq hstart _ 0 e m) _).trans ?_
    rw [show (Elements.ofItems items).length = items.length from rfl, ← hs]
    refine (count_eq hcount _ _ e m).trans ?_
    rw [hinserted, ← hc]
    dsimp only
    rw [hnew, hremoved]
    exact (bind_of_value hwrite _).trans (bind_of_value hmake _)
  · refine ⟨?_, unbound_part ha.lists start count ▸ hlists, hdirect⟩
    cases ho : m.heap.get? b with
    | none => rfl
    | some o =>
      obtain ⟨o', ho', -⟩ := hturns.rest b o ho
      rw [hfresh] at ho'
      cases ho'

theorem slice_lists (hm : m.heap.Sound) (ha : m.Holds a items) (hstart : Numeric args 0)
    (hstop : Numeric args 1) {start stop : Nat} (hs : start = namedIndex args 0 items.length 0)
    (ht : stop = namedIndex args 1 items.length items.length) (e : Engine) :
    ∃ b n, slice a args e m = .value (.ref b) { m with heap := n } ∧
      (∀ c o, m.heap.get? c = some o → n.get? c = some o) ∧
      m.heap.Gains b ((items.drop start).take (stop - start)) n := by
  have hle : stop ≤ items.length := ht ▸ namedIndex_le args 1 (Nat.le_refl _)
  have hpart : (⟨max stop start - start, (Elements.ofItems items).moved start (max stop start) 0⟩ : Elements)
      = .ofItems ((items.drop start).take (stop - start)) := by
    rw [Elements.ofItems_moved, List.drop_take, show max stop start - start = stop - start by omega,
      Elements.ofItems, List.length_take, List.length_drop, Nat.min_eq_left (by omega)]
  obtain ⟨b, n, hmake, hfresh, hrest, hlists, hdirect⟩ := arrayOfElements_lists hm
    ((items.drop start).take (stop - start))
    (by have := ha.length_lt; rw [List.length_take, List.length_drop]; omega) e
  refine ⟨b, n, ?_, fun c o ho => ?_, hfresh, unbound_part ha.lists _ _ ▸ hlists, hdirect⟩
  · refine (bind_of_value (readElements_holds ha e) _).trans ?_
    refine (bind_of_value (positionFromEnd_eq hstart _ 0 e m) _).trans ?_
    refine (bind_of_value (positionFromEnd_eq hstop _ _ e m) _).trans ?_
    rw [show (Elements.ofItems items).length = items.length from rfl, ← hs, ← ht, hpart]
    exact bind_of_value hmake _
  · rw [hrest c (Heap.ne_of_fresh hfresh ho), ho]

/-- A value is an array if its payload says so. -/
theorem isArray_eq (v : Value) (e : Engine) (m : Machine) :
    isArray v e m = match (v.id?.bind m.heap.get?).map Object.payload with
      | some (.array _) => .value true m
      | _ => .value false m := by
  have hread : payload? v e m = .value ((v.id?.bind m.heap.get?).map Object.payload) m := rfl
  unfold isArray
  refine (bind_of_value hread _).trans ?_
  rcases (v.id?.bind m.heap.get?).map Object.payload with _ | p
  · rfl
  · cases p <;> rfl

/-- A value that is joined to elements adds its own ones. -/
theorem append_adds {others : List (Option Value)} (hv : Adds m v others) (e : Engine) :
    append (.ofItems items) v e m = .value (.ofItems (items ++ others)) m := by
  rcases hv with ⟨b, r, rfl, hb⟩ | ⟨hplain, rfl⟩
  · obtain ⟨o, ho, hsequence⟩ := hb.lists.object
    have hpayload : ((Value.object b r).id?.bind m.heap.get?).map Object.payload = some (.array others.length) :=
      (congrArg (Option.map Object.payload) ho).trans (congrArg some hsequence.payload)
    have harray : isArray (.object b r) e m = .value true m := by
      rw [isArray_eq, hpayload]
    refine (bind_of_value harray _).trans ?_
    refine (bind_of_value (readElements_holds hb e) _).trans ?_
    rw [← Elements.ofItems_append, Elements.ofItems_moved,
      show (Elements.ofItems others).length = others.length from rfl, List.take_length]
    rfl
  · have harray : isArray v e m = .value false m := by
      rw [isArray_eq]
      cases hid : v.id? with
      | none => rfl
      | some b =>
        rw [Option.bind_some]
        cases ho : m.heap.get? b with
        | none => rfl
        | some o =>
          rw [Option.map_some]
          cases hp : o.payload with
          | array length => exact absurd hp (hplain b o length hid ho)
          | _ => rfl
    refine (bind_of_value harray _).trans ?_
    rw [← Elements.ofItems_append]
    cases v.id? <;> rfl

theorem concat_lists (hm : m.heap.Sound) (ha : m.Holds a items) {others : List (List (Option Value))}
    (hothers : List.Forall₂ (Adds m) args others)
    (hlength : (items ++ others.flatten).length < ArrayIndex.limit) (e : Engine) :
    ∃ b n, concat a args e m = .value (.ref b) { m with heap := n } ∧
      (∀ c o, m.heap.get? c = some o → n.get? c = some o) ∧
      m.heap.Gains b (items ++ others.flatten) n := by
  have hfold : ∀ {args : List Value} {others : List (List (Option Value))} {items : List (Option Value)},
      List.Forall₂ (Adds m) args others →
      fold append args (.ofItems items) e m = .value (.ofItems (items ++ others.flatten)) m := by
    intro args others items h
    induction h generalizing items with
    | nil => rw [List.flatten_nil, List.append_nil]; rfl
    | cons hv _ ih =>
      rw [fold_cons, List.flatten_cons, ← List.append_assoc]
      exact (bind_of_value (append_adds hv e) _).trans ih
  have hunbound : Elements.unbound others.flatten = others.flatten := by
    clear hlength
    induction hothers with
    | nil => rfl
    | @cons v _ _ _ hv _ ih =>
      rw [List.flatten_cons, Elements.unbound_append, ih]
      refine congrArg (· ++ _) ?_
      rcases hv with ⟨b, r, rfl, hb⟩ | ⟨-, rfl⟩
      · exact hb.lists.unbound
      · cases v <;> rfl
  obtain ⟨b, n, hmake, hfresh, hrest, hlists, hdirect⟩ := arrayOfElements_lists hm
    (items ++ others.flatten) (Nat.le_of_lt hlength) e
  rw [Elements.unbound_append, ha.lists.unbound, hunbound] at hlists
  refine ⟨b, n, ?_, fun c o ho => ?_, hfresh, hlists, hdirect⟩
  · refine (bind_of_value (readElements_holds ha e) _).trans ?_
    refine (bind_of_value (hfold hothers) _).trans ?_
    show (if ArrayIndex.limit ≤ (items ++ others.flatten).length then _ else _ : Script Value) e m = _
    rw [if_neg (Nat.not_le.2 hlength)]
    exact bind_of_value hmake _
  · rw [hrest c (Heap.ne_of_fresh hfresh ho), ho]

/-! ## All methods -/

/-- The methods of arrays do on an array what the operations of lists do on its list, with the holes like
elements, for numbers as positions and counts and any values as elements, whenever the length stays below the
limit; nothing else is changed. -/
theorem arrayMethods_lists (m : Machine) (hm : m.heap.Sound) (a : ObjectId) (items : List (Option Value))
    (ha : m.Holds a items) (r : Option ObjectId) (args : List Value) (e : Engine) :
    (items.length + args.length < ArrayIndex.limit → ∃ n,
      applyArray .push (.object a r) args e m
        = .value (.ofNat (items.length + args.length)) { m with heap := n } ∧
      m.heap.Turns a (items ++ args.map fun v => some v.unbound) n) ∧
    (∃ n,
      applyArray .pop (.object a r) args e m
        = .value (items.getLast?.join.getD .undefined) { m with heap := n } ∧
      m.heap.Turns a items.dropLast n) ∧
    (∃ n,
      applyArray .shift (.object a r) args e m
        = .value (items.head?.join.getD .undefined) { m with heap := n } ∧
      m.heap.Turns a items.tail n) ∧
    (items.length + args.length < ArrayIndex.limit → ∃ n,
      applyArray .unshift (.object a r) args e m
        = .value (.ofNat (items.length + args.length)) { m with heap := n } ∧
      m.heap.Turns a (args.map (fun v => some v.unbound) ++ items) n) ∧
    (∃ n,
      applyArray .reverse (.object a r) args e m = .value (.ref a) { m with heap := n } ∧
      m.heap.Turns a items.reverse n) ∧
    (∀ start count, Numeric args 0 → Numeric args 1 → start = namedIndex args 0 items.length 0 →
      count = namedCount args 1 (items.length - start) →
      items.length - count + (args.drop 2).length < ArrayIndex.limit → ∃ b n,
        applyArray .splice (.object a r) args e m = .value (.ref b) { m with heap := n } ∧
        m.heap.Turns a
          (items.take start ++ (args.drop 2).map (fun v => some v.unbound) ++ items.drop (start + count)) n ∧
        m.heap.Gains b ((items.drop start).take count) n) ∧
    (∀ start stop, Numeric args 0 → Numeric args 1 → start = namedIndex args 0 items.length 0 →
      stop = namedIndex args 1 items.length items.length → ∃ b n,
        applyArray .slice (.object a r) args e m = .value (.ref b) { m with heap := n } ∧
        (∀ c o, m.heap.get? c = some o → n.get? c = some o) ∧
        m.heap.Gains b ((items.drop start).take (stop - start)) n) ∧
    (∀ others : List (List (Option Value)), List.Forall₂ (Adds m) args others →
      (items ++ others.flatten).length < ArrayIndex.limit → ∃ b n,
        applyArray .concat (.object a r) args e m = .value (.ref b) { m with heap := n } ∧
        (∀ c o, m.heap.get? c = some o → n.get? c = some o) ∧
        m.heap.Gains b (items ++ others.flatten) n) :=
  ⟨fun hlength => push_lists ha hlength e, pop_lists ha e, shift_lists ha e,
    fun hlength => unshift_lists ha hlength e, reverse_lists ha e,
    fun _ _ hstart hcount hs hc hlength => splice_lists hm ha hstart hcount hs hc hlength e,
    fun _ _ hstart hstop hs ht => slice_lists hm ha hstart hstop hs ht e,
    fun _ hothers hlength => concat_lists hm ha hothers hlength e⟩

/-- An array of two texts with a hole between them: another one is added at its end, the hole is replaced by
two values from the end, and it is joined to itself and a number. -/
theorem arrayMethods_lists_hole :
    let items : List (Option Value) := [some (.string "a"), none, some (.string "b")]
    let m : Machine :=
      { (Interpreter.fresh {} (Stock.host (Stock.scripted none [] [])) []).machine with
        heap := ⟨#[some ⟨.empty none, 0⟩, some ⟨.ofItems (some ⟨0⟩) ⟨1⟩ items, 0⟩], [], 0⟩ }
    m.heap.Sound ∧ m.Holds ⟨1⟩ items ∧ ∀ e,
      (∃ n, applyArray .push (.ref ⟨1⟩) [.string "c"] e m = .value (.ofNat 4) { m with heap := n } ∧
        m.heap.Turns ⟨1⟩ [some (.string "a"), none, some (.string "b"), some (.string "c")] n) ∧
      (∃ b n, applyArray .splice (.ref ⟨1⟩) [.number (.finite (-2)), .number (.finite 1), .null, .boolean true] e m
          = .value (.ref b) { m with heap := n } ∧
        m.heap.Turns ⟨1⟩ [some (.string "a"), some .null, some (.boolean true), some (.string "b")] n ∧
        m.heap.Gains b [none] n) ∧
      (∃ b n, applyArray .concat (.ref ⟨1⟩) [.ref ⟨1⟩, .number .nan] e m = .value (.ref b) { m with heap := n } ∧
        (∀ c o, m.heap.get? c = some o → n.get? c = some o) ∧
        m.heap.Gains b [some (.string "a"), none, some (.string "b"), some (.string "a"), none, some (.string "b"),
          some (.number .nan)] n) := by
  intro items m
  have hm : m.heap.Sound := ⟨nofun, List.nodup_nil⟩
  have ha : m.Holds ⟨1⟩ items := by
    have hproto : (Object.ofItems (some ⟨0⟩) ⟨1⟩ items).proto = some ⟨0⟩ :=
      Object.proto_of_makeup ((Object.pushElements_makeup _ _).trans (Object.makeArray_makeup _ _ _))
    refine .of_ofItems (m := m) rfl rfl (fun p hp x hx => ?_) (by decide)
    rw [Heap.chain_eq (h := m.heap) (a := ⟨1⟩) rfl, List.tail_cons, hproto] at hp
    cases List.mem_singleton.1 hp
    exact (Array.not_mem_empty x hx).elim
  refine ⟨hm, ha, fun e => ⟨?_, ?_, ?_⟩⟩
  · exact (arrayMethods_lists m hm ⟨1⟩ items ha none [.string "c"] e).1 (by decide)
  · have hnumeric : ∀ k l : Number, ∀ rest, Numeric (.number k :: .number l :: rest) 0 ∧
        Numeric (.number k :: .number l :: rest) 1 := by
      intro k l rest
      constructor <;> rintro _ ⟨⟩ <;> exact ⟨_, rfl⟩
    have hstart : 1 = namedIndex [.number (.finite (-2)), .number (.finite 1), .null, .boolean true] 0 3 0 := by
      decide +kernel
    have hcount : 1 = namedCount [.number (.finite (-2)), .number (.finite 1), .null, .boolean true] 1 2 := by
      decide +kernel
    exact (arrayMethods_lists m hm ⟨1⟩ items ha none _ e).2.2.2.2.2.1 1 1 (hnumeric _ _ _).1 (hnumeric _ _ _).2
      hstart hcount (by decide)
  · exact (arrayMethods_lists m hm ⟨1⟩ items ha none [.ref ⟨1⟩, .number .nan] e).2.2.2.2.2.2.2
      [items, [some (.number .nan)]]
      (.cons (.inl ⟨⟨1⟩, none, rfl, ha⟩) (.cons (.inr ⟨fun _ _ _ h => (nomatch h), rfl⟩) .nil)) (by decide)

end Script

end PageScript
