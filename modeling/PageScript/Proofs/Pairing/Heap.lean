import Mathlib.Data.Finset.Card
import Mathlib.Order.Interval.Finset.Nat
import PageScript.Proofs.Pairing.Objects

/-! # Reading paired heaps

Whatever is read from two heaps that match is the same up to the pairing: variables, chains of
prototypes, names, and what a name stands for.  Only the test for inheritance looks at the number of
slots, as a bound on the length of a chain; `inheritsFrom_iff` shows that the bound does not matter.
-/

set_option autoImplicit false

namespace PageScript

variable {p : Pairing}

/-! ## Chains of prototypes -/

namespace Heap

variable (h : Heap)

/-- The object a number of steps up the chain of prototypes that begins with `start`, if the chain is
that long and does not run into a freed object. -/
def along : Nat → Option ObjectId → Option ObjectId
  | 0, start => start.filter h.isLive
  | k + 1, start => (start.bind h.get?).bind fun o => along k o.proto

theorem get?_eq_none_iff (id : ObjectId) : h.get? id = none ↔ h.isLive id = false := by
  rw [get?, isLive, Option.map_eq_none_iff]
  cases h.slot? id <;> simp

theorem along_none (k : Nat) : h.along k none = none := by cases k <;> rfl

theorem along_of_dead {id : ObjectId} (hid : h.get? id = none) (k : Nat) :
    h.along k (some id) = none := by
  cases k with
  | zero => rw [along, Option.filter_some, (h.get?_eq_none_iff id).1 hid]; rfl
  | succ k => rw [along, Option.bind_some, hid]; rfl

theorem along_add (i k : Nat) (start : Option ObjectId) :
    h.along (i + k) start = (h.along i start).bind fun id => h.along k (some id) := by
  induction i generalizing start with
  | zero =>
    rw [Nat.zero_add]
    cases start with
    | none => exact h.along_none k
    | some id =>
      rw [along, Option.filter_some]
      split
      · rfl
      · rename_i hid
        exact h.along_of_dead ((h.get?_eq_none_iff id).2 (Bool.eq_false_iff.2 hid)) k
  | succ i ih =>
    rw [Nat.succ_add, along, along]
    cases start.bind h.get? with
    | none => rfl
    | some o => exact ih o.proto

theorem isLive_of_along {k : Nat} {start : Option ObjectId} {id : ObjectId}
    (hk : h.along k start = some id) : h.isLive id = true := by
  induction k generalizing start with
  | zero =>
    rw [along, Option.filter_eq_some_iff] at hk
    exact hk.2
  | succ k ih =>
    rw [along, Option.bind_eq_some_iff] at hk
    obtain ⟨o, -, ho⟩ := hk
    exact ih ho

theorem index_lt_of_isLive {id : ObjectId} (hid : h.isLive id = true) :
    id.index < h.slots.size := by
  by_contra hn
  rw [isLive, slot?, Array.getElem?_eq_none (Nat.le_of_not_lt hn)] at hid
  exact Bool.false_ne_true hid

theorem mem_chainFrom {id : ObjectId} {limit : Nat} {start : Option ObjectId} :
    id ∈ (h.chainFrom limit start).map Prod.fst ↔ ∃ k < limit, h.along k start = some id := by
  induction limit generalizing start with
  | zero => simp [chainFrom]
  | succ limit ih =>
    cases start with
    | none => simp [chainFrom, along_none]
    | some a =>
      rw [chainFrom]
      cases ha : h.get? a with
      | none => simp [h.along_of_dead ha]
      | some o =>
        have hlive : h.isLive a = true := by
          rw [← Bool.not_eq_false, ← h.get?_eq_none_iff, ha]
          exact Option.some_ne_none o
        have hzero : h.along 0 (some a) = some a := by rw [along, Option.filter_some, if_pos hlive]
        have hsucc : ∀ k, h.along (k + 1) (some a) = h.along k o.proto := fun k => by
          rw [along, Option.bind_some, ha, Option.bind_some]
        rw [List.map_cons, List.mem_cons, ih]
        constructor
        · rintro (rfl | ⟨k, hk, hid⟩)
          · exact ⟨0, Nat.succ_pos _, hzero⟩
          · exact ⟨k + 1, Nat.succ_lt_succ hk, (hsucc k).trans hid⟩
        · rintro ⟨k, hk, hid⟩
          cases k with
          | zero => exact .inl (Option.some.inj (hid.symm.trans hzero))
          | succ k => exact .inr ⟨k, Nat.lt_of_succ_lt_succ hk, (hsucc k).symm.trans hid⟩

/-- A chain of prototypes meets each of its objects within as many steps as there are slots: up to the
first meeting it passes different objects only. -/
theorem along_lt_size {id : ObjectId} {start : Option ObjectId} (hid : ∃ k, h.along k start = some id) :
    ∃ k < h.slots.size, h.along k start = some id := by
  classical
  have hfirst : ∀ j < Nat.find hid, h.along j start ≠ some id := fun j hj => Nat.find_min hid hj
  generalize hk : Nat.find hid = k at hfirst
  have hid : h.along k start = some id := hk ▸ Nat.find_spec hid
  refine ⟨k, ?_, hid⟩
  have hsome : ∀ i ≤ k, ∃ a, h.along i start = some a := fun i hi => by
    have hadd := h.along_add i (k - i) start
    rw [Nat.add_sub_cancel' hi, hid] at hadd
    cases ha : h.along i start with
    | none => rw [ha] at hadd; cases hadd
    | some a => exact ⟨a, rfl⟩
  have hdistinct : ∀ i j, i < j → j ≤ k → h.along i start ≠ h.along j start := fun i j hij hj he => by
    have hi := h.along_add i (k - j) start
    rw [he, ← h.along_add, Nat.add_sub_cancel' hj, hid] at hi
    exact hfirst (i + (k - j)) (by omega) hi
  let place : Nat → Nat := fun i => ((h.along i start).map ObjectId.index).getD 0
  have hplace : ∀ i ≤ k, ∃ a, h.along i start = some a ∧ place i = a.index := fun i hi => by
    obtain ⟨a, ha⟩ := hsome i hi
    exact ⟨a, ha, by simp only [place, ha, Option.map_some, Option.getD_some]⟩
  have hcard := Finset.card_le_card_of_injOn (s := Finset.range (k + 1))
    (t := Finset.range h.slots.size) place ?_ ?_
  · rw [Finset.card_range, Finset.card_range] at hcard
    exact hcard
  · intro i hi
    obtain ⟨a, ha, hi'⟩ := hplace i (Nat.lt_succ_iff.1 (Finset.mem_range.1 hi))
    rw [hi']
    exact Finset.mem_coe.2 (Finset.mem_range.2 (h.index_lt_of_isLive (h.isLive_of_along ha)))
  · intro i hi j hj hij
    have hi := Nat.lt_succ_iff.1 (Finset.mem_range.1 hi)
    have hj := Nat.lt_succ_iff.1 (Finset.mem_range.1 hj)
    obtain ⟨a, ha, hia⟩ := hplace i hi
    obtain ⟨b, hb, hjb⟩ := hplace j hj
    have hab : a = b := by
      cases a
      cases b
      exact congrArg ObjectId.mk (hia.symm.trans (hij.trans hjb))
    rcases Nat.lt_trichotomy i j with hlt | heq | hlt
    · exact absurd (ha.trans (hab ▸ hb.symm)) (hdistinct i j hlt hj)
    · exact heq
    · exact absurd (hb.trans (hab ▸ ha.symm)) (hdistinct j i hlt hi)

theorem inheritsFrom_iff {id ancestor : ObjectId} {limit : Nat} (hlimit : h.slots.size ≤ limit) :
    h.inheritsFrom id ancestor = true ↔
      ancestor ∈ (h.chainFrom limit (h.proto? id)).map Prod.fst := by
  rw [inheritsFrom, List.contains_iff_mem, mem_chainFrom, mem_chainFrom]
  constructor
  · rintro ⟨k, hk, ha⟩
    exact ⟨k, Nat.lt_of_lt_of_le hk hlimit, ha⟩
  · rintro ⟨k, -, ha⟩
    exact h.along_lt_size ⟨k, ha⟩

end Heap

/-! ## Reads -/

/-- Variables whose objects are paired and whose names agree. -/
structure Location.Matches (p : Pairing) (x y : Location) : Prop where
  object : p.ids x.object y.object
  name : x.name = y.name

theorem Location.Matches.mono : Matching.Monotone Location.Matches := fun _ _ hpq _ _ h =>
  ⟨hpq h.object, h.name⟩

/-- Variables of names in scope that agree up to their objects. -/
structure Binding.Matches (p : Pairing) (x y : Binding) : Prop where
  location : Location.Matches p x.location y.location
  receiver : Matching.option .id p x.receiver y.receiver

theorem Heap.name_of_own? {h : Heap} {a : ObjectId} {name : String} {x : Variable}
    (hx : h.own? a name = some x) : x.name = name := by
  obtain ⟨o, -, hfind⟩ := Option.bind_eq_some_iff.1 hx
  have hname : (x.name == name) = true := Array.find?_some (p := fun v : Variable => v.name == name) hfind
  exact beq_iff_eq.1 hname

namespace Heap.Matches

variable {h h' : Heap} {a b : ObjectId}

theorem get? (hh : Heap.Matches p h h') (hab : p.ids a b) :
    Matching.option Object.Matches p (h.get? a) (h'.get? b) :=
  Matching.option_map (hh a b hab) fun _ _ hs => hs.object

theorem isLive_eq (hh : Heap.Matches p h h') (hab : p.ids a b) : h.isLive a = h'.isLive b :=
  Matching.option_isSome (hh a b hab)

theorem own? (hh : Heap.Matches p h h') (hab : p.ids a b) (name : String) :
    Matching.option Variable.Matches p (h.own? a name) (h'.own? b name) :=
  Matching.option_bind (hh.get? hab) fun _ _ ho => ho.find? name

theorem own?_named (hh : Heap.Matches p h h') (hab : p.ids a b) (name : String) :
    Matching.option (fun p x y => Variable.Matches p x y ∧ x.name = name) p (h.own? a name)
      (h'.own? b name) :=
  Matching.option_mem (hh.own? hab name) fun _ hx _ _ hxy => ⟨hxy, h.name_of_own? hx⟩

theorem owns_eq (hh : Heap.Matches p h h') (hab : p.ids a b) (name : String) :
    h.owns a name = h'.owns b name := by
  have ho := hh.get? hab
  unfold Heap.owns
  generalize h.get? a = x at ho
  generalize h'.get? b = y at ho
  cases ho with
  | none => rfl
  | some ho => exact ho.has_eq name

theorem proto? (hh : Heap.Matches p h h') (hab : p.ids a b) :
    Matching.option .id p (h.proto? a) (h'.proto? b) :=
  Matching.option_bind (hh.get? hab) fun _ _ ho => ho.proto

theorem chainFrom (hh : Heap.Matches p h h') (limit : Nat) {a b : Option ObjectId}
    (hab : Matching.option .id p a b) :
    Matching.list (.both .id Object.Matches) p (h.chainFrom limit a) (h'.chainFrom limit b) := by
  induction limit generalizing a b with
  | zero => exact .nil
  | succ limit ih =>
    cases hab with
    | none => exact .nil
    | @some a b hab =>
      have ho := hh.get? hab
      unfold Heap.chainFrom
      cases hx : h.get? a <;> cases hy : h'.get? b <;> rw [hx, hy] at ho
      · exact .nil
      · cases ho
      · cases ho
      · cases ho with
        | some ho => exact .cons ⟨hab, ho⟩ (ih ho.proto)

theorem chain (hh : Heap.Matches p h h') (hab : p.ids a b) :
    Matching.list (.both .id Object.Matches) p (h.chain a) (h'.chain b) :=
  hh.chainFrom _ (.some hab)

theorem findOwnerFrom (hh : Heap.Matches p h h') (name : String) (limit : Nat)
    {a b : Option ObjectId} (hab : Matching.option .id p a b) :
    Matching.option .id p (h.findOwnerFrom name limit a) (h'.findOwnerFrom name limit b) := by
  induction limit generalizing a b with
  | zero => exact .none
  | succ limit ih =>
    cases hab with
    | none => exact .none
    | @some a b hab =>
      have ho := hh.get? hab
      unfold Heap.findOwnerFrom
      cases hx : h.get? a <;> cases hy : h'.get? b <;> rw [hx, hy] at ho
      · exact .none
      · cases ho
      · cases ho
      · cases ho with
        | some ho =>
          dsimp only
          rw [ho.has_eq name]
          split
          · exact .some hab
          · exact ih ho.proto

theorem findOwner (hh : Heap.Matches p h h') (hab : p.ids a b) (name : String) :
    Matching.option .id p (h.findOwner a name) (h'.findOwner b name) :=
  hh.findOwnerFrom name _ (.some hab)

theorem hasProperty_eq (hh : Heap.Matches p h h') (hab : p.ids a b) (name : String) :
    h.hasProperty a name = h'.hasProperty b name :=
  Matching.option_isSome (hh.findOwner hab name)

theorem resolveUpTo (hh : Heap.Matches p h h') (limit : Nat) {x y : Location}
    (hxy : Location.Matches p x y) :
    Location.Matches p (h.resolveUpTo limit x) (h'.resolveUpTo limit y) := by
  induction limit generalizing x y with
  | zero => exact hxy
  | succ limit ih =>
    have ho := hh.own? hxy.object x.name
    unfold Heap.resolveUpTo
    rw [← hxy.name]
    cases hx : h.own? x.object x.name <;> cases hy : h'.own? y.object x.name <;> rw [hx, hy] at ho
    · exact hxy
    · cases ho
    · cases ho
    · cases ho with
      | some ho =>
        have hl := ho.link
        rw [Option.map_some, Option.map_some]
        generalize Variable.link _ = k at hl
        generalize Variable.link _ = l at hl
        cases hl with
        | plain => exact hxy
        | hook hook owner => exact hxy
        | synonym name object => exact ih ⟨object, rfl⟩

theorem resolve (hh : Heap.Matches p h h') {x y : Location} (hxy : Location.Matches p x y) :
    Location.Matches p (h.resolve x) (h'.resolve y) := hh.resolveUpTo _ hxy

theorem inheritsFrom_eq (hh : Heap.Matches p h h') (hab : p.ids a b) {c d : ObjectId}
    (hcd : p.ids c d) : h.inheritsFrom a c = h'.inheritsFrom b d := by
  have hl := Matching.list_map (W := .id) (f := Prod.fst) (g := Prod.fst)
    (hh.chainFrom (max h.slots.size h'.slots.size) (hh.proto? hab)) fun _ _ hx => hx.1
  have hmem := Matching.list_any (f := (· == c)) (g := (· == d)) hl
    fun x y hxy => Pairing.beq_eq hxy hcd
  rw [Bool.eq_iff_iff, h.inheritsFrom_iff (Nat.le_max_left ..),
    h'.inheritsFrom_iff (Nat.le_max_right ..)]
  rw [Bool.eq_iff_iff, List.any_beq', List.any_beq'] at hmem
  simpa using hmem

/-! ## Names -/

theorem indices_eq (hh : Heap.Matches p h h') (hab : p.ids a b) (limit : Nat) :
    h.indices a limit = h'.indices b limit := by
  unfold Heap.indices
  have hl := Matching.list_same (p := p) (Matching.list_flatMap (W := .same)
    (f := fun x : ObjectId × Object => x.2.members.toList.filterMap fun v =>
      (ArrayIndex.ofName? v.name).filter (· < limit))
    (g := fun x : ObjectId × Object => x.2.members.toList.filterMap fun v =>
      (ArrayIndex.ofName? v.name).filter (· < limit))
    (hh.chain hab) fun x y hxy =>
      Matching.list_filterMap hxy.2.members fun u v huv => by
        rw [huv.name]
        cases (ArrayIndex.ofName? v.name).filter (· < limit) with
        | none => exact .none
        | some i => exact .some rfl)
  rw [hl]

theorem visibleNames_eq {xs ys : List Variable} (hxs : Matching.list Variable.Matches p xs ys)
    (seen : List String) : Heap.visibleNames seen xs = Heap.visibleNames seen ys := by
  induction hxs generalizing seen with
  | nil => rfl
  | cons hx _ ih => rw [Heap.visibleNames, Heap.visibleNames, hx.name, hx.hidden, ih, ih]

theorem enumerable_eq (hh : Heap.Matches p h h') (hab : p.ids a b) :
    h.enumerable a = h'.enumerable b :=
  visibleNames_eq (Matching.list_flatMap (hh.chain hab) fun _ _ hx => hx.2.members) []

end Heap.Matches

/-! ## Names in scope -/

namespace Machine.Matches

variable {m m' : Machine} {a b : ObjectId}

theorem arrayLength_eq (hm : Machine.Matches p m m') (hab : p.ids a b) :
    Script.arrayLength m a = Script.arrayLength m' b := by
  have ho := Matching.option_same (p := p) (Matching.option_map (f := Object.payload)
    (g := Object.payload) (hm.heap.get? hab) fun _ _ ho => ho.payload)
  rw [Script.arrayLength, Script.arrayLength, ho]

theorem lookupWiths {h h' : Heap} (hh : Heap.Matches p h h') (name : String)
    {xs ys : List WithEntry} (hxs : Matching.list WithEntry.Matches p xs ys) :
    Matching.option Binding.Matches p (Machine.lookupWiths h name xs)
      (Machine.lookupWiths h' name ys) := by
  induction hxs with
  | nil => exact .none
  | @cons x y xs ys hx _ ih =>
    have ho := hh.findOwner hx.object name
    unfold Machine.lookupWiths
    generalize h.findOwner x.object name = u at ho
    generalize h'.findOwner y.object name = v at ho
    cases ho with
    | none => exact ih
    | some ho => exact .some ⟨⟨ho, rfl⟩, .some hx.object⟩

theorem lookupCallers {h h' : Heap} (hh : Heap.Matches p h h') (name : String)
    (transparent : Bool) {fs gs : List Frame} (hfs : Matching.list Frame.Matches p fs gs) :
    Matching.option Binding.Matches p (Machine.lookupCallers h name transparent fs)
      (Machine.lookupCallers h' name transparent gs) := by
  induction hfs generalizing transparent with
  | nil => exact .none
  | @cons f g fs gs hf _ ih =>
    have hw := lookupWiths hh name (Matching.list_filter (f := fun w => w.everywhere || transparent)
      (g := fun w => w.everywhere || transparent) hf.withs fun x y hx => by rw [hx.everywhere])
    unfold Machine.lookupCallers Frame.isTransparent
    dsimp only
    rw [hf.kind, hh.owns_eq hf.locals name]
    generalize Machine.lookupWiths h name _ = u at hw
    generalize Machine.lookupWiths h' name _ = v at hw
    cases hw with
    | none =>
      dsimp only
      split
      · exact .some ⟨⟨hf.locals, rfl⟩, .none⟩
      · exact ih _
    | some hw => exact .some hw

theorem lookupFrame {h h' : Heap} (hh : Heap.Matches p h h') (name : String) {f g : Frame}
    (hf : Frame.Matches p f g) :
    Matching.option Binding.Matches p (Machine.lookupFrame h name f)
      (Machine.lookupFrame h' name g) := by
  have hw := lookupWiths hh name hf.withs
  have hs := hh.findOwner hf.scope name
  have ht := hf.this
  unfold Machine.lookupFrame
  rw [hf.kind, hh.owns_eq hf.locals name]
  generalize Machine.lookupWiths h name f.withs = u at hw
  generalize Machine.lookupWiths h' name g.withs = v at hw
  cases hw with
  | some hw => exact .some hw
  | none =>
    dsimp only
    split
    · exact .some ⟨⟨hf.locals, rfl⟩, .none⟩
    · generalize h.findOwner f.scope name = u at hs
      generalize h'.findOwner g.scope name = v at hs
      cases hs with
      | some hs => exact .some ⟨⟨hs, rfl⟩, .none⟩
      | none =>
        generalize f.this = u at ht
        generalize g.this = v at ht
        cases ht with
        | none => exact .none
        | some ht =>
          exact Matching.option_map (hh.findOwner ht name) fun _ _ ho => ⟨⟨ho, rfl⟩, .some ht⟩

theorem lookup (hm : Machine.Matches p m m') (name : String) :
    Matching.option Binding.Matches p (m.lookup name) (m'.lookup name) := by
  have hf := lookupFrame hm.heap name hm.frame
  have hc := lookupCallers hm.heap name m.frame.isTransparent hm.callers
  have hg := hm.heap.findOwner (p.intrinsic 14 (Nat.le_refl _)) name
  have ht : m.frame.isTransparent = m'.frame.isTransparent := by
    rw [Frame.isTransparent, Frame.isTransparent, hm.frame.kind]
  unfold Machine.lookup
  rw [← ht]
  generalize Machine.lookupFrame m.heap name m.frame = u at hf
  generalize Machine.lookupFrame m'.heap name m'.frame = v at hf
  cases hf with
  | some hf => exact .some hf
  | none =>
    generalize Machine.lookupCallers m.heap name m.frame.isTransparent m.callers = u at hc
    generalize Machine.lookupCallers m'.heap name m.frame.isTransparent m'.callers = v at hc
    cases hc with
    | some hc => exact .some hc
    | none => exact Matching.option_map hg fun _ _ ho => ⟨⟨ho, rfl⟩, .none⟩

end Machine.Matches

end PageScript
