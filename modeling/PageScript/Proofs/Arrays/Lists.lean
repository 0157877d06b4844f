import PageScript.Proofs.Arrays.Items
import PageScript.Proofs.Receivers
import PageScript.Proofs.SharedScope

/-! # Reading an array, and writing it back

The elements that are read from an array are those of the list that describes it, unless a protected variable
refuses to be read.  When others are written back, the array is described by the list of these.
-/

set_option autoImplicit false

namespace PageScript

namespace Heap

/-- Whether an object is an array with the elements of a list and holes where there is nothing, each element
in a plain variable that no other one stands in. -/
def Lists (h : Heap) (a : ObjectId) (items : List (Option Value)) : Prop :=
  h.Spans a items.length fun i => items[i]?.join

/-- Whether an object inherits no indices. -/
def Bare (h : Heap) (a : ObjectId) : Prop :=
  ∀ p ∈ (h.chain a).tail, ∀ x ∈ p.2.members, ArrayIndex.ofName? x.name = none

end Heap

/-- Whether the length and the elements of an array may be read. -/
structure Machine.Shows (m : Machine) (a : ObjectId) : Prop where
  length : ∀ x, m.heap.at? ⟨a, "length"⟩ = some x → x.key = 0 ∨ x.key = m.key
  elements : ∀ i x, i < ArrayIndex.limit → m.heap.at? (m.heap.cell a i) = some x →
    x.key = 0 ∨ x.key = m.key

/-! ## Looking at a machine -/

namespace Script

variable {α β : Type} {sure : Prop} {e : Engine} {m n : Machine} {a : ObjectId} {v w : Value}

/-- Whether a computation only looks at the machine: it yields nothing but a certain value, and does so for
sure under a condition. -/
structure Looks (sure : Prop) (x : Script α) (v : α) (e : Engine) (m : Machine) : Prop where
  yields : sure → x e m = .value v m
  only : ∀ w n, x e m = .value w n → w = v ∧ n = m

/-- A pass over a list makes its first step and goes on from there. -/
theorem fold_cons {σ : Type} (step : σ → β → Script σ) (b : β) (rest : List β) (s : σ) :
    fold step (b :: rest) s = step s b >>= fun s => fold step rest s := rfl

theorem fold_map {β γ σ : Type} (step : σ → γ → Script σ) (g : β → γ) (xs : List β) (s : σ) :
    fold step (xs.map g) s = fold (fun s x => step s (g x)) xs s := by
  induction xs generalizing s with
  | nil => rfl
  | cons x xs ih =>
    rw [List.map_cons, fold_cons, fold_cons]
    exact congrArg (step s (g x) >>= ·) (funext ih)

theorem each_map {β γ : Type} (f : γ → Script α) (g : β → γ) (xs : List β) :
    Script.each f (xs.map g) = Script.each (fun b => f (g b)) xs := by
  unfold Script.each
  rw [fold_map]

namespace Looks

variable {x : Script α} {u : α} {r : β} {f : α → Script β}

theorem of_eq (h : x e m = .value u m) : Looks sure x u e m :=
  ⟨fun _ => h, fun w n hw => by rw [h] at hw; cases hw; exact ⟨rfl, rfl⟩⟩

theorem pure (u : α) : Looks sure (pure u) u e m := of_eq rfl

theorem weaken {other : Prop} (h : Looks sure x u e m) (hsure : other → sure) : Looks other x u e m :=
  ⟨fun ho => h.yields (hsure ho), h.only⟩

theorem congr {y : Script α} (hy : Looks sure y u e m) (h : x e m = y e m) : Looks sure x u e m :=
  ⟨fun hsure => h.trans (hy.yields hsure), fun w n hx => hy.only w n (h.symm.trans hx)⟩

theorem bind (hx : Looks sure x u e m) (hf : Looks sure (f u) r e m) : Looks sure (x >>= f) r e m where
  yields hsure := (bind_of_value (hx.yields hsure) f).trans (hf.yields hsure)
  only w n h := by
    obtain ⟨y, k, hy, hrest⟩ := bind_value h
    obtain ⟨rfl, rfl⟩ := hx.only y k hy
    exact hf.only w n hrest

theorem each {f : β → Script α} {g : β → α} {items : List β}
    (hf : ∀ b ∈ items, Looks sure (f b) (g b) e m) : Looks sure (Script.each f items) (items.map g) e m := by
  have hfold : ∀ (rest : List β) (done : List α), (∀ b ∈ rest, Looks sure (f b) (g b) e m) →
      Looks sure (Script.fold (fun done b => do return (← f b) :: done) rest done)
        ((rest.map g).reverse ++ done) e m := by
    intro rest
    induction rest with
    | nil => exact fun done _ => of_eq rfl
    | cons b rest ih =>
      intro done hrest
      have hstep : Looks sure (do return (← f b) :: done) (g b :: done) e m :=
        (hrest b (.head _)).bind (.pure _)
      have hnext := ih (g b :: done) fun c hc => hrest c (.tail _ hc)
      rw [List.map_cons, List.reverse_cons, List.append_assoc, fold_cons]
      exact hstep.bind hnext
  refine (hfold items [] hf).bind (of_eq ?_)
  rw [List.append_nil, List.reverse_reverse]
  rfl

end Looks

/-! ## Reading -/

variable {p : Location} {x : Variable} {length i : Nat} {elements : Nat → Option Value}
  {items : List (Option Value)}

/-- A variable that the key does not allow to read yields nothing. -/
theorem looks_of_readable (hx : m.heap.at? (m.heap.resolve p) = some x)
    (hread : x.key = 0 ∨ x.key = m.key → readVariable p e m = .value v m) :
    Looks (x.key = 0 ∨ x.key = m.key) (readVariable p) v e m where
  yields := hread
  only w n h := by
    by_cases hkey : x.key = 0 ∨ x.key = m.key
    · rw [hread hkey] at h
      cases h
      exact ⟨rfl, rfl⟩
    · rw [not_or] at hkey
      unfold readVariable at h
      rw [bind_read, bind_read,
        show m.heap.own? (m.heap.resolve p).object (m.heap.resolve p).name = some x from hx] at h
      change (if x.key ≠ 0 ∧ x.key ≠ m.key then _ else _ : Script Value) e m = _ at h
      rw [if_pos hkey] at h
      exact absurd h (raise_ne_value _ _ w)

/-- A plain variable yields its value. -/
theorem readVariable_plain (hx : m.heap.at? (m.heap.resolve p) = some x) (hlink : x.link = .plain) :
    Looks (x.key = 0 ∨ x.key = m.key) (readVariable p) x.value e m :=
  looks_of_readable hx fun hkey =>
    readVariable_value hx (fun hook owner h => by rw [hlink] at h; cases h) hkey e

/-- The length of an array is what its counter says. -/
theorem readVariable_length (ha : m.heap.HasArray a) (hx : m.heap.at? ⟨a, "length"⟩ = some x) :
    Looks (x.key = 0 ∨ x.key = m.key) (readVariable ⟨a, "length"⟩) (.ofNat (arrayLength m a)) e m := by
  obtain ⟨y, hy, hlink⟩ := length_link ha
  cases hx.symm.trans hy
  have hown : m.heap.at? (m.heap.resolve ⟨a, "length"⟩) = some x := by
    rw [resolve_length ha]
    exact hx
  refine looks_of_readable hown fun hkey => ?_
  rw [readVariable_eq hown hkey, hlink]
  rfl

/-- A function only remembers the object that it was read from. -/
theorem bindReceiver_unbound (v : Value) (receiver : ObjectId) (e : Engine) (m : Machine) :
    ∃ w, bindReceiver v receiver e m = .value w m ∧ w.unbound = v.unbound := by
  unfold bindReceiver callable?
  rw [bind_read]
  cases v with
  | object id r =>
    dsimp only
    cases m.heap.get? id with
    | none => exact ⟨_, rfl, rfl⟩
    | some o =>
      cases hc : o.isCallable with
      | true => exact ⟨.object id (some receiver), by simp only [hc, if_true]; rfl, rfl⟩
      | false => exact ⟨.object id r, by simp only [hc]; rfl, rfl⟩
  | _ => exact ⟨_, rfl, rfl⟩

theorem readObjectMember_of_owns {name : String} (howns : m.heap.owns a name = true) (e : Engine) :
    readObjectMember a name e m = (readVariable ⟨a, name⟩ >>= (bindReceiver · a)) e m :=
  readObjectMember_eq (Machine.findOwner_of_owns howns) e

/-- An element yields its value, which may remember the array. -/
theorem readMember_element (hs : m.heap.Spans a length elements) (hi : elements i = some v) :
    ∃ w, Looks (m.Shows a) (readMember (.ref a) (ArrayIndex.name i)) w e m ∧ w.unbound = v := by
  obtain ⟨x, hx, hlink, hvalue⟩ := hs.stored i v hi
  obtain ⟨hlt, howns⟩ := hs.owned_of_some hi
  obtain ⟨w, hw, hunbound⟩ := bindReceiver_unbound x.value a e m
  have hread : Looks (x.key = 0 ∨ x.key = m.key)
      (readVariable ⟨a, ArrayIndex.name i⟩ >>= (bindReceiver · a)) w e m :=
    (readVariable_plain hx hlink).bind (.of_eq hw)
  have heq := readObjectMember_of_owns (m := m) (by rw [owns_eq_isSome]; exact howns) e
  exact ⟨w, (hread.congr heq).weaken fun hshows => hshows.elements i x hlt hx, hunbound.trans hvalue⟩

/-- An array answers for its length. -/
theorem readMember_length (ha : m.heap.HasArray a) (hx : m.heap.at? ⟨a, "length"⟩ = some x) :
    Looks (x.key = 0 ∨ x.key = m.key) (readMember (.ref a) "length") (.ofNat (arrayLength m a)) e m := by
  have hread : Looks (x.key = 0 ∨ x.key = m.key)
      (readVariable ⟨a, "length"⟩ >>= (bindReceiver · a)) (.ofNat (arrayLength m a)) e m :=
    (readVariable_length ha hx).bind (.of_eq rfl)
  exact hread.congr (readObjectMember_of_owns (by rw [owns_eq_isSome, hx]; rfl) e)

theorem lengthOf_array (ha : m.heap.HasArray a) (hx : m.heap.at? ⟨a, "length"⟩ = some x)
    (hlimit : arrayLength m a ≤ ArrayIndex.limit) :
    Looks (x.key = 0 ∨ x.key = m.key) (lengthOf a) (arrayLength m a) e m := by
  refine (readMember_length ha hx).bind
    ((Looks.of_eq (u := Number.ofNat (arrayLength m a)) rfl).bind (.of_eq ?_))
  have hnumber : (Number.ofNat (arrayLength m a)).toUInt32.toNat = arrayLength m a :=
    Number.toUInt32_ofNat (by unfold ArrayIndex.limit at hlimit; omega)
  exact congrArg (Outcome.value · m) hnumber

theorem lengthOf_looks (hs : m.heap.Spans a length elements) (hlength : length ≤ ArrayIndex.limit) :
    Looks (m.Shows a) (lengthOf a) length e m := by
  obtain ⟨o, ho, hsequence⟩ := hs.object
  have ha : m.heap.HasArray a := ⟨o, ho, hsequence.isArray⟩
  obtain ⟨x, hx, -⟩ := length_link ha
  have hcounter : arrayLength m a = length := arrayLength_of_spans hs
  have hread := lengthOf_array (e := e) ha hx (hcounter ▸ hlength)
  rw [hcounter] at hread
  exact hread.weaken fun hshows => hshows.length x hx

end Script

/-! ### All elements -/

namespace Heap

variable {h : Heap} {a : ObjectId} {items : List (Option Value)} {length i : Nat}
  {elements : Nat → Option Value}

theorem chain_eq {o : Object} (ho : h.get? a = some o) :
    h.chain a = (a, o) :: h.chainFrom (chainLimit - 1) o.proto := by
  show h.chainFrom (chainLimit - 1 + 1) (some a) = _
  rw [chainFrom, ho]

/-- The indices of an array that inherits none are those of its elements. -/
theorem Spans.mem_indices (hs : h.Spans a length elements) (hbare : h.Bare a) :
    i ∈ h.indices a length ↔ (elements i).isSome = true := by
  obtain ⟨o, ho, hsequence⟩ := hs.object
  have hat : h.at? ⟨a, ArrayIndex.name i⟩ = o.find? (ArrayIndex.name i) := by
    unfold at? own?
    rw [ho]
    rfl
  rw [Heap.mem_indices, hs.owned]
  constructor
  · rintro ⟨-, p, hp, x, hx, hindex⟩
    rw [chain_eq ho] at hp
    rcases List.mem_cons.1 hp with rfl | hp
    · obtain ⟨hlimit, hname⟩ := ArrayIndex.ofName?_eq_some_iff.1 hindex
      refine ⟨hlimit, ?_⟩
      rw [hat, Object.find?, Array.find?_isSome]
      exact ⟨x, hx, beq_iff_eq.2 hname⟩
    · have hnone := hbare p (by rw [chain_eq ho]; exact hp) x hx
      rw [hnone] at hindex
      cases hindex
  · rintro ⟨hlimit, hsome⟩
    rw [hat] at hsome
    obtain ⟨x, hx⟩ := Option.isSome_iff_exists.1 hsome
    refine ⟨(hsequence.element i x hlimit hx).1, (a, o), by rw [chain_eq ho]; exact .head _, x,
      Array.mem_of_find?_eq_some hx, ?_⟩
    rw [beq_iff_eq.1 (Array.find?_eq_some_iff_append.1 hx).1, ArrayIndex.ofName?_name hlimit]

theorem Lists.indices_eq (hs : h.Lists a items) (hbare : h.Bare a) :
    h.indices a items.length = (Elements.presentFrom 0 items).map Prod.fst :=
  List.Pairwise.eq_of_mem_iff (h.indices_rising a _) (Elements.presentFrom_rising 0 items) fun i => by
    rw [hs.mem_indices hbare, Elements.mem_indices_presentFrom]

end Heap

namespace Script

variable {e : Engine} {m : Machine} {a : ObjectId} {items : List (Option Value)}

/-- The elements that are read from an array are those of its list. -/
theorem readElements_looks (hs : m.heap.Lists a items) (hbare : m.heap.Bare a)
    (hlength : items.length ≤ ArrayIndex.limit) :
    Looks (m.Shows a) (readElements a) (.ofItems items) e m := by
  refine (lengthOf_looks hs hlength).bind ?_
  refine (Looks.of_eq (u := m.heap.indices a items.length) rfl).bind ?_
  let valueAt (i : Nat) : Nat × Value := (i, ((items[i]?.join).getD .undefined))
  have helements : Looks (m.Shows a) (each (fun i => do
      return (i, (← readMember (.ref a) (ArrayIndex.name i)).unbound)) (m.heap.indices a items.length))
      ((m.heap.indices a items.length).map valueAt) e m := by
    refine .each fun i hi => ?_
    obtain ⟨v, hv⟩ := Option.isSome_iff_exists.1 ((hs.mem_indices hbare).1 hi)
    obtain ⟨w, hw, hunbound⟩ := readMember_element (e := e) hs hv
    refine hw.bind (.of_eq ?_)
    show Outcome.value (i, w.unbound) m = .value (i, (items[i]?.join).getD .undefined) m
    rw [hunbound, hv]
    rfl
  have hpresent : (m.heap.indices a items.length).map valueAt = Elements.presentFrom 0 items := by
    rw [hs.indices_eq hbare, List.map_map]
    conv_rhs => rw [← List.map_id (Elements.presentFrom 0 items)]
    refine List.map_congr_left fun x hx => ?_
    have hx := (Elements.mem_presentFrom.1 (show (x.1, x.2) ∈ Elements.presentFrom 0 items from hx)).2
    rw [Nat.sub_zero] at hx
    show (x.1, (items[x.1]?.join).getD .undefined) = x
    rw [hx]
    rfl
  rw [hpresent] at helements
  exact helements.bind (.pure _)

end Script

end PageScript
