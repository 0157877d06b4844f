import Mathlib.Order.Basic
import Mathlib.Data.List.Forall2
import PageScript.Machine.Script

/-! # Pairings of objects

Two machines that differ only in where their objects stand run alike.  A `Pairing` says which object of
one machine plays the part of which object of the other; values, objects, activations and machines
match if they are equal up to it.  Paired objects are the only ones that a run can come to, so whatever
else stands in either heap does not count.  Neither do the values of variables with secret keys, which a
run cannot read, nor, if they are veiled, those of variables whose hooks answer in their place.
-/

set_option autoImplicit false

namespace PageScript

/-! ## Pairings -/

/-- Whether a hook answers reads and writes of a variable in its place. -/
def Link.isHook : Link → Bool
  | .hook _ _ => true
  | _ => false

/-- Which objects of two machines correspond to each other: one to one, and each intrinsic object to
itself.  Variables with a secret key may have values that do not, and so may those with a hook if their
values are veiled. -/
structure Pairing where
  ids : ObjectId → ObjectId → Prop
  secret : Nat → Prop
  veiled : Prop
  oneToOne : ∀ {a b c d : ObjectId}, ids a b → ids c d → (a = c ↔ b = d)
  intrinsic : ∀ i ≤ 14, ids ⟨i⟩ ⟨i⟩
  unlocked : ¬secret 0

namespace Pairing

/-- Whether a pairing has the pairs of another one, and hides the same values. -/
structure Extends (p q : Pairing) : Prop where
  ids : ∀ ⦃a b⦄, p.ids a b → q.ids a b
  secret : q.secret = p.secret
  veiled : q.veiled = p.veiled

instance : Preorder Pairing where
  le := Extends
  le_refl _ := ⟨fun _ _ h => h, rfl, rfl⟩
  le_trans _ _ _ hp hq :=
    ⟨fun _ _ h => hq.ids (hp.ids h), hq.secret.trans hp.secret, hq.veiled.trans hp.veiled⟩

instance {p q : Pairing} : CoeFun (p ≤ q) fun _ => ∀ ⦃a b⦄, p.ids a b → q.ids a b := ⟨Extends.ids⟩

/-- The pairing of each object with itself, given what is hidden. -/
def equal (secret : Nat → Prop) (unlocked : ¬secret 0) (veiled : Prop) : Pairing where
  ids := Eq
  secret := secret
  veiled := veiled
  oneToOne := by rintro a b c d rfl rfl; rfl
  intrinsic _ _ := rfl
  unlocked := unlocked

/-- The pairing of each object with itself, with nothing hidden. -/
def identity : Pairing := equal (fun _ => False) not_false False

/-- Whether the values of a variable are hidden. -/
def Hides (p : Pairing) (x : Variable) : Prop := p.secret x.key ∨ (p.veiled ∧ x.link.isHook = true)

/-- Whether the values of a variable count.  Those of prototypes always do, as they are read without a
look at keys and hooks. -/
def Reveals (p : Pairing) (x : Variable) : Prop := p.Hides x → x.name = "prototype"

theorem reveals_of_open {p : Pairing} {x : Variable} (hkey : ¬p.secret x.key)
    (hlink : p.veiled → x.link.isHook = false) : p.Reveals x := by
  rintro (hsecret | ⟨hveiled, hhook⟩)
  · exact absurd hsecret hkey
  · rw [hlink hveiled] at hhook
    cases hhook

theorem Reveals.of_same {p q : Pairing} (hsecret : q.secret = p.secret) (hveiled : q.veiled = p.veiled)
    {x : Variable} (hx : q.Reveals x) : p.Reveals x := by
  unfold Reveals Hides at hx ⊢
  rwa [hsecret, hveiled] at hx

theorem reveals_of_le {p q : Pairing} (h : p ≤ q) {x : Variable} (hx : q.Reveals x) : p.Reveals x :=
  hx.of_same h.secret h.veiled

/-- What counts after a variable was given a key that is not secret, or a hook, counted before. -/
theorem Reveals.of_changed {p : Pairing} {x y : Variable} (hx : p.Reveals y) (hname : y.name = x.name)
    (hkey : p.secret x.key → p.secret y.key) (hlink : x.link.isHook = true → y.link.isHook = true) :
    p.Reveals x := by
  intro hidden
  refine hname.symm.trans (hx ?_)
  exact hidden.imp hkey fun h => ⟨h.1, hlink h.2⟩

variable (p : Pairing)

theorem intrinsic_object : p.ids Intrinsic.object Intrinsic.object := p.intrinsic 0 (by decide)

theorem intrinsic_function : p.ids Intrinsic.function Intrinsic.function :=
  p.intrinsic 1 (by decide)

theorem intrinsic_array : p.ids Intrinsic.array Intrinsic.array := p.intrinsic 2 (by decide)

theorem intrinsic_string : p.ids Intrinsic.string Intrinsic.string := p.intrinsic 3 (by decide)

theorem intrinsic_boolean : p.ids Intrinsic.boolean Intrinsic.boolean := p.intrinsic 4 (by decide)

theorem intrinsic_number : p.ids Intrinsic.number Intrinsic.number := p.intrinsic 5 (by decide)

theorem intrinsic_global : p.ids Intrinsic.globalObject Intrinsic.globalObject :=
  p.intrinsic 14 (Nat.le_refl _)

theorem intrinsic_error (kind : ErrorKind) :
    p.ids (Intrinsic.error kind) (Intrinsic.error kind) := by
  cases kind <;> exact p.intrinsic _ (by decide)

theorem beq_eq {p : Pairing} {a b c d : ObjectId} (h : p.ids a b) (k : p.ids c d) :
    (a == c) = (b == d) := by
  rw [Bool.eq_iff_iff, beq_iff_eq, beq_iff_eq]
  exact p.oneToOne h k

end Pairing

/-- A relation between data of two machines, given a pairing of their objects. -/
abbrev Matching (α : Type) : Type := Pairing → α → α → Prop

namespace Matching

variable {α β : Type} {V : Matching α} {W : Matching β} {p q : Pairing}

/-- Whether data that match still do when more objects are paired. -/
def Monotone (V : Matching α) : Prop := ∀ ⦃p q : Pairing⦄, p ≤ q → ∀ ⦃a b⦄, V p a b → V q a b

/-- Data without objects match if they are equal. -/
def same : Matching α := fun _ => Eq

/-- Objects match if they are paired. -/
def id : Matching ObjectId := Pairing.ids

/-- Options match if both are missing, or both are there and match. -/
def option (V : Matching α) : Matching (Option α) := fun p => Option.Rel (V p)

/-- Lists match member by member. -/
def list (V : Matching α) : Matching (List α) := fun p => List.Forall₂ (V p)

/-- Pairs match if both parts do. -/
def both (V : Matching α) (W : Matching β) : Matching (α × β) := fun p a b =>
  V p a.1 b.1 ∧ W p a.2 b.2

/-- Alternatives match if they are the same one and their values match. -/
inductive Alternatives (V : Matching α) (W : Matching β) (p : Pairing) : Sum α β → Sum α β → Prop where
  | inl {a b : α} (left : V p a b) : Alternatives V W p (.inl a) (.inl b)
  | inr {a b : β} (right : W p a b) : Alternatives V W p (.inr a) (.inr b)

/-- Alternatives match if they are the same one and their values match. -/
def either (V : Matching α) (W : Matching β) : Matching (Sum α β) := Alternatives V W

/-- Members of one list match if they are equal. -/
def member (items : List α) : Matching α := fun _ a b => a = b ∧ a ∈ items

theorem same_mono : (same : Matching α).Monotone := fun _ _ _ _ _ h => h

theorem id_mono : id.Monotone := fun _ _ hpq _ _ h => hpq h

theorem member_mono {items : List α} : (member items).Monotone := fun _ _ _ _ _ h => h

theorem option_mono (hV : V.Monotone) : (option V).Monotone := by
  intro p q hpq a b h
  cases h with
  | none => exact .none
  | some h => exact .some (hV hpq h)

theorem list_mono (hV : V.Monotone) : (list V).Monotone := fun _ _ hpq _ _ h =>
  List.Forall₂.imp (fun _ _ h => hV hpq h) h

theorem both_mono (hV : V.Monotone) (hW : W.Monotone) : (both V W).Monotone :=
  fun _ _ hpq _ _ h => ⟨hV hpq h.1, hW hpq h.2⟩

theorem list_member (items : List α) : list (member items) p items items :=
  List.forall₂_same.2 fun _ h => ⟨rfl, h⟩

theorem option_isSome {a b : Option α} (h : option V p a b) : a.isSome = b.isSome := by
  cases h <;> rfl

theorem option_map {a b : Option α} {f g : α → β} (h : option V p a b)
    (hf : ∀ a b, V p a b → W p (f a) (g b)) : option W p (a.map f) (b.map g) := by
  cases h with
  | none => exact .none
  | some h => exact .some (hf _ _ h)

theorem option_bind {a b : Option α} {f g : α → Option β} (h : option V p a b)
    (hf : ∀ a b, V p a b → option W p (f a) (g b)) : option W p (a.bind f) (b.bind g) := by
  cases h with
  | none => exact .none
  | some h => exact hf _ _ h

theorem option_none {b : Option α} (h : option V p none b) : b = none := by
  cases h
  rfl

theorem option_some {a : α} {b : Option α} (h : option V p (some a) b) :
    ∃ c, b = some c ∧ V p a c := by
  cases h with
  | some h => exact ⟨_, rfl, h⟩

theorem option_getD {a b : Option α} {x y : α} (h : option V p a b) (hxy : V p x y) :
    V p (a.getD x) (b.getD y) := by
  cases h with
  | none => exact hxy
  | some h => exact h

theorem option_same {a b : Option α} (h : option same p a b) : a = b := by
  cases h with
  | none => rfl
  | some h => exact congrArg some h

theorem list_cons {x : α} {xs zs : List α} (h : list V p (x :: xs) zs) :
    ∃ y ys, zs = y :: ys ∧ V p x y ∧ list V p xs ys := by
  cases h with
  | cons hx hxs => exact ⟨_, _, rfl, hx, hxs⟩

theorem list_map {xs ys : List α} {f g : α → β} (h : list V p xs ys)
    (hf : ∀ a b, V p a b → W p (f a) (g b)) : list W p (xs.map f) (ys.map g) := by
  induction h with
  | nil => exact .nil
  | cons h _ ih => exact .cons (hf _ _ h) ih

theorem list_append {xs ys xs' ys' : List α} (h : list V p xs ys) (k : list V p xs' ys') :
    list V p (xs ++ xs') (ys ++ ys') := List.rel_append h k

theorem list_length {xs ys : List α} (h : list V p xs ys) : xs.length = ys.length :=
  List.Forall₂.length_eq h

theorem list_getElem? {xs ys : List α} (h : list V p xs ys) (i : Nat) :
    option V p xs[i]? ys[i]? := by
  induction h generalizing i with
  | nil => exact .none
  | cons h _ ih =>
    cases i with
    | zero => exact .some h
    | succ i => exact ih i

theorem list_drop {xs ys : List α} (h : list V p xs ys) (n : Nat) :
    list V p (xs.drop n) (ys.drop n) := List.forall₂_drop n h

theorem list_take {xs ys : List α} (h : list V p xs ys) (n : Nat) :
    list V p (xs.take n) (ys.take n) := List.forall₂_take n h

theorem list_reverse {xs ys : List α} (h : list V p xs ys) : list V p xs.reverse ys.reverse :=
  List.rel_reverse h

theorem list_zipIdx {xs ys : List α} (h : list V p xs ys) (n : Nat) :
    list (both V same) p (xs.zipIdx n) (ys.zipIdx n) := by
  induction h generalizing n with
  | nil => exact .nil
  | cons h _ ih => exact .cons ⟨h, rfl⟩ (ih (n + 1))

theorem list_foldl {σ : Type} {U : Matching σ} {xs ys : List α} {s t : σ} {f g : σ → α → σ}
    (h : list V p xs ys) (hs : U p s t)
    (hf : ∀ s t a b, U p s t → V p a b → U p (f s a) (g t b)) :
    U p (xs.foldl f s) (ys.foldl g t) := by
  induction h generalizing s t with
  | nil => exact hs
  | cons h _ ih => exact ih (hf _ _ _ _ hs h)

theorem list_findIdx? {xs ys : List α} {f g : α → Bool} (h : list V p xs ys)
    (hf : ∀ a b, V p a b → f a = g b) : xs.findIdx? f = ys.findIdx? g := by
  induction h with
  | nil => rfl
  | cons h _ ih => rw [List.findIdx?_cons, List.findIdx?_cons, hf _ _ h, ih]

theorem list_find? {xs ys : List α} {f g : α → Bool} (h : list V p xs ys)
    (hf : ∀ a b, V p a b → f a = g b) : option V p (xs.find? f) (ys.find? g) := by
  induction h with
  | nil => exact .none
  | @cons a b _ _ h _ ih =>
    rw [List.find?_cons, List.find?_cons, hf _ _ h]
    cases g b with
    | true => exact .some h
    | false => exact ih

theorem list_any {xs ys : List α} {f g : α → Bool} (h : list V p xs ys)
    (hf : ∀ a b, V p a b → f a = g b) : xs.any f = ys.any g := by
  induction h with
  | nil => rfl
  | cons h _ ih => rw [List.any_cons, List.any_cons, hf _ _ h, ih]

theorem list_filter {xs ys : List α} {f g : α → Bool} (h : list V p xs ys)
    (hf : ∀ a b, V p a b → f a = g b) : list V p (xs.filter f) (ys.filter g) := by
  induction h with
  | nil => exact .nil
  | @cons a b _ _ h _ ih =>
    rw [List.filter_cons, List.filter_cons, hf _ _ h]
    split
    · exact .cons h ih
    · exact ih

theorem list_mem {V W : Matching α} {xs ys : List α} (h : list V p xs ys)
    (hVW : ∀ a ∈ xs, ∀ b ∈ ys, V p a b → W q a b) : list W q xs ys := by
  induction h with
  | nil => exact .nil
  | cons h _ ih =>
    refine .cons (hVW _ (.head _) _ (.head _) h) (ih fun a ha b hb => ?_)
    exact hVW a (.tail _ ha) b (.tail _ hb)

theorem option_mem {V W : Matching α} {a b : Option α} (h : option V p a b)
    (hVW : ∀ x, a = some x → ∀ y, b = some y → V p x y → W q x y) : option W q a b := by
  cases h with
  | none => exact .none
  | some h => exact .some (hVW _ rfl _ rfl h)

theorem list_filterMap {xs ys : List α} {f g : α → Option β} (h : list V p xs ys)
    (hf : ∀ a b, V p a b → option W p (f a) (g b)) :
    list W p (xs.filterMap f) (ys.filterMap g) := by
  induction h with
  | nil => exact .nil
  | @cons a b _ _ h _ ih =>
    have hab := hf _ _ h
    rw [List.filterMap_cons, List.filterMap_cons]
    generalize f a = x at hab
    generalize g b = y at hab
    cases hab with
    | none => exact ih
    | some h => exact .cons h ih

theorem list_flatMap {xs ys : List α} {f g : α → List β} (h : list V p xs ys)
    (hf : ∀ a b, V p a b → list W p (f a) (g b)) : list W p (xs.flatMap f) (ys.flatMap g) := by
  induction h with
  | nil => exact .nil
  | cons h _ ih =>
    rw [List.flatMap_cons, List.flatMap_cons]
    exact list_append (hf _ _ h) ih

theorem list_same {xs ys : List α} (h : list same p xs ys) : xs = ys := by
  induction h with
  | nil => rfl
  | cons h _ ih => exact congrArg₂ List.cons h ih

theorem list_modify {xs ys : List α} {f g : α → α} (h : list V p xs ys)
    (hf : ∀ a b, V p a b → V p (f a) (g b)) (i : Nat) :
    list V p (xs.modify i f) (ys.modify i g) := by
  induction h generalizing i with
  | nil => cases i <;> exact .nil
  | cons h hs ih =>
    cases i with
    | zero => exact .cons (hf _ _ h) hs
    | succ i => exact .cons h (ih i)

theorem list_set {xs ys : List α} (h : list V p xs ys) (i : Nat) {x y : α} (hx : V p x y) :
    list V p (xs.set i x) (ys.set i y) := by
  induction h generalizing i with
  | nil => exact .nil
  | cons h hs ih =>
    cases i with
    | zero => exact .cons hx hs
    | succ i => exact .cons h (ih i)

theorem list_eraseIdx {xs ys : List α} (h : list V p xs ys) (i : Nat) :
    list V p (xs.eraseIdx i) (ys.eraseIdx i) := by
  induction h generalizing i with
  | nil => exact .nil
  | cons h hs ih =>
    cases i with
    | zero => exact hs
    | succ i => exact .cons h (ih i)

end Matching

/-! ## Values -/

/-- Values that are equal up to the objects they refer to. -/
inductive Value.Matches (p : Pairing) : Value → Value → Prop where
  | undefined : Matches p .undefined .undefined
  | null : Matches p .null .null
  | boolean (b : Bool) : Matches p (.boolean b) (.boolean b)
  | number (n : Number) : Matches p (.number n) (.number n)
  | string (s : String) : Matches p (.string s) (.string s)
  | object {a b : ObjectId} {r s : Option ObjectId} (id : p.ids a b)
      (receiver : Matching.option .id p r s) : Matches p (.object a r) (.object b s)

namespace Value.Matches

variable {p q : Pairing} {v w v' w' : Value} {a b : ObjectId}

theorem mono : Matching.Monotone Value.Matches := by
  intro p q hpq v w h
  cases h with
  | object id receiver => exact .object (hpq id) (Matching.option_mono Matching.id_mono hpq receiver)
  | _ => constructor

theorem ref (h : p.ids a b) : Matches p (.ref a) (.ref b) := .object h .none

theorem ofNat (n : Nat) : Matches p (.ofNat n) (.ofNat n) := .number _

theorem text_eq (h : Matches p v w) : v.text = w.text := by cases h <;> rfl

theorem isNothing_eq (h : Matches p v w) : v.isNothing = w.isNothing := by cases h <;> rfl

theorem isUndefined_eq (h : Matches p v w) : v.isUndefined = w.isUndefined := by cases h <;> rfl

theorem isString_eq (h : Matches p v w) : v.isString = w.isString := by cases h <;> rfl

theorem isTruthy_eq (h : Matches p v w) : v.isTruthy = w.isTruthy := by cases h <;> rfl

theorem unbound (h : Matches p v w) : Matches p v.unbound w.unbound := by
  cases h with
  | object id _ => exact .object id .none
  | _ => constructor

theorem id? (h : Matches p v w) : Matching.option .id p v.id? w.id? := by
  cases h with
  | object id _ => exact .some id
  | _ => exact .none

theorem receiver? (h : Matches p v w) : Matching.option .id p v.receiver? w.receiver? := by
  cases h with
  | object _ receiver => exact receiver
  | _ => exact .none

theorem strictEquals_eq (h : Matches p v w) (h' : Matches p v' w') :
    v.strictEquals v' = w.strictEquals w' := by
  cases h <;> cases h' <;> try rfl
  exact Pairing.beq_eq ‹_› ‹_›

end Value.Matches

/-! ## Objects -/

/-- Links that are equal up to their objects. -/
inductive Link.Matches (p : Pairing) : Link → Link → Prop where
  | plain : Matches p .plain .plain
  | hook (hook : Hook) {a b : ObjectId} (owner : p.ids a b) :
      Matches p (.hook hook a) (.hook hook b)
  | synonym (name : String) {a b : ObjectId} (object : p.ids a b) :
      Matches p (.synonym a name) (.synonym b name)

/-- Variables that are equal up to the objects they refer to, and to hidden values. -/
structure Variable.Matches (p : Pairing) (x y : Variable) : Prop where
  name : x.name = y.name
  value : p.Reveals x → Value.Matches p x.value y.value
  link : Link.Matches p x.link y.link
  key : x.key = y.key
  hidden : x.hidden = y.hidden
  permanent : x.permanent = y.permanent

/-- Functions that are equal up to their scope. -/
inductive Callable.Matches (p : Pairing) : Callable → Callable → Prop where
  | script (tree : FunctionTree) {a b : ObjectId} (scope : p.ids a b) :
      Matches p (.script tree a) (.script tree b)
  | native (name : String) (native : Native) : Matches p (.native name native) (.native name native)

/-- Objects that are equal up to the objects they refer to. -/
structure Object.Matches (p : Pairing) (o o' : Object) : Prop where
  members : Matching.list Variable.Matches p o.members.toList o'.members.toList
  payload : o.payload = o'.payload
  callable : Matching.option Callable.Matches p o.callable o'.callable
  maker : Matching.option .id p o.maker o'.maker
  proto : Matching.option .id p o.proto o'.proto
  additionHook : o.additionHook = o'.additionHook
  callsAsMember : o.callsAsMember = o'.callsAsMember

/-- Slots that are pinned equally often and whose objects match. -/
structure Slot.Matches (p : Pairing) (s t : Slot) : Prop where
  object : Object.Matches p s.object t.object
  pins : s.pins = t.pins

theorem Link.Matches.isHook_eq {p : Pairing} {l l' : Link} (h : Link.Matches p l l') :
    l.isHook = l'.isHook := by cases h <;> rfl

theorem Link.Matches.mono : Matching.Monotone Link.Matches := by
  intro p q hpq x y h
  cases h with
  | plain => exact .plain
  | hook hook owner => exact .hook hook (hpq owner)
  | synonym name object => exact .synonym name (hpq object)

theorem Variable.Matches.mono : Matching.Monotone Variable.Matches := fun _ _ hpq _ _ h =>
  { h with
    value := fun hx => (h.value (Pairing.reveals_of_le hpq hx)).mono hpq
    link := h.link.mono hpq }

theorem Callable.Matches.mono : Matching.Monotone Callable.Matches := by
  intro p q hpq x y h
  cases h with
  | script tree scope => exact .script tree (hpq scope)
  | native name native => exact .native name native

theorem Object.Matches.mono : Matching.Monotone Object.Matches := fun _ _ hpq _ _ h =>
  ⟨Matching.list_mono Variable.Matches.mono hpq h.members, h.payload,
    Matching.option_mono Callable.Matches.mono hpq h.callable,
    Matching.option_mono Matching.id_mono hpq h.maker,
    Matching.option_mono Matching.id_mono hpq h.proto, h.additionHook, h.callsAsMember⟩

theorem Slot.Matches.mono : Matching.Monotone Slot.Matches := fun _ _ hpq _ _ h =>
  ⟨h.object.mono hpq, h.pins⟩

/-! ## Machines -/

/-- Heaps in which paired objects are both missing, or both there and match. -/
def Heap.Matches (p : Pairing) (h h' : Heap) : Prop :=
  ∀ a b, p.ids a b → Matching.option Slot.Matches p (h.slot? a) (h'.slot? b)

/-- Entries of a scope that are equal up to their objects. -/
structure WithEntry.Matches (p : Pairing) (w w' : WithEntry) : Prop where
  object : p.ids w.object w'.object
  everywhere : w.everywhere = w'.everywhere

/-- Activations that are equal up to their objects. -/
structure Frame.Matches (p : Pairing) (f f' : Frame) : Prop where
  kind : f.kind = f'.kind
  locals : p.ids f.locals f'.locals
  scope : p.ids f.scope f'.scope
  withs : Matching.list WithEntry.Matches p f.withs f'.withs
  arguments : Matching.option .id p f.arguments f'.arguments
  callee : Matching.option .id p f.callee f'.callee
  this : Matching.option .id p f.this f'.this
  constructing : f.constructing = f'.constructing

/-- Machines that are equal up to their objects, and read under a key that is not secret.  What was seen
so far and the number of objects that were made since the last collection do not count. -/
structure Machine.Matches (p : Pairing) (m m' : Machine) : Prop where
  heap : Heap.Matches p m.heap m'.heap
  frame : Frame.Matches p m.frame m'.frame
  callers : Matching.list Frame.Matches p m.callers m'.callers
  callDepth : m.callDepth = m'.callDepth
  tryDepth : m.tryDepth = m'.tryDepth
  key : m.key = m'.key
  readable : ¬p.secret m.key
  pending : m.pending = m'.pending
  stopped : m.stopped = m'.stopped
  stepping : m.stepping = m'.stepping
  elements : m.elements = m'.elements
  ticks : m.ticks = m'.ticks
  result : Value.Matches p m.result m'.result
  random : m.random = m'.random
  answers : m.answers = m'.answers
  running : m.running = m'.running
  noted : m.noted = m'.noted

theorem WithEntry.Matches.mono : Matching.Monotone WithEntry.Matches := fun _ _ hpq _ _ h =>
  ⟨hpq h.object, h.everywhere⟩

theorem Frame.Matches.mono : Matching.Monotone Frame.Matches := fun _ _ hpq _ _ h =>
  ⟨h.kind, hpq h.locals, hpq h.scope, Matching.list_mono WithEntry.Matches.mono hpq h.withs,
    Matching.option_mono Matching.id_mono hpq h.arguments,
    Matching.option_mono Matching.id_mono hpq h.callee,
    Matching.option_mono Matching.id_mono hpq h.this, h.constructing⟩

end PageScript
