import PageScript.Proofs.Arrays.Cells
import PageScript.Proofs.LexicalScope

/-! # The history of a heap

Where reads and writes of a variable go stays the same throughout a run, unless the variable is deleted, the
embedding program gives it a hook, or its object is freed.  A history tells how a heap has come about by single
changes, and for which variables one of these was a change of that kind.
-/

set_option autoImplicit false

namespace PageScript

/-! ## Links of one object -/

namespace Object

variable {o : Object} {name other : String} {f : Variable → Variable} {l : Link}

/-- Where reads and writes of the variable of a name go, if there is one. -/
def link? (o : Object) (name : String) : Option Link := (o.find? name).map Variable.link

theorem link?_push (x : Variable) (h : o.link? name = some l) : (o.push x).link? name = some l := by
  obtain ⟨y, hy, hlink⟩ := Option.map_eq_some_iff.1 h
  rw [link?, find?_push, hy, Option.some_or, Option.map_some, hlink]

theorem link?_foldl {α : Type} {step : Object → α → Object}
    (hstep : ∀ o i, Object.link? o name = some l → (step o i).link? name = some l) (items : List α)
    (h : o.link? name = some l) : (items.foldl step o).link? name = some l := by
  induction items generalizing o with
  | nil => exact h
  | cons i items ih => exact ih (hstep o i h)

theorem link?_updateOrPush_of_ne (hf : ∀ x, (f x).name = x.name) (hne : name ≠ other) :
    (o.updateOrPush name f).link? other = o.link? other := by
  rw [link?, find?_updateOrPush_of_ne hf hne, link?]

theorem link?_updateOrPush (hf : ∀ x, (f x).name = x.name ∧ (f x).link = x.link)
    (h : o.link? other = some l) : (o.updateOrPush name f).link? other = some l := by
  have hnames : ∀ x, (f x).name = x.name := fun x => (hf x).1
  by_cases hname : name = other
  · subst hname
    obtain ⟨x, hx, rfl⟩ := Option.map_eq_some_iff.1 h
    rw [link?, find?_updateOrPush hnames, hx, Option.getD_some, Option.map_some, (hf x).2]
  · rwa [link?_updateOrPush_of_ne hnames hname]

theorem link?_put (v : Value) (h : o.link? other = some l) : (o.put name v).link? other = some l :=
  link?_updateOrPush (fun _ => ⟨rfl, rfl⟩) h

theorem link?_putHidden (v : Value) (h : o.link? other = some l) :
    (o.putHidden name v).link? other = some l :=
  link?_updateOrPush (fun _ => ⟨rfl, rfl⟩) h

theorem link?_update (hf : ∀ x, (f x).name = x.name ∧ (f x).link = x.link) (h : o.link? other = some l) :
    (o.update name f).link? other = some l := by
  cases hi : o.members.findIdx? (·.name == name) with
  | none => rwa [show o.update name f = o by rw [update, hi]]
  | some i =>
    have hsame : o.update name f = o.updateOrPush name f := by rw [update, updateOrPush, hi]
    rw [hsame]
    exact link?_updateOrPush hf h

theorem link?_store (v : Value) (h : o.link? other = some l) : (o.store name v).link? other = some l := by
  unfold store
  split
  · exact h
  · exact link?_updateOrPush (fun _ => ⟨rfl, rfl⟩) h

theorem link?_addElement (index : Nat) (h : o.link? other = some l) :
    (o.addElement name index).link? other = some l := by
  rw [link?, find?, members_addElement]
  exact link?_push (.plain name .undefined) h

theorem link?_addArguments (arguments : ObjectId) (h : o.link? other = some l) :
    (Script.Object.addArguments arguments o).link? other = some l := by
  unfold Script.Object.addArguments
  split
  · exact h
  · exact link?_push _ h

/-- Whether a change of an object leaves the link of a variable as it is. -/
def KeepsLink (name : String) (f : Object → Object) : Prop :=
  ∀ o l, Object.link? o name = some l → (f o).link? name = some l

end Object

/-! ## Histories -/

/-- What becomes of a heap by single changes, and at which places a variable is deleted, is given a hook, or is
freed with its object since nothing leads there. -/
inductive Heap.Since (start : Heap) : (Location → Prop) → Heap → Prop where
  | refl : Since start (fun _ => False) start
  | change {gone : Location → Prop} {h : Heap} (before : Since start gone h) (a : ObjectId)
      {f : Object → Object} (keeps : ∀ name, Object.KeepsLink name f) : Since start gone (h.modify a f)
  | discard {gone : Location → Prop} {h : Heap} (before : Since start gone h) (a : ObjectId) (name : String) :
      Since start (fun p => gone p ∨ p = ⟨a, name⟩ ∧ ∀ x, h.at? p = some x → x.permanent = false)
        (h.modify a (·.discard name))
  | setLength {gone : Location → Prop} {h : Heap} (before : Since start gone h) (a : ObjectId)
      (current length : Nat) :
      Since start
        (fun p => gone p ∨
          p.object = a ∧ length < current ∧ ∃ i, ArrayIndex.ofName? p.name = some i ∧ length ≤ i)
        (h.modify a (·.setLength current length))
  | hook {gone : Location → Prop} {h : Heap} (before : Since start gone h) (a : ObjectId) (name : String)
      {f : Object → Object} (others : ∀ other, name ≠ other → Object.KeepsLink other f)
      (hooked : ∀ o, ∃ hook owner, (f o).link? name = some (.hook hook owner)) :
      Since start (fun p => gone p ∨ p = ⟨a, name⟩) (h.modify a f)
  | pin {gone : Location → Prop} {h : Heap} (before : Since start gone h) (a : ObjectId) {f : Slot → Slot}
      (keeps : ∀ s, (f s).object = s.object) : Since start gone (h.modifySlot a f)
  | alloc {gone : Location → Prop} {h : Heap} (before : Since start gone h) (o : Object) :
      Since start gone (h.alloc o).2
  | collect {gone : Location → Prop} {m : Machine} (before : Since start gone m.heap) {n : Heap}
      (sound : m.heap.Sound → n.Sound) (kept : ∀ a, m.Reaches a → n.slot? a = m.heap.slot? a) :
      Since start (fun p => gone p ∨ ¬m.Reaches p.object) n

/-- Whether a heap may become another one by the changes of a run. -/
def Heap.LeadsTo (start n : Heap) : Prop := ∃ gone, start.Since gone n

/-- Where reads and writes of the variable at a place go, if there is one. -/
def Heap.link? (h : Heap) (p : Location) : Option Link := (h.get? p.object).bind (·.link? p.name)

namespace Heap

variable {start h n : Heap} {gone : Location → Prop} {a b : ObjectId} {f f' : Object → Object} {p : Location}
  {l : Link} {q : Pairing}

/-! ### Links -/

theorem Since.sound (hh : start.Since gone h) (hs : start.Sound) : h.Sound := by
  induction hh with
  | refl => exact hs
  | collect _ sound _ ih => exact sound ih
  | alloc _ o ih => exact ih.alloc o
  | _ => rename_i ih; exact ih.modifySlot _

theorem Since.edit (hh : start.Since gone h) (he : Object.Edit q a b f f') : start.LeadsTo (h.modify a f) := by
  cases he with
  | pushGlobal name => exact ⟨_, hh.change a fun _ _ _ => Object.link?_push _⟩
  | pushMember name value => exact ⟨_, hh.change a fun _ _ _ => Object.link?_push _⟩
  | declare name =>
    refine ⟨_, hh.change a fun other o l ho => ?_⟩
    dsimp only
    split
    · exact ho
    · exact Object.link?_push _ ho
  | putHidden name special value => exact ⟨_, hh.change a fun _ _ _ => Object.link?_putHidden _⟩
  | store name value => exact ⟨_, hh.change a fun _ _ _ => Object.link?_store _⟩
  | bindFunction name id => exact ⟨_, hh.change a fun _ _ _ => Object.link?_update fun _ => ⟨rfl, rfl⟩⟩
  | makePermanent name => exact ⟨_, hh.change a fun _ _ _ => Object.link?_update fun _ => ⟨rfl, rfl⟩⟩
  | discard name => exact ⟨_, hh.discard a name⟩
  | addElement name index => exact ⟨_, hh.change a fun _ _ _ => Object.link?_addElement index⟩
  | makeArray length =>
    let guarded (x : Variable) : Variable :=
      { x with link := .hook .arrayLength a, hidden := true, permanent := true }
    have hnames : ∀ x, (guarded x).name = x.name := fun _ => rfl
    refine ⟨_, hh.hook a "length" (fun other hne o l ho => ?_) fun o => ⟨.arrayLength, a, ?_⟩⟩
    · exact (Object.link?_updateOrPush_of_ne hnames hne).trans ho
    · exact congrArg (Option.map Variable.link) (Object.find?_updateOrPush hnames _)
  | setPayload payload => exact ⟨_, hh.change a fun _ _ _ ho => ho⟩
  | pushElements elements =>
    exact ⟨_, hh.change a fun _ _ _ => Object.link?_foldl (fun _ _ => Object.link?_push _) _⟩
  | pushValues values =>
    exact ⟨_, hh.change a fun _ _ _ => Object.link?_foldl (fun _ _ => Object.link?_push _) _⟩
  | setCallsAsMember on => exact ⟨_, hh.change a fun _ _ _ ho => ho⟩

theorem Since.fill (hh : start.Since gone h) (hf : Object.Fill q f f') : start.LeadsTo (h.modify a f) := by
  cases hf with
  | put name id => exact ⟨_, hh.change a fun _ _ _ => Object.link?_put _⟩
  | putHidden name value => exact ⟨_, hh.change a fun _ _ _ => Object.link?_putHidden _⟩
  | becomeArguments parameters function locals args =>
    refine ⟨_, hh.change a fun name o l ho => Object.link?_putHidden _ ?_⟩
    exact Object.link?_foldl (fun _ _ => Object.link?_push _) _ ho
  | bindParameters parameters arguments args =>
    refine ⟨_, hh.change a fun name o l ho => Object.link?_addArguments _ ?_⟩
    exact Object.link?_foldl (fun _ _ => Object.link?_put _) _ ho

theorem Since.hooking (hh : start.Since gone h) (hf : Object.Hooking q f f') :
    start.LeadsTo (h.modify a f) := by
  cases hf with
  | @addHook name behavior c d owner =>
    let hooked (x : Variable) : Variable := { x with link := .hook (.host behavior) c }
    have hnames : ∀ x, (hooked x).name = x.name := fun _ => rfl
    refine ⟨_, hh.hook a name (fun other hne o l ho => ?_) fun o => ⟨.host behavior, c, ?_⟩⟩
    · exact (Object.link?_updateOrPush_of_ne hnames hne).trans ho
    · exact congrArg (Option.map Variable.link) (Object.find?_updateOrPush hnames _)
  | setAdditionHook hook => exact ⟨_, hh.change a fun _ _ _ ho => ho⟩

end Heap

/-! ## Runs -/

namespace Invariant

variable {start : Heap} {config : Config} {host : Host} {may : Permit} {m : Machine}

end Invariant

namespace Script

variable {start : Heap} {config : Config} {host : Host} {m : Machine}

end Script

end PageScript
