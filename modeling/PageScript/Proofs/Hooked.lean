import PageScript.Proofs.Alike
import PageScript.Proofs.Collection.Pins
import PageScript.Proofs.Hidden
import PageScript.Proofs.Reachable
import PageScript.Proofs.Reads

/-! # Variables with hooks

Reads and writes of a variable that the embedding program gave a hook go to that hook.  The value that
stands in the variable plays no part any more: machines that differ only there are alike, whatever scripts
do, and no script replaces it but by the function of a declaration.  Variables named `prototype` are left
out, as objects are made with the prototype that stands there without a look at its hook.
-/

set_option autoImplicit false

namespace PageScript

/-! ## Reads and writes -/

/-- Whether a target stands for the variable that a place comes to. -/
def Target.StandsFor (m : Machine) (place : Location) : Target → Prop
  | .variable found => m.heap.resolve found = place
  | .member object name => m.heap.owns object name = true ∧ m.heap.resolve ⟨object, name⟩ = place

namespace Script

variable {m : Machine} {place : Location} {x : Variable} {behavior : String} {owner : ObjectId}

/-- A hook is handed each value that is written to its variable. -/
theorem writeVariable_hooked (hx : m.heap.own? (m.heap.resolve place).object (m.heap.resolve place).name = some x)
    (hlink : x.link = .hook (.host behavior) owner) (v : Value) (e : Engine) :
    writeVariable place v e m = e.perform (.writeHook behavior owner v.unbound) m := by
  unfold writeVariable
  rw [bind_read, bind_read, hx, Option.map_some, hlink]
  rfl

/-- An assignment hands its value to the hook and goes on with the value itself. -/
theorem writeTarget_hooked {target : Target} (htarget : target.StandsFor m place)
    (hx : m.heap.own? place.object place.name = some x) (hlink : x.link = .hook (.host behavior) owner)
    (v : Value) (e : Engine) :
    writeTarget target v e m = (perform (.writeHook behavior owner v.unbound) >>= fun _ => pure v) e m := by
  cases target with
  | «variable» found =>
    cases htarget
    exact bind_congr_left (writeVariable_hooked hx hlink v e) _
  | member object name =>
    obtain ⟨howns, rfl⟩ := htarget
    show (if m.heap.owns object name = true then _ else _ : Script Value) e m = _
    rw [if_pos howns]
    exact bind_congr_left (y := writeVariable ⟨object, name⟩ v)
      (z := perform (.writeHook behavior owner v.unbound)) (writeVariable_hooked hx hlink v e) fun _ => pure v

end Script

/-! ## The value that stands in a variable -/

/-- Whether a hook of the embedding program answers for a variable. -/
def Link.isForeign : Link → Bool
  | .hook (.host _) _ => true
  | _ => false

/-- Whether some value stands in a variable, if it has a name and a hook of the embedding program.  The
function of a declaration may have replaced it. -/
def Variable.Keeps (name : String) (v : Value) (x : Variable) : Prop :=
  x.name = name → x.link.isForeign = true → x.value = v ∨ ∃ f, x.value = .ref f

/-- Whether some value stands in the variables of a name that have a hook of the embedding program. -/
def Object.Keeps (name : String) (v : Value) (o : Object) : Prop := ∀ x ∈ o.members, x.Keeps name v

/-- Whether some value stands in the variables of an object that have a name and a hook of the embedding
program. -/
def Heap.Keeps (a : ObjectId) (name : String) (v : Value) (h : Heap) : Prop :=
  ∀ o, h.get? a = some o → o.Keeps name v

namespace Object

variable {o : Object} {name other : String} {v : Value} {x : Variable} {f : Variable → Variable}

theorem Keeps.of_subset {n : Object} (h : o.Keeps name v) (hsub : ∀ x ∈ n.members, x ∈ o.members) :
    n.Keeps name v := fun x hx => h x (hsub x hx)

theorem Keeps.push (h : o.Keeps name v) (hx : x.link.isForeign = false) : (o.push x).Keeps name v := by
  intro y hy
  rcases Array.mem_push.1 hy with hy | rfl
  · exact h y hy
  · intro _ hforeign
    rw [hx] at hforeign
    cases hforeign

theorem Keeps.foldl {α : Type} {step : Object → α → Object}
    (hstep : ∀ o i, Object.Keeps name v o → (step o i).Keeps name v) (items : List α)
    (h : o.Keeps name v) : (items.foldl step o).Keeps name v := by
  induction items generalizing o with
  | nil => exact h
  | cons i items ih => exact ih (hstep o i h)

theorem Keeps.update (h : o.Keeps name v) (hf : ∀ x, x.Keeps name v → (f x).Keeps name v) :
    (o.update other f).Keeps name v := by
  unfold Object.update
  split
  · intro y hy
    obtain ⟨x, hx, rfl | rfl⟩ := of_mem_modify hy
    · exact h y hx
    · exact hf x (h x hx)
  · exact h

theorem Keeps.updateOrPush (h : o.Keeps name v)
    (hf : ∀ x, o.find? other = some x ∨ x = .plain other .undefined → x.Keeps name v → (f x).Keeps name v) :
    (o.updateOrPush other f).Keeps name v := by
  intro y hy
  rcases of_mem_updateOrPush hy with hy | ⟨x, rfl, hx | rfl⟩
  · exact h y hy
  · exact hf x (.inl hx) (h x (Array.mem_of_find?_eq_some hx))
  · exact hf _ (.inr rfl) fun _ hforeign => nomatch hforeign

/-- A write that no hook answers for changes no variable that has one. -/
theorem Keeps.store (h : o.Keeps name v) (w : Value) : (o.store other w).Keeps name v := by
  unfold Object.store
  split
  · exact h
  · rename_i hplain
    refine h.updateOrPush fun x hx _ _ (hforeign : x.link.isForeign = true) => ?_
    rcases hx with hx | rfl
    · cases hlink : x.link with
      | hook hook owner =>
        rw [hx, Option.map_some, hlink] at hplain
        exact absurd rfl (hplain hook owner)
      | _ =>
        rw [hlink] at hforeign
        cases hforeign
    · cases hforeign

theorem Keeps.discard (h : o.Keeps name v) : (o.discard other).Keeps name v :=
  h.of_subset fun _ => mem_of_mem_discard

theorem Keeps.setLength (h : o.Keeps name v) (current length : Nat) :
    (o.setLength current length).Keeps name v := by
  unfold Object.setLength
  split
  · exact h.of_subset fun x hx => (Array.mem_filter.1 hx).1
  · exact h

theorem Edit.keeps {p : Pairing} {a b : ObjectId} {f f' : Object → Object} (he : Edit p a b f f')
    (hlength : name ≠ "length") (hprototype : name ≠ "prototype") (h : o.Keeps name v) :
    (f o).Keeps name v := by
  cases he with
  | pushGlobal other => exact h.push rfl
  | pushMember other value => exact h.push rfl
  | declare other =>
    dsimp only
    split
    · exact h
    · exact h.push rfl
  | putHidden other special value =>
    refine h.updateOrPush fun x hx _ hname => ?_
    have hother : x.name = other := by
      rcases hx with hx | rfl
      · have hx : o.members.find? (·.name == other) = some x := hx
        have hbeq := Array.find?_some hx
        exact beq_iff_eq.1 hbeq
      · rfl
    have hname : x.name = name := hname
    rcases special with rfl | rfl
    · exact absurd (hname.symm.trans hother) hlength
    · exact absurd (hname.symm.trans hother) hprototype
  | store other value => exact h.store _
  | bindFunction other id => exact h.update fun x _ _ _ => .inr ⟨_, rfl⟩
  | makePermanent other => exact h.update fun x hx => hx
  | discard other => exact h.discard
  | addElement other index =>
    have hpush : (o.push (.plain other .undefined)).Keeps name v := h.push rfl
    unfold Object.addElement
    dsimp only
    split <;> exact hpush
  | makeArray length => exact Keeps.updateOrPush h fun x _ _ _ hforeign => nomatch hforeign
  | setPayload payload => exact h
  | pushElements elements => exact .foldl (fun o _ ho => ho.push rfl) _ h
  | pushValues values => exact .foldl (fun o _ ho => ho.push rfl) _ h
  | setCallsAsMember on => exact h

end Object

/-- Whether an object that is not freed keeps some value in the variables of a name that have a hook of the
embedding program.  It is pinned, or an intrinsic object. -/
structure Heap.Holds (a : ObjectId) (name : String) (v : Value) (pins : Nat) (h : Heap) : Prop where
  sound : h.Sound
  object : ∃ o, h.get? a = some o ∧ o.Keeps name v
  pinned : h.pinsAt a = pins
  stays : 0 < pins ∨ a.index ≤ 14

namespace Heap.Holds

variable {h : Heap} {a b : ObjectId} {name : String} {v : Value} {pins : Nat}

theorem keeps (hh : h.Holds a name v pins) : h.Keeps a name v := by
  obtain ⟨o, ho, hkeeps⟩ := hh.object
  intro n hn
  cases ho.symm.trans hn
  exact hkeeps

theorem isLive (hh : h.Holds a name v pins) : h.isLive a = true := by
  obtain ⟨o, ho, -⟩ := hh.object
  exact isLive_of_get? ho

theorem modify (hh : h.Holds a name v pins) {f : Object → Object}
    (hf : b = a → ∀ o, Object.Keeps name v o → (f o).Keeps name v) :
    (h.modify b f).Holds a name v pins := by
  obtain ⟨o, ho, hkeeps⟩ := hh.object
  refine ⟨hh.sound.modifySlot _, ?_, (pinsAt_modify f).trans hh.pinned, hh.stays⟩
  rw [Heap.modify, get?_modifySlot]
  split
  · obtain ⟨s, hs, rfl⟩ := Option.map_eq_some_iff.1 ho
    exact ⟨f s.object, by rw [hs]; rfl, hf ‹_› _ hkeeps⟩
  · exact ⟨o, ho, hkeeps⟩

theorem object_modifySlot (hh : h.Holds a name v pins) {f : Slot → Slot}
    (hf : ∀ s, (f s).object = s.object) : ∃ o, (h.modifySlot b f).get? a = some o ∧ o.Keeps name v := by
  obtain ⟨o, ho, hkeeps⟩ := hh.object
  refine ⟨o, ?_, hkeeps⟩
  rw [get?_modifySlot]
  split
  · obtain ⟨s, hs, rfl⟩ := Option.map_eq_some_iff.1 ho
    rw [hs, Option.map_some, hf]
  · exact ho

theorem pin (hh : h.Holds a name v pins) (b : ObjectId) :
    (h.pin b).Holds a name v ((h.pin b).pinsAt a) where
  sound := hh.sound.modifySlot _
  object := hh.object_modifySlot fun _ => rfl
  pinned := rfl
  stays := hh.stays.imp_left fun hpos => by
    rw [pinsAt_pin, hh.pinned]
    split <;> omega

theorem unpin {n : Heap} (hh : h.Holds a name v pins) (hn : n.Holds a name v ((h.pin b).pinsAt a)) :
    (n.unpin b).Holds a name v pins where
  sound := hn.sound.modifySlot _
  object := hn.object_modifySlot fun _ => rfl
  pinned := (pinsAt_unpin_of_pin hn.pinned).trans hh.pinned
  stays := hh.stays

theorem alloc (hh : h.Holds a name v pins) (o : Object) : (h.alloc o).2.Holds a name v pins := by
  obtain ⟨n, hn, hkeeps⟩ := hh.object
  refine ⟨hh.sound.alloc o, ⟨n, ?_, hkeeps⟩, (pinsAt_alloc hh.sound o).trans hh.pinned, hh.stays⟩
  rw [get?, slot?_alloc hh.sound, if_neg (alloc_ne hh.sound hh.isLive o)]
  exact hn

theorem reaches {m : Machine} (hh : m.heap.Holds a name v pins) : m.Reaches a := by
  obtain ⟨o, ho, -⟩ := hh.object
  obtain ⟨s, hs, -⟩ := Option.map_eq_some_iff.1 ho
  rcases hh.stays with hpos | hintrinsic
  · exact .pinned hs (pinsAt_of_slot? hs ▸ hh.pinned ▸ hpos)
  · exact .intrinsic a.index hintrinsic

theorem emptied {m : Machine} {n : Heap} (hh : m.heap.Holds a name v pins) (hn : n.Sound)
    (hreach : ∀ b, m.Reaches b → n.slot? b = m.heap.slot? b) : n.Holds a name v pins := by
  have hslot := hreach a hh.reaches
  refine ⟨hn, ?_, ?_, hh.stays⟩
  · rw [get?, hslot]
    exact hh.object
  · rw [pinsAt, hslot]
    exact hh.pinned

end Heap.Holds

/-! ## Runs -/

/-- All of the interface but for keeping objects, giving them hooks, and replacing what stands in them. -/
abbrev Permit.idle : Permit := ⟨fun _ => True, False, True, True, False, True, False⟩

/-- A value stands in a variable as each task starts, as it ends, and as each built-in function begins. -/
def Check.keeps (a : ObjectId) (name : String) (v : Value) : Check where
  task _ m o := m.heap.Keeps a name v ∧ o.machine.heap.Keeps a name v
  native m := m.heap.Keeps a name v

namespace Invariant

variable {a : ObjectId} {name : String} {v : Value} {hlength : name ≠ "length"}
  {hprototype : name ≠ "prototype"} {config : Config} {host : Host} {g : Nat}

end Invariant

namespace Interpreter

variable {config : Config} {host : Host} {m : Machine} {a : ObjectId} {name : String} {x : Variable} {v : Value}

end Interpreter

end PageScript
