import PageScript.Proofs.Hidden
import PageScript.Proofs.Simulation.Checked

/-! # Chains of prototypes

A walk up a chain of prototypes ends only if the chain does.  A run gives an object its prototype as it
makes the object, when nothing leads to it yet.  The one prototype that it changes afterwards is that of a
new `arguments` object, whose chain is then as long as that of any other plain object.  So chains never
run in circles, and a collection, which keeps the prototypes of what it keeps, only makes them fewer.
-/

set_option autoImplicit false

namespace PageScript

/-! ## Chains that end -/

namespace Heap

variable {h h' : Heap} {a : ObjectId}

/-- Whether every walk up a chain of prototypes comes to an end. -/
def ChainsEnd (h : Heap) : Prop := ∀ id, ∃ k, h.along k (some id) = none

/-- Whether the chain of prototypes of an object comes to an end, step by step. -/
abbrev Ends (h : Heap) : ObjectId → Prop := Acc fun parent child => h.proto? child = some parent

theorem along_succ (k : Nat) (id : ObjectId) : h.along (k + 1) (some id) = h.along k (h.proto? id) := by
  rw [along, Option.bind_some, proto?]
  cases h.get? id with
  | none => exact (h.along_none k).symm
  | some o => rfl

theorem proto?_eq (b : ObjectId) : h.proto? b = (h.slot? b).bind fun s => s.object.proto := by
  rw [proto?, get?]
  cases h.slot? b <;> rfl

theorem proto?_modifySlot (f : Slot → Slot) (b : ObjectId) :
    (h.modifySlot a f).proto? b
      = if a = b then (h.slot? b).bind fun s => (f s).object.proto else h.proto? b := by
  rw [proto?_eq, slot?_modifySlot]
  split
  · rw [Option.bind_map]
    rfl
  · rw [proto?_eq]

/-- The prototype of an object after it was changed, if it is not that of plain objects now. -/
theorem proto?_of_modify {f : Object → Object}
    (hf : ∀ o, (f o).makeup = o.makeup ∨ (f o).makeup = (o.callable, some Intrinsic.object))
    {child parent : ObjectId} (hp : (h.modify a f).proto? child = some parent) :
    h.proto? child = some parent ∨ (child = a ∧ parent = Intrinsic.object) := by
  rw [Heap.modify, proto?_modifySlot] at hp
  split at hp
  · rename_i hac
    obtain ⟨s, hs, hproto⟩ := Option.bind_eq_some_iff.1 hp
    rcases hf s.object with hsame | hplain
    · left
      rw [proto?_eq, hs]
      exact (Object.proto_of_makeup hsame).symm.trans hproto
    · exact .inr ⟨hac.symm, (Option.some.inj ((congrArg Prod.snd hplain).symm.trans hproto)).symm⟩
  · exact .inl hp

theorem proto?_of_dead (ha : h.isLive a = false) : h.proto? a = none := by
  rw [proto?, (h.get?_eq_none_iff a).2 ha]
  rfl

theorem Ends.along (ha : h.Ends a) : ∃ k, h.along k (some a) = none := by
  induction ha with
  | intro a _ ih =>
    cases hp : h.proto? a with
    | none => exact ⟨1, by rw [along_succ, hp, along_none]⟩
    | some parent =>
      obtain ⟨k, hk⟩ := ih parent hp
      exact ⟨k + 1, by rw [along_succ, hp, hk]⟩

theorem ends_of_along {k : Nat} (hk : h.along k (some a) = none) : h.Ends a := by
  induction k generalizing a with
  | zero =>
    have hdead : h.isLive a = false := by
      rw [Heap.along, Option.filter_some] at hk
      by_contra hlive
      rw [if_pos (Bool.not_eq_false _ ▸ hlive)] at hk
      cases hk
    exact ⟨_, fun parent hp => by rw [proto?_of_dead hdead] at hp; cases hp⟩
  | succ k ih => exact ⟨_, fun parent hp => ih (by rw [← hp, ← along_succ, hk])⟩

theorem chainsEnd_iff : h.ChainsEnd ↔ ∀ a, h.Ends a :=
  ⟨fun hends a => (hends a).elim fun _ hk => ends_of_along hk, fun hends a => (hends a).along⟩

/-! ## Heaps with chains that end -/

/-- Whether the chains of prototypes come to an end, without a freed object on them, and the prototype of
plain objects has none. -/
structure Rooted (h : Heap) : Prop where
  live : ∀ {child parent}, h.proto? child = some parent → h.isLive parent = true
  root : h.proto? Intrinsic.object = none
  ends : h.ChainsEnd

namespace Rooted

/-- Chains still end when there are fewer of them. -/
theorem fewer (hr : h.Rooted) (hlive : ∀ {child parent}, h'.proto? child = some parent → h'.isLive parent = true)
    (hsub : ∀ {child parent}, h'.proto? child = some parent → h.proto? child = some parent) : h'.Rooted where
  live := hlive
  root := Option.eq_none_iff_forall_ne_some.2 fun parent hp => by
    have hroot := hsub hp
    rw [hr.root] at hroot
    cases hroot
  ends := chainsEnd_iff.2 fun a =>
    Subrelation.accessible (fun hp => hsub hp) (chainsEnd_iff.1 hr.ends a)

theorem modifySlot (hr : h.Rooted) (a : ObjectId) {f : Slot → Slot}
    (hf : ∀ s, (f s).object.proto = s.object.proto) : (h.modifySlot a f).Rooted := by
  have hsame : ∀ b, (h.modifySlot a f).proto? b = h.proto? b := fun b => by
    rw [proto?_modifySlot, proto?_eq]
    simp only [hf, ite_self]
  refine hr.fewer (fun {child parent} hp => ?_) fun {child parent} hp => hsame child ▸ hp
  rw [isLive_modifySlot]
  exact hr.live (hsame child ▸ hp)

theorem modify (hr : h.Rooted) (a : ObjectId) {f : Object → Object} (hf : ∀ o, (f o).makeup = o.makeup) :
    (h.modify a f).Rooted :=
  hr.modifySlot a fun s => Object.proto_of_makeup (hf s.object)

/-- An object may come to hang from the prototype of plain objects, which hangs from nothing. -/
theorem rehang (hr : h.Rooted) (ha : a ≠ Intrinsic.object) (hroot : h.isLive Intrinsic.object = true)
    {f : Object → Object}
    (hf : ∀ o, (f o).makeup = o.makeup ∨ (f o).makeup = (o.callable, some Intrinsic.object)) :
    (h.modify a f).Rooted := by
  have hrootless : (h.modify a f).proto? Intrinsic.object = none :=
    Option.eq_none_iff_forall_ne_some.2 fun parent hp => by
      rcases proto?_of_modify hf hp with hp | ⟨he, -⟩
      · rw [hr.root] at hp
        cases hp
      · exact ha he.symm
  have htop : (h.modify a f).Ends Intrinsic.object :=
    ⟨_, fun parent hp => by rw [hrootless] at hp; cases hp⟩
  refine ⟨fun {child parent} hp => ?_, hrootless, chainsEnd_iff.2 fun b => ?_⟩
  · rw [Heap.modify, isLive_modifySlot]
    rcases proto?_of_modify hf hp with hp | ⟨-, rfl⟩
    · exact hr.live hp
    · exact hroot
  · induction chainsEnd_iff.1 hr.ends b with
    | intro b _ ih =>
      refine ⟨_, fun parent hp => ?_⟩
      rcases proto?_of_modify hf hp with hp | ⟨-, rfl⟩
      · exact ih parent hp
      · exact htop

/-- Nothing leads to a new object yet. -/
theorem alloc (hr : h.Rooted) (hs : h.Sound) {o : Object} (hroot : h.isLive Intrinsic.object = true)
    (ho : ∀ parent, o.proto = some parent → h.isLive parent = true) : (h.alloc o).2.Rooted := by
  have hproto : ∀ b, (h.alloc o).2.proto? b = if (h.alloc o).1 = b then o.proto else h.proto? b := fun b => by
    rw [proto?, get?, slot?_alloc hs]
    split <;> rfl
  have hlive : ∀ b, h.isLive b = true → (h.alloc o).2.isLive b = true := fun b hb => by
    rw [isLive, slot?_alloc hs]
    split
    · rfl
    · exact hb
  have hold : ∀ b, h.isLive b = true → (h.alloc o).2.proto? b = h.proto? b := fun b hb => by
    rw [hproto, if_neg (alloc_ne hs hb o)]
  -- The chains of live objects stay on live objects, so that the new one is not on them.
  have hends : ∀ b, h.isLive b = true → (h.alloc o).2.Ends b := fun b hb => by
    induction chainsEnd_iff.1 hr.ends b with
    | intro b _ ih =>
      refine ⟨_, fun parent hp => ?_⟩
      rw [hold b hb] at hp
      exact ih parent hp (hr.live hp)
  refine ⟨fun {child parent} hp => ?_, by rw [hold _ hroot, hr.root], chainsEnd_iff.2 fun b => ?_⟩
  · rw [hproto] at hp
    split at hp
    · exact hlive _ (ho parent hp)
    · exact hlive _ (hr.live hp)
  · refine ⟨_, fun parent hp => hends parent ?_⟩
    rw [hproto] at hp
    split at hp
    · exact ho parent hp
    · exact hr.live hp

theorem collect {m : Machine} (hr : m.heap.Rooted) : m.collect.2.heap.Rooted := by
  have hslot : ∀ b, m.collect.2.heap.slot? b = _ := fun b => Heap.slot?_sweep b
  have hsub : ∀ {child parent}, m.collect.2.heap.proto? child = some parent →
      m.heap.proto? child = some parent ∧ (m.heap.marked m.roots)[child.index]?.getD false = true := by
    intro child parent hp
    rw [proto?, get?, hslot] at hp
    split at hp
    · exact ⟨hp, by assumption⟩
    · cases hp
  refine hr.fewer (fun {child parent} hp => ?_) fun hp => (hsub hp).1
  -- The marker goes from a marked object to its prototype.
  obtain ⟨hp, hmark⟩ := hsub hp
  obtain ⟨o, ho, hproto⟩ := Option.bind_eq_some_iff.1 hp
  have hchild : (m.heap.marked m.roots)[child.index]? = some true := by
    cases hv : (m.heap.marked m.roots)[child.index]? with
    | none => rw [hv] at hmark; cases hmark
    | some b => rw [hv] at hmark; rw [show b = true from hmark]
  have hparent := Heap.marked_field hchild ho (Object.RefersTo.proto hproto).mem_references (hr.live hp)
  rw [isLive, hslot, hparent, Option.getD_some, if_pos rfl]
  exact hr.live hp

end Rooted

end Heap

/-! ## Runs -/

theorem Bracket.mono {p q : Pairing} (hpq : p ≤ q) {enter enter' leave leave' : Machine → Machine}
    (h : Bracket p enter enter' leave leave') : Bracket q enter enter' leave leave' := by
  cases h with
  | pin id => exact .pin (hpq id)
  | guard => exact .guard
  | withObject id => exact .withObject (hpq id)

theorem Bracket.rooted {p : Pairing} {enter enter' leave leave' : Machine → Machine}
    (h : Bracket p enter enter' leave leave') {m : Machine} (hr : m.heap.Rooted) :
    (enter m).heap.Rooted ∧ (leave m).heap.Rooted := by
  cases h with
  | pin id => exact ⟨hr.modifySlot _ fun _ => rfl, hr.modifySlot _ fun _ => rfl⟩
  | _ => exact ⟨hr, hr⟩

/-- A machine as a renaming of itself, with chains of prototypes that end. -/
structure Grounding (p : Pairing) (m m' : Machine) : Prop where
  renamed : Renamed (fun _ => False) p m m'
  same : m' = m
  equal : p ≤ .identity
  rooted : m.heap.Rooted

namespace Grounding

variable {p : Pairing} {m m' : Machine} {a b : ObjectId} {f f' : Object → Object}

/-- What is done to both machines alike, and leaves the chains as they are. -/
theorem step (h : Grounding p m m') (f : Machine → Machine) (hf : Renamed (fun _ => False) p (f m) (f m'))
    (hr : (f m).heap.Rooted) : Grounding p (f m) (f m') := ⟨hf, by rw [h.same], h.equal, hr⟩

theorem modify (h : Grounding p m m') (hab : p.ids a b)
    (hf : ∀ o o', Object.Matches p o o' → Object.Matches p (f o) (f' o'))
    (hr : (m.heap.modify a f).Rooted) :
    Grounding p { m with heap := m.heap.modify a f } { m' with heap := m'.heap.modify b f' } where
  renamed := h.renamed.edit hab hf
  same := by
    have hheap : m.heap.modify a f' = m.heap.modify a f := Heap.modify_congr fun o ho => by
      have hmatch := h.renamed.matched.heap.get? hab
      rw [h.same, ← Pairing.eq_of_identity (h.equal hab), ho] at hmatch
      cases hmatch with
      | some hmatch => exact ((hf o o hmatch).mono h.equal).eq.symm
    rw [h.same, ← Pairing.eq_of_identity (h.equal hab), hheap]
  equal := h.equal
  rooted := hr

theorem live_root (h : Grounding p m m') : m.heap.isLive Intrinsic.object = true :=
  h.renamed.live _ _ p.intrinsic_object

theorem alloc (h : Grounding p m m') {o o' : Object} (ho : Object.Matches p o o') :
    ∃ q, p ≤ q ∧ q.ids (m.heap.alloc o).1 (m'.heap.alloc o').1 ∧
      Grounding q { m with heap := (m.heap.alloc o).2 } { m' with heap := (m'.heap.alloc o').2 } := by
  obtain ⟨q, hq, hnew, hrenamed, hids⟩ := h.renamed.alloc ho
  have hsame : o' = o := (ho.mono h.equal).eq.symm
  refine ⟨q, hq, hnew, hrenamed, by rw [h.same, hsame], ⟨fun a b hab => ?_, ?_, ?_⟩, ?_⟩
  · rcases hids a b hab with hab | ⟨rfl, rfl⟩
    · exact h.equal hab
    · rw [h.same, hsame]
      rfl
  · exact h.equal.secret.trans hq.secret.symm
  · exact h.equal.veiled.trans hq.veiled.symm
  · refine h.rooted.alloc h.renamed.left h.live_root fun parent hparent => ?_
    obtain ⟨parent', -, hpaired⟩ := Matching.option_some (hparent ▸ ho.proto)
    exact h.renamed.live _ _ hpaired

theorem withResult (h : Grounding p m m') {v w : Value} (hv : Value.Matches p v w) :
    Grounding p { m with result := v } { m' with result := w } := by
  obtain rfl := (hv.mono h.equal).eq
  exact h.step ({ · with result := v }) { h.renamed with matched := { h.renamed.matched with result := hv } }
    h.rooted

/-- What a collection may leave behind is what the machine can come to. -/
theorem collected (h : Grounding p m m') {hp : Heap} (hheap : hp = m.heap ∨ hp = m.collect.2.heap)
    (es : List Event) :
    Grounding (p.reached m m) { m with heap := hp, events := es } { m with heap := hp, events := es } := by
  have hslot : ∀ a, m.Reaches a → hp.slot? a = m.heap.slot? a := fun a ha => by
    rcases hheap with rfl | rfl
    · rfl
    · exact m.slot?_collect ha
  have hsound : hp.Sound := by
    rcases hheap with rfl | rfl
    · exact h.renamed.left
    · exact h.renamed.left.sweep _
  have hrooted : hp.Rooted := by
    rcases hheap with rfl | rfl
    · exact h.rooted
    · exact h.rooted.collect
  have hmatched := (h.same ▸ h.renamed.matched : Machine.Matches p m m).reached hslot hslot
  refine ⟨⟨{ hmatched with }, h.renamed.secret, ?_, hsound, hsound, rfl⟩, rfl,
    ⟨fun _ _ hab => h.equal hab.1, h.equal.secret, h.equal.veiled⟩, hrooted⟩
  rintro a b ⟨hab, ha, -⟩
  show (hp.slot? a).isSome = true
  rw [hslot a ha]
  exact h.renamed.live a b hab

end Grounding

/-- Chains of prototypes that end, in a run beside itself. -/
def Simulation.grounding : Simulation where
  Ghost := Unit
  inv _ _ := Grounding
  spent _ m m' := m' = m ∧ m.heap.Rooted
  alike es es' := es' = es
  text := True
  sound _ := True
  stray _ := True
  shows _ := True
  inside _ _ := True
  room _ _ := True
  depth _ := True
  lengths _ _ := True
  made a := 14 < a.index
  tidies := False
  unique := False
  matched h := h.renamed.matched
  seen h := by rw [h.same]
  code _ _ _ _ _ := trivial
  parsed _ _ _ := trivial
  spend h := ⟨h.same, h.rooted⟩
  goOn h := h
  halt h := h
  settle h _ := h
  edit h hab he _ := h.modify hab (fun _ _ ho => he.matches hab ho) (h.rooted.modify _ he.makeup_eq)
  fill {g p m m' a b f f'} h hab hmade hf _ := by
    refine h.modify hab (fun _ _ ho => hf.matches ho) (h.rooted.rehang ?_ h.live_root hf.makeup_or)
    rintro rfl
    exact absurd hmade (by decide)
  makes {g p m m'} o h := by
    -- A new object takes the place of no intrinsic one, as these are all live.
    by_contra hbound
    have hlive := h.renamed.live _ _ (p.intrinsic _ (Nat.not_lt.1 hbound))
    exact Heap.alloc_ne h.renamed.left hlive o rfl
  lengthHook h _ := ⟨(), trivial, h, fun _ hn => hn, fun hn => hn⟩
  setLength current length h hab _ :=
    h.modify hab (fun _ _ ho => ho.setLength current length)
      (h.rooted.modify _ fun _ => Object.setLength_makeup ..)
  alloc h ho _ _ := h.alloc ho
  see event _ h := h.step (fun m => { m with events := event :: m.events }) (h.renamed.see event) h.rooted
  draw x h := h.step ({ · with random := x })
    ((Simulation.ofRenaming _).draw (g := ()) x h.renamed) h.rooted
  note entry h _ _ := h.step (·.note entry) { h.renamed with matched := h.renamed.matched.note entry } h.rooted
  uncaught entry h := by
    refine h.step (fun m => if m.pending.isNone then m.note entry else m)
      ((Simulation.ofRenaming _).uncaught (g := ()) entry h.renamed) ?_
    split <;> exact h.rooted
  reveal h hp := h.step ({ · with pending := none })
    ((Simulation.ofRenaming _).reveal (g := ()) h.renamed hp) h.rooted
  report action _ _ h := h.step (·.reported _ action) ((h.renamed.see _).answered _) h.rooted
  suppress hs h := h.step ({ · with stopped := true })
    ((Simulation.ofRenaming _).quit (g := ()) h.renamed) h.rooted
  count h hs := h.step Machine.count ((Simulation.ofRenaming _).count (g := ()) h.renamed hs) h.rooted
  answerPoll a _ h := h.step (·.answered a) (h.renamed.answered a) h.rooted
  obey {g p m m' a} h := by
    refine h.step (·.obey a) (h.renamed.obey a) ?_
    match a with
    | .cancelled | .toError .abort | .toStep .abort => exact h.rooted
    | .toError .debug => exact h.rooted
    | .toStep .step => exact h.rooted
    | .toStep .goOn => exact h.rooted
  quit h := h.step ({ · with stopped := true })
    ((Simulation.ofRenaming _).quit (g := ()) h.renamed) h.rooted
  statement s h := by
    obtain ⟨_, -, henter, hleave, -⟩ := (Simulation.ofRenaming _).statement (g := ()) s h.renamed
    exact ⟨(), trivial, h.step (·.enter s) henter h.rooted,
      fun hq hn => hn.step Machine.leave (hleave hq hn.renamed) hn.rooted,
      fun hn => ⟨congrArg Machine.leave hn.1, hn.2⟩⟩
  bracket {g p m m' enter enter' leave leave'} hb h := by
    obtain ⟨rfl, rfl⟩ := (hb.mono h.equal).eq
    exact ⟨(), h.step enter (h.renamed.enter hb) (hb.rooted h.rooted).1,
      fun hq hn => hn.step leave (hn.renamed.leave hb hq) (hb.rooted hn.rooted).2, 
      fun hn => ⟨congrArg leave hn.1, (hb.rooted hn.2).2⟩⟩
  call {g p m m' limit} hd hl h := by
    obtain ⟨_, -, henter, hleave, -⟩ := (Simulation.ofRenaming _).call (g := ()) hd hl h.renamed
    refine ⟨(), trivial, h.step (fun m => { m with callDepth := m.callDepth + 1 }) henter h.rooted,
      fun {ph q n n'} hq hn => ?_, fun {n n'} hn => ?_⟩
    · exact hn.step (fun m => { m with callDepth := m.callDepth - 1 })
        (@hleave ph _ _ _ hq hn.renamed) hn.rooted
    · exact ⟨by rw [hn.1], hn.2⟩
  frame {g p m m' f f' k} hf _ _ h := by
    obtain rfl := (hf.mono h.equal).eq
    refine ⟨(), trivial, h.step (·.push f) (h.renamed.push hf) h.rooted,
      fun {ph q n n'} hq hn => hn.step Machine.pop hn.renamed.pop ?_,
      fun {n n'} hn => ⟨congrArg Machine.pop hn.1, ?_⟩⟩
    · exact n.pop_heap.symm ▸ hn.rooted
    · exact n.pop_heap.symm ▸ hn.2

/-- All of the interface but for collecting garbage and replacing what stands in objects. -/
abbrev Permit.gentle : Permit := ⟨fun _ => True, True, True, True, True, False, False⟩

namespace Simulation

variable {config : Config} {host : Host} {e e' : Engine} {p : Pairing} {m : Machine} {g : grounding.Ghost}

theorem grounding_grants : grounding.Grants .gentle where
  untidied := not_false
  keep _ _ _ _ _ _ _ h hab on := by
    obtain ⟨_, henter, hleave, -⟩ := grounding.bracket (.pin hab) h
    cases on with
    | true => exact henter
    | false => exact @hleave .going _ _ _ (le_refl _) h
  setKey _ _ p _ _ key h :=
    have hopen : ¬p.secret key := h.renamed.secret ▸ not_false
    h.step ({ · with key := key })
      { h.renamed with matched := { h.renamed.matched with key := rfl, readable := hopen } } h.rooted
  protect _ _ p _ _ _ _ name key h hab :=
    have hopen : ∀ key, ¬p.secret key := fun _ => h.renamed.secret ▸ not_false
    h.modify hab (fun _ _ ho => ho.protect hopen name key)
      (h.rooted.modify _ fun _ => Object.update_makeup ..)
  settle _ _ _ _ _ h := h
  hook _ _ _ _ _ _ _ _ _ h hab hf :=
    h.modify hab (fun _ _ ho => hf.matches ho) (h.rooted.modify _ hf.makeup_eq)
  fill h := h.elim
  collect h := h.elim

theorem Ends.rooted {α : Type} {V : Matching α} {k : Course} {o o' : Outcome α}
    (h : grounding.Ends k g p V o o') : o.machine.heap.Rooted := by
  cases h with
  | value _ _ hm => exact Grounding.rooted hm
  | abrupt _ _ _ hm => exact Grounding.rooted hm
  | exhausted hm => exact hm.2

end Simulation

namespace Script

end Script

/-! ## New interpreters -/

namespace Realm

variable {h : Heap} {size : Nat}

/-- Whether no object of a heap has more than three others above it, and the prototype of plain objects
has none. -/
def isRooted (h : Heap) : Bool :=
  (h.proto? Intrinsic.object).isNone &&
    (List.range h.slots.size).all fun i => (h.along 4 (some ⟨i⟩)).isNone

theorem rooted_of_isRooted (hfull : isFull h size = true) (hrooted : isRooted h = true) : h.Rooted := by
  rw [isRooted, Bool.and_eq_true, Option.isNone_iff_eq_none, List.all_eq_true] at hrooted
  obtain ⟨hroot, hshort⟩ := hrooted
  refine ⟨fun {child parent} hp => ?_, hroot, fun a => ?_⟩
  · obtain ⟨o, ho, hproto⟩ := Option.bind_eq_some_iff.1 hp
    obtain ⟨s, hs, rfl⟩ := Option.map_eq_some_iff.1 ho
    have hchild : child.index < size := size_of_isFull hfull ▸ Heap.lt_size_of_slot? hs
    obtain ⟨s', hs', hreferences⟩ := slot_of_isFull hfull hchild
    cases hs.symm.trans hs'
    exact isLive_of_isFull hfull (hreferences _ (Object.RefersTo.proto hproto).mem_references)
  · by_cases ha : a.index < h.slots.size
    · exact ⟨4, Option.isNone_iff_eq_none.1 (hshort _ (List.mem_range.2 ha))⟩
    · refine ⟨0, h.along_of_dead ?_ 0⟩
      rw [Heap.get?, Heap.slot?_of_size_le (i := a.index) (Nat.not_lt.1 ha)]
      rfl

end Realm

end PageScript
