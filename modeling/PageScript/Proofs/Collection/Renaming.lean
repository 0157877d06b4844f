import PageScript.Proofs.Collection.Boundary
import PageScript.Proofs.Simulation.Programs

/-! # Machines that differ by a renaming of their objects

Two machines are renamings of each other if their paired objects are live, match, and lead to paired
objects only, while both heaps are sound.  New objects are paired as they are made, and a collection on
either side leaves the objects paired that the machines can still come to.
-/

set_option autoImplicit false

namespace PageScript

/-! ## Pairings -/

namespace Pairing

/-- A pairing with two more objects, which it does not pair yet. -/
def extend (p : Pairing) (i j : ObjectId) (hi : ∀ b, ¬p.ids i b) (hj : ∀ a, ¬p.ids a j) : Pairing where
  ids a b := p.ids a b ∨ (a = i ∧ b = j)
  oneToOne := by
    rintro a b c d (hab | ⟨rfl, rfl⟩) (hcd | ⟨rfl, rfl⟩)
    · exact p.oneToOne hab hcd
    · constructor
      · rintro rfl
        exact absurd hab (hi b)
      · rintro rfl
        exact absurd hab (hj a)
    · constructor
      · rintro rfl
        exact absurd hcd (hi d)
      · rintro rfl
        exact absurd hcd (hj c)
    · exact iff_of_true rfl rfl
  secret := p.secret
  veiled := p.veiled
  intrinsic i hi := .inl (p.intrinsic i hi)
  unlocked := p.unlocked

/-- The pairs of a pairing whose objects can be come to. -/
def reached (p : Pairing) (m m' : Machine) : Pairing where
  ids a b := p.ids a b ∧ m.Reaches a ∧ m'.Reaches b
  oneToOne hab hcd := p.oneToOne hab.1 hcd.1
  secret := p.secret
  veiled := p.veiled
  intrinsic i hi := ⟨p.intrinsic i hi, .intrinsic i hi, .intrinsic i hi⟩
  unlocked := p.unlocked

end Pairing

/-! ## Matching by fewer pairs -/

variable {p q : Pairing}

theorem Value.Matches.among {v w : Value} (h : Value.Matches p v w)
    (hid : ∀ a r b s, v = .object a r → w = .object b s → p.ids a b → q.ids a b)
    (hreceiver : ∀ a r b s, v = .object a (some r) → w = .object b (some s) → p.ids r s → q.ids r s) :
    Value.Matches q v w := by
  cases h with
  | object id receiver =>
    refine .object (hid _ _ _ _ rfl rfl id) (Matching.option_mem receiver ?_)
    rintro r rfl s rfl
    exact hreceiver _ r _ s rfl rfl
  | _ => constructor

theorem Object.Matches.among {o o' : Object} (h : Object.Matches p o o') (hsecret : q.secret = p.secret)
    (hveiled : q.veiled = p.veiled)
    (hq : ∀ a b, p.ids a b → o.RefersTo a → o'.RefersTo b → q.ids a b) : Object.Matches q o o' where
  members := Matching.list_mem h.members fun x hx y hy hxy =>
    { name := hxy.name
      value := fun hreveals => (hxy.value (hreveals.of_same hsecret hveiled)).among
        (fun a r b s hv hw hab => hq a b hab (.value hx hv) (.value hy hw))
        fun a r b s hv hw hrs => hq r s hrs (.receiver hx hv) (.receiver hy hw)
      link := by
        have hlink := hxy.link
        generalize hl : x.link = l at hlink
        generalize hl' : y.link = l' at hlink
        cases hlink with
        | plain => exact .plain
        | hook hook owner => exact .hook hook (hq _ _ owner (.owner hx hl) (.owner hy hl'))
        | synonym name object => exact .synonym name (hq _ _ object (.target hx hl) (.target hy hl'))
      key := hxy.key
      hidden := hxy.hidden
      permanent := hxy.permanent }
  payload := h.payload
  callable := Matching.option_mem h.callable fun c hc c' hc' hmatch => by
    cases hmatch with
    | script tree scope => exact .script tree (hq _ _ scope (.scope hc) (.scope hc'))
    | native name native => exact .native name native
  maker := Matching.option_mem h.maker fun a ha b hb hab => hq a b hab (.maker ha) (.maker hb)
  proto := Matching.option_mem h.proto fun a ha b hb hab => hq a b hab (.proto ha) (.proto hb)
  additionHook := h.additionHook
  callsAsMember := h.callsAsMember

theorem Frame.Matches.reached {m m' : Machine} {f f' : Frame} (h : Frame.Matches p f f')
    (hf : f ∈ m.frames) (hf' : f' ∈ m'.frames) : Frame.Matches (p.reached m m') f f' where
  kind := h.kind
  locals := ⟨h.locals, .locals hf, .locals hf'⟩
  scope := ⟨h.scope, .scope hf, .scope hf'⟩
  withs := Matching.list_mem h.withs fun _ hw _ hw' hmatch =>
    ⟨⟨hmatch.object, .entry hf hw, .entry hf' hw'⟩, hmatch.everywhere⟩
  arguments := Matching.option_mem h.arguments fun _ ha _ hb hab =>
    ⟨hab, .arguments hf ha, .arguments hf' hb⟩
  callee := Matching.option_mem h.callee fun _ ha _ hb hab => ⟨hab, .callee hf ha, .callee hf' hb⟩
  this := Matching.option_mem h.this fun _ ha _ hb hab => ⟨hab, .this hf ha, .this hf' hb⟩
  constructing := h.constructing

/-- Machines match by the objects that they can still come to, also after the slots of other objects
were emptied on either side. -/
theorem Machine.Matches.reached {m m' : Machine} (h : Machine.Matches p m m') {hp hp' : Heap}
    (hleft : ∀ a, m.Reaches a → hp.slot? a = m.heap.slot? a)
    (hright : ∀ a, m'.Reaches a → hp'.slot? a = m'.heap.slot? a) :
    Machine.Matches (p.reached m m') { m with heap := hp } { m' with heap := hp' } where
  heap := by
    rintro a b ⟨hab, ha, hb⟩
    show Matching.option Slot.Matches _ (hp.slot? a) (hp'.slot? b)
    rw [hleft a ha, hright b hb]
    refine Matching.option_mem (h.heap a b hab) fun s hs t ht hst => ⟨?_, hst.pins⟩
    refine hst.object.among rfl rfl fun c d hcd hc hd => ⟨hcd, .field ha ?_ hc, .field hb ?_ hd⟩
    · rw [Heap.get?, hs]
      rfl
    · rw [Heap.get?, ht]
      rfl
  frame := h.frame.reached (.head _) (.head _)
  callers := Matching.list_mem h.callers fun f hf f' hf' hmatch =>
    hmatch.reached (.tail _ hf) (.tail _ hf')
  callDepth := h.callDepth
  tryDepth := h.tryDepth
  key := h.key
  readable := h.readable
  pending := h.pending
  stopped := h.stopped
  stepping := h.stepping
  elements := h.elements
  ticks := h.ticks
  result := h.result.among
    (fun _ _ _ _ hv hw hab => ⟨hab, .result hv, .result hw⟩)
    fun _ _ _ _ hv hw hab => ⟨hab, .resultReceiver hv, .resultReceiver hw⟩
  random := h.random
  answers := h.answers
  running := h.running
  noted := h.noted

theorem Machine.Matches.note {m m' : Machine} (h : Machine.Matches p m m')
    (entry : ErrorKind × String) : Machine.Matches p (m.note entry) (m'.note entry) where
  heap := h.heap
  frame := h.frame
  callers := h.callers
  callDepth := h.callDepth
  tryDepth := h.tryDepth
  key := h.key
  readable := h.readable
  pending := congrArg (·.or (some entry)) h.pending
  stopped := h.stopped
  stepping := h.stepping
  elements := h.elements
  ticks := h.ticks
  result := h.result
  random := h.random
  answers := h.answers
  running := h.running
  noted := by
    unfold Machine.note
    rw [h.running, h.noted]

/-! ## Heaps -/

namespace Heap

variable {h h' : Heap} {a b : ObjectId}

theorem Matches.modifySlot (hh : Heap.Matches p h h') (hab : p.ids a b) {f f' : Slot → Slot}
    (hf : ∀ s t, Slot.Matches p s t → Slot.Matches p (f s) (f' t)) :
    Heap.Matches p (h.modifySlot a f) (h'.modifySlot b f') := by
  intro c d hcd
  rw [slot?_modifySlot, slot?_modifySlot]
  by_cases hac : a = c
  · rw [if_pos hac, if_pos ((p.oneToOne hab hcd).1 hac)]
    exact Matching.option_map (hh c d hcd) hf
  · rw [if_neg hac, if_neg fun hbd => hac ((p.oneToOne hab hcd).2 hbd)]
    exact hh c d hcd

theorem Matches.alloc (hh : Heap.Matches p h h') (hs : h.Sound) (hs' : h'.Sound)
    {o o' : Object} (ho : Object.Matches p o o') (hq : p ≤ q)
    (hids : ∀ c d, q.ids c d → p.ids c d ∨ (c = (h.alloc o).1 ∧ d = (h'.alloc o').1))
    (hleft : ∀ d, ¬p.ids (h.alloc o).1 d) (hright : ∀ c, ¬p.ids c (h'.alloc o').1) :
    Heap.Matches q (h.alloc o).2 (h'.alloc o').2 := by
  intro c d hcd
  rw [slot?_alloc hs, slot?_alloc hs']
  rcases hids c d hcd with hcd | ⟨rfl, rfl⟩
  · have hc : (h.alloc o).1 ≠ c := fun he => hleft d (he ▸ hcd)
    have hd : (h'.alloc o').1 ≠ d := fun he => hright c (he ▸ hcd)
    rw [if_neg hc, if_neg hd]
    exact Matching.option_mono Slot.Matches.mono hq (hh c d hcd)
  · rw [if_pos rfl, if_pos rfl]
    exact .some ⟨ho.mono hq, rfl⟩

end Heap

/-! ## Renamings -/

/-- Machines that differ by a renaming of their objects, by garbage, and by the values of variables with
secret keys. -/
structure Renamed (secret : Nat → Prop) (p : Pairing) (m m' : Machine) : Prop where
  matched : Machine.Matches p m m'
  secret : p.secret = secret
  live : ∀ a b, p.ids a b → m.heap.isLive a = true
  left : m.heap.Sound
  right : m'.heap.Sound
  shown : shown m.events = shown m'.events

namespace Renamed

variable {secret : Nat → Prop} {m m' : Machine} {a b : ObjectId}

theorem modifySlot (h : Renamed secret p m m') (hab : p.ids a b) {f f' : Slot → Slot}
    (hf : ∀ s t, Slot.Matches p s t → Slot.Matches p (f s) (f' t)) :
    Renamed secret p { m with heap := m.heap.modifySlot a f }
      { m' with heap := m'.heap.modifySlot b f' } where
  matched := { h.matched with heap := h.matched.heap.modifySlot hab hf }
  secret := h.secret
  live c d hcd := by
    show (m.heap.modifySlot a f).isLive c = true
    rw [Heap.isLive_modifySlot]
    exact h.live c d hcd
  left := h.left.modifySlot f
  right := h.right.modifySlot f'
  shown := h.shown

theorem edit (h : Renamed secret p m m') (hab : p.ids a b) {f f' : Object → Object}
    (he : ∀ o o', Object.Matches p o o' → Object.Matches p (f o) (f' o')) :
    Renamed secret p { m with heap := m.heap.modify a f } { m' with heap := m'.heap.modify b f' } :=
  h.modifySlot hab fun _ _ hst => ⟨he _ _ hst.object, hst.pins⟩

theorem alloc (h : Renamed secret p m m') {o o' : Object} (ho : Object.Matches p o o') :
    ∃ q, p ≤ q ∧ q.ids (m.heap.alloc o).1 (m'.heap.alloc o').1 ∧
      Renamed secret q { m with heap := (m.heap.alloc o).2 } { m' with heap := (m'.heap.alloc o').2 } ∧
      ∀ a b, q.ids a b → p.ids a b ∨ (a = (m.heap.alloc o).1 ∧ b = (m'.heap.alloc o').1) := by
  -- Paired objects are live, and new ones come to slots that were empty, so neither is paired yet.
  have hleft : ∀ d, ¬p.ids (m.heap.alloc o).1 d := fun d hd => by
    have hlive := h.live _ _ hd
    rw [Heap.isLive, Heap.slot?_new h.left] at hlive
    cases hlive
  have hright : ∀ c, ¬p.ids c (m'.heap.alloc o').1 := fun c hc => by
    have hlive := h.live _ _ hc
    rw [h.matched.heap.isLive_eq hc, Heap.isLive, Heap.slot?_new h.right] at hlive
    cases hlive
  have hq : p ≤ p.extend _ _ hleft hright := ⟨fun _ _ hab => .inl hab, rfl, rfl⟩
  refine ⟨p.extend _ _ hleft hright, hq, .inr ⟨rfl, rfl⟩, ?_, fun _ _ hab => hab⟩
  have hheap : Heap.Matches _ (m.heap.alloc o).2 (m'.heap.alloc o').2 :=
    h.matched.heap.alloc h.left h.right ho hq (fun _ _ hcd => hcd) hleft hright
  refine ⟨?_, h.secret, ?_, h.left.alloc o, h.right.alloc o', h.shown⟩
  · exact
      { h.matched with
        heap := hheap
        frame := h.matched.frame.mono hq
        callers := Matching.list_mono Frame.Matches.mono hq h.matched.callers
        result := h.matched.result.mono hq }
  · intro c d hcd
    show (m.heap.alloc o).2.isLive c = true
    rw [Heap.isLive, Heap.slot?_alloc h.left]
    split
    · rfl
    · rename_i hc
      rcases hcd with hcd | ⟨rfl, -⟩
      · exact h.live c d hcd
      · exact absurd rfl hc

theorem see (h : Renamed secret p m m') (event : Event) :
    Renamed secret p { m with events := event :: m.events } { m' with events := event :: m'.events } :=
  { h with matched := { h.matched with }, shown := shown_cons h.shown event }

theorem answered (h : Renamed secret p m m') (answer : Answer) :
    Renamed secret p (m.answered answer) (m'.answered answer) :=
  { h with matched := { h.matched with
    answers := by
      show Answered.mk answer _ :: _ = Answered.mk answer _ :: _
      rw [h.matched.elements, h.matched.answers] } }

theorem obey (h : Renamed secret p m m') (answer : Answer) :
    Renamed secret p (m.obey answer) (m'.obey answer) := by
  have hstop : Renamed secret p { m with stopped := true } { m' with stopped := true } :=
    { h with matched := { h.matched with stopped := rfl } }
  unfold Machine.obey
  match answer with
  | .cancelled | .toError .abort | .toStep .abort => exact hstop
  | .toError .debug => exact { h with matched := { h.matched with stopped := rfl, stepping := rfl } }
  | .toStep .step => exact h
  | .toStep .goOn => exact { h with matched := { h.matched with stepping := rfl } }

theorem enter (h : Renamed secret p m m') {enter enter' leave leave' : Machine → Machine}
    (hb : Bracket p enter enter' leave leave') : Renamed secret p (enter m) (enter' m') := by
  have hm := h.matched
  cases hb with
  | pin id => exact h.modifySlot id fun _ _ hst => ⟨hst.object, congrArg (· + 1) hst.pins⟩
  | guard => exact { h with matched := { hm with tryDepth := congrArg (· + 1) hm.tryDepth } }
  | withObject id =>
    exact { h with matched := { hm with
      frame := { hm.frame with withs := .cons ⟨id, rfl⟩ hm.frame.withs } } }

theorem leave {enter enter' leave leave' : Machine → Machine}
    (hb : Bracket p enter enter' leave leave') (hq : p ≤ q) (h : Renamed secret q m m') :
    Renamed secret q (leave m) (leave' m') := by
  have hm := h.matched
  cases hb with
  | pin id => exact h.modifySlot (hq id) fun _ _ hst => ⟨hst.object, congrArg (· - 1) hst.pins⟩
  | guard => exact { h with matched := { hm with tryDepth := congrArg (· - 1) hm.tryDepth } }
  | withObject id =>
    have hwiths := hm.frame.withs
    have htail : Matching.list WithEntry.Matches q m.frame.withs.tail m'.frame.withs.tail := by
      generalize m.frame.withs = ws at hwiths
      generalize m'.frame.withs = ws' at hwiths
      cases hwiths with
      | nil => exact .nil
      | cons _ hrest => exact hrest
    exact { h with matched := { hm with frame := { hm.frame with withs := htail } } }

theorem push (h : Renamed secret p m m') {f f' : Frame} (hf : Frame.Matches p f f') :
    Renamed secret p (m.push f) (m'.push f') :=
  { h with matched := { h.matched with
    frame := hf, callers := .cons h.matched.frame h.matched.callers } }

theorem pop (h : Renamed secret p m m') : Renamed secret p m.pop m'.pop := by
  have hcallers := h.matched.callers
  unfold Machine.pop
  generalize m.callers = fs at hcallers
  generalize m'.callers = fs' at hcallers
  cases hcallers with
  | nil => exact h
  | cons hf hrest => exact { h with matched := { h.matched with frame := hf, callers := hrest } }

end Renamed

/-- What stays visible of two runs that were cut off. -/
structure SameTrace (m m' : Machine) : Prop where
  shown : shown m.events = shown m'.events
  stopped : m.stopped = m'.stopped
  elements : m.elements = m'.elements

theorem SameTrace.leave {p : Pairing} {m m' : Machine} {enter enter' leave leave' : Machine → Machine}
    (hb : Bracket p enter enter' leave leave') (h : SameTrace m m') :
    SameTrace (leave m) (leave' m') := by
  cases hb <;> exact ⟨h.shown, h.stopped, h.elements⟩

theorem SameTrace.pop {m m' : Machine} (h : SameTrace m m') : SameTrace m.pop m'.pop := by
  unfold Machine.pop
  split <;> split <;> exact ⟨h.shown, h.stopped, h.elements⟩

/-- Renamings as a simulation, given the secret keys. -/
def Simulation.ofRenaming (secret : Nat → Prop) : Simulation where
  Ghost := Unit
  inv _ _ := Renamed secret
  spent _ := SameTrace
  alike es es' := shown es = shown es'
  text := True
  sound _ := True
  stray _ := True
  shows _ := True
  inside _ _ := True
  room _ _ := True
  depth _ := True
  lengths _ _ := True
  made _ := True
  tidies := False
  unique := False
  matched h := h.matched
  seen h := h.shown
  code _ _ _ _ _ := trivial
  parsed _ _ _ := trivial
  spend h := ⟨h.shown, h.matched.stopped, h.matched.elements⟩
  goOn h := h
  halt h := h
  settle h _ := h
  edit h hab he _ := h.edit hab fun _ _ ho => he.matches hab ho
  fill h hab _ hf _ := h.edit hab fun _ _ ho => hf.matches ho
  makes _ _ := trivial
  lengthHook h _ := ⟨(), trivial, h, fun _ hn => hn, fun hn => hn⟩
  setLength current length h hab _ := h.edit hab fun _ _ ho => ho.setLength current length
  alloc h ho _ _ := (h.alloc ho).imp fun _ hq => ⟨hq.1, hq.2.1, hq.2.2.1⟩
  see event _ h := h.see event
  draw x h := { h with matched := { h.matched with random := rfl } }
  note entry h _ _ := { h with matched := h.matched.note entry }
  uncaught entry h := by
    rw [← h.matched.pending]
    split
    · exact { h with matched := h.matched.note entry }
    · exact h
  reveal h _ := { h with matched := { h.matched with pending := rfl } }
  report action _ _ h := (h.see _).answered _
  suppress _ h := { h with matched := { h.matched with stopped := rfl } }
  count h _ := { h with matched := { h.matched with
    elements := congrArg (· + 1) h.matched.elements, ticks := congrArg (· + 1) h.matched.ticks } }
  answerPoll a _ h := h.answered a
  obey h := h.obey _
  quit h := { h with matched := { h.matched with stopped := rfl } }
  statement s h :=
    ⟨(), trivial, { h with matched := { h.matched with running := congrArg (s :: ·) h.matched.running } },
      fun _ hn =>
        { hn with matched := { hn.matched with running := congrArg List.tail hn.matched.running } },
      fun hn => ⟨hn.shown, hn.stopped, hn.elements⟩⟩
  bracket hb h := ⟨(), h.enter hb, fun hq hn => hn.leave hb hq, fun hn => hn.leave hb⟩
  call _ _ h :=
    ⟨(), trivial,
      { h with matched := { h.matched with callDepth := congrArg (· + 1) h.matched.callDepth } },
      fun _ hn =>
        { hn with matched := { hn.matched with callDepth := congrArg (· - 1) hn.matched.callDepth } },
      fun hn => ⟨hn.shown, hn.stopped, hn.elements⟩⟩
  frame hf _ _ h := ⟨(), trivial, h.push hf, fun _ hn => hn.pop, fun hn => hn.pop⟩

end PageScript
