import PageScript.Proofs.Pairing.Identity
import PageScript.Proofs.Simulation.Foreign

/-! # Invariants of a single machine

An `Invariant` is a simulation between a machine and itself.  It has the same laws; those on the parts
of a machine that it does not look at need not be given.
-/

set_option autoImplicit false

namespace PageScript

/-- Whether a part of a run that is entered in one way and left in another keeps an invariant. -/
def Brackets {Ghost : Type} (inv : Phase → Ghost → Machine → Prop) (spent : Ghost → Machine → Prop)
    (enter leave : Machine → Machine) : Prop :=
  ∀ {g m}, inv .going g m → ∃ g', inv .going g' (enter m) ∧
    (∀ {ph n}, inv ph g' n → inv ph g (leave n)) ∧ ∀ {n}, spent g' n → spent g (leave n)

/-- An invariant of a machine, and the laws of the primitives for it. -/
structure Invariant where
  /-- What a part of a run must find again at its end. -/
  Ghost : Type
  /-- The invariant in a phase. -/
  inv : Phase → Ghost → Machine → Prop
  /-- The machine of a run that was cut off. -/
  spent : Ghost → Machine → Prop
  /-- Whether tasks may evaluate expressions and run statements. -/
  text : Prop := True
  /-- The functions that may come into being. -/
  sound : FunctionTree → Prop := fun _ => True
  /-- The jumps that may leave functions. -/
  stray : Jump → Prop := fun _ => True
  /-- Whether errors may be shown, or not. -/
  shows : Bool → Prop := fun _ => True
  /-- The innermost statement around a part of a run. -/
  inside : Ghost → Statement → Prop := fun _ _ => True
  /-- How many activations a part of a run may enter, one within the other, before the next call. -/
  room : Ghost → Nat → Prop := fun _ _ => True
  /-- How many calls may be nested. -/
  depth : Nat → Prop := fun _ => True
  /-- The objects whose length a part of a run may change. -/
  lengths : Ghost → ObjectId → Prop := fun _ _ => True
  /-- The objects that a run may have made. -/
  made : ObjectId → Prop := fun _ => True
  /-- Whether changes of tidy objects must leave them tidy. -/
  tidies : Prop := False
  unique : Prop := False
  code : ∀ {ph g m id o tree scope}, inv ph g m → m.heap.get? id = some o →
    o.callable = some (.script tree scope) → ∀ t ∈ tree.trees, sound t := by intros; exact trivial
  parsed : ∀ {source body}, Program.parse source = .ok body →
    ∀ t ∈ Statement.treesOf body, sound t := by intros; exact trivial
  spend : ∀ {g m}, inv .going g m → spent g m
  goOn : ∀ {g m}, inv .polled g m → inv .going g m := by intros; assumption
  halt : ∀ {g m}, inv .going g m → inv .halting g m := by intros; assumption
  settle : ∀ {g m}, inv .halting g m → m.pending = none → inv .going g m := by intros; assumption
  edit : ∀ {g m a f}, inv .going g m → Object.Edit .identity a a f f → (tidies → m.heap.Neat unique a f) →
    inv .going g { m with heap := m.heap.modify a f } := by intros; assumption
  fill : ∀ {g m a f}, inv .going g m → made a → Object.Fill .identity f f → (tidies → m.heap.Neat unique a f) →
    inv .going g { m with heap := m.heap.modify a f } := by intros; assumption
  makes : ∀ {g m} (o : Object), inv .going g m → made (m.heap.alloc o).1 := by intros; exact trivial
  lengthHook : ∀ {g m a b name}, inv .going g m →
    (m.heap.own? a name).map Variable.link = some (.hook .arrayLength b) →
    ∃ g', lengths g' b ∧ inv .going g' m ∧ (∀ {ph n}, inv ph g' n → inv ph g n) ∧
      ∀ {n}, spent g' n → spent g n := by
    intro g m a b name h _; exact ⟨g, trivial, h, fun hn => hn, fun hn => hn⟩
  setLength : ∀ {g m a} (current length : Nat), inv .going g m → lengths g a →
    inv .going g { m with heap := m.heap.modify a (·.setLength current length) } := by
      intros; assumption
  alloc : ∀ {g m o}, inv .going g m → o.Ordinary →
    (∀ tree scope, o.callable = some (.script tree scope) → ∀ t ∈ tree.trees, sound t) →
    inv .going g { m with heap := (m.heap.alloc o).2 } := by intros; assumption
  see : ∀ {ph g m} (event : Event), event.isReport = false → inv ph g m →
    inv ph g { m with events := event :: m.events } := by intros; assumption
  draw : ∀ {g m} (x : UInt64), inv .going g m → inv .going g { m with random := x } := by
    intros; assumption
  note : ∀ {g m} (entry : ErrorKind × String), inv .going g m → m.tryDepth = 0 →
    m.stopped = false → inv .halting g (m.note entry) := by intros; assumption
  uncaught : ∀ {g m} (entry : ErrorKind × String), inv .halting g m →
    inv .halting g (if m.pending.isNone then m.note entry else m) := by
      intros; split <;> assumption
  reveal : ∀ {g m kind message}, inv .halting g m → m.pending = some (kind, message) →
    inv (.showing kind message) g { m with pending := none } := by intros; assumption
  report : ∀ {g m kind message s} (action : ErrorAction), shows true → inside g s →
    inv (.showing kind message) g m →
    inv (.answered (.toError action)) g (m.reported ⟨kind, message, s.line, s.text⟩ action) := by
      intros; assumption
  suppress : ∀ {g m kind message}, shows false → inv (.showing kind message) g m →
    inv .going g { m with stopped := true } := by intros; assumption
  count : ∀ {g m}, inv .going g m → m.stopped = false → inv .polled g m.count := by
    intros; assumption
  answerPoll : ∀ {g m} (a : Answer), a.isToError = false → inv .polled g m →
    inv (.answered a) g (m.answered a) := by
    intros; assumption
  obey : ∀ {g m} {a : Answer}, inv (.answered a) g m → inv .going g (m.obey a) := by
    intro _ _ a _; cases a with
    | cancelled => assumption
    | toError action => cases action <;> assumption
    | toStep action => cases action <;> assumption
  quit : ∀ {g m}, inv .going g m → inv .going g { m with stopped := true } := by
    intros; assumption
  statement : ∀ {g m} (s : Statement), inv .going g m →
    ∃ g', inside g' s ∧ inv .going g' (m.enter s) ∧
      (∀ {n}, inv .going g' n → inv .going g n.leave) ∧
      ∀ {n}, spent g' n → spent g n.leave := by
    intro g m s h; exact ⟨g, trivial, h, fun hn => hn, fun hn => hn⟩
  pin : ∀ a : ObjectId, Brackets inv spent (fun m => { m with heap := m.heap.pin a })
    (fun m => { m with heap := m.heap.unpin a }) := by
    intro a g m h; exact ⟨g, h, fun hn => hn, fun hn => hn⟩
  guard : Brackets inv spent (fun m => { m with tryDepth := m.tryDepth + 1 })
    (fun m => { m with tryDepth := m.tryDepth - 1 }) := by
    intro g m h; exact ⟨g, h, fun hn => hn, fun hn => hn⟩
  withObject : ∀ a : ObjectId, Brackets inv spent
    (fun m => { m with frame := { m.frame with withs := ⟨a, false⟩ :: m.frame.withs } })
    (fun m => { m with frame := { m.frame with withs := m.frame.withs.tail } }) := by
    intro a g m h; exact ⟨g, h, fun hn => hn, fun hn => hn⟩
  call : ∀ {g m limit}, depth limit → m.callDepth < limit → inv .going g m →
    ∃ g', room g' 2 ∧ inv .going g' { m with callDepth := m.callDepth + 1 } ∧
      (∀ {ph n}, inv ph g' n → inv ph g { n with callDepth := n.callDepth - 1 }) ∧
      ∀ {n}, spent g' n → spent g { n with callDepth := n.callDepth - 1 } := by
    intro g m limit _ _ h; exact ⟨g, trivial, h, fun hn => hn, fun hn => hn⟩
  frame : ∀ {g m k} (f : Frame), f.withs = [] → room g (k + 1) → inv .going g m →
    ∃ g', room g' k ∧ inv .going g' (m.push f) ∧ (∀ {ph n}, inv ph g' n → inv ph g n.pop) ∧
      ∀ {n}, spent g' n → spent g n.pop

/-- The functions in the text of a task. -/
def Task.trees : Task → List FunctionTree
  | .expression e => e.trees
  | .statement s _ => s.trees
  | _ => []

namespace Invariant

variable (I : Invariant)

theorem brackets {enter enter' leave leave' : Machine → Machine}
    (h : Bracket .identity enter enter' leave leave') : Brackets I.inv I.spent enter leave := by
  cases h with
  | pin id => exact I.pin _
  | guard => exact I.guard
  | withObject id => exact I.withObject _

/-- An invariant as a simulation: both machines are one. -/
def toSimulation : Simulation where
  Ghost := I.Ghost
  inv ph g p m m' := p = .identity ∧ m' = m ∧ I.inv ph g m
  spent g m m' := m' = m ∧ I.spent g m
  alike := Eq
  text := I.text
  sound := I.sound
  stray := I.stray
  shows := I.shows
  inside := I.inside
  room := I.room
  depth := I.depth
  lengths := I.lengths
  made := I.made
  tidies := I.tidies
  unique := I.unique
  matched := by
    rintro _ _ _ _ m ⟨rfl, rfl, -⟩
    exact .refl m not_false
  seen h := by rw [h.2.1]
  code h := I.code h.2.2
  parsed := I.parsed
  spend h := ⟨h.2.1, I.spend h.2.2⟩
  goOn h := ⟨h.1, h.2.1, I.goOn h.2.2⟩
  halt h := ⟨h.1, h.2.1, I.halt h.2.2⟩
  settle h hp := ⟨h.1, h.2.1, I.settle h.2.2 hp⟩
  edit := by
    rintro g _ m _ a b f f' ⟨rfl, rfl, h⟩ hab he hneat
    cases Pairing.eq_of_identity hab
    cases he.eq
    exact ⟨rfl, rfl, I.edit h he hneat⟩
  fill := by
    rintro g _ m _ a b f f' ⟨rfl, rfl, h⟩ hab hmade hf hneat
    cases Pairing.eq_of_identity hab
    cases hf.eq
    exact ⟨rfl, rfl, I.fill h hmade hf hneat⟩
  makes o h := I.makes o h.2.2
  lengthHook := by
    rintro g _ m _ a b name ⟨rfl, rfl, h⟩ hlink
    obtain ⟨g', hlengths, henter, hleave, hspent⟩ := I.lengthHook h hlink
    exact ⟨g', hlengths, ⟨rfl, rfl, henter⟩, fun _ hn => ⟨hn.1, hn.2.1, hleave hn.2.2⟩,
      fun hn => ⟨hn.1, hspent hn.2⟩⟩
  setLength := by
    rintro g _ m _ a b current length ⟨rfl, rfl, h⟩ hab hlengths
    cases Pairing.eq_of_identity hab
    exact ⟨rfl, rfl, I.setLength current length h hlengths⟩
  alloc := by
    rintro g _ m _ o o' ⟨rfl, rfl, h⟩ ho hnew hcode
    cases ho.eq
    exact ⟨.identity, le_refl _, rfl, rfl, rfl, I.alloc h hnew hcode⟩
  see event he h := ⟨h.1, by rw [h.2.1], I.see event he h.2.2⟩
  draw x h := ⟨h.1, by rw [h.2.1], I.draw x h.2.2⟩
  note entry h ht hs := ⟨h.1, by rw [h.2.1], I.note entry h.2.2 ht hs⟩
  uncaught entry h := ⟨h.1, by rw [h.2.1], I.uncaught entry h.2.2⟩
  reveal h hp := ⟨h.1, by rw [h.2.1], I.reveal h.2.2 hp⟩
  report action hshows hs h := ⟨h.1, by rw [h.2.1], I.report action hshows hs h.2.2⟩
  suppress hshows h := ⟨h.1, by rw [h.2.1], I.suppress hshows h.2.2⟩
  count h hs := ⟨h.1, by rw [h.2.1], I.count h.2.2 hs⟩
  answerPoll a ha h := ⟨h.1, by rw [h.2.1], I.answerPoll a ha h.2.2⟩
  obey h := ⟨h.1, by rw [h.2.1], I.obey h.2.2⟩
  quit h := ⟨h.1, by rw [h.2.1], I.quit h.2.2⟩
  statement s h := by
    obtain ⟨hp, rfl, h⟩ := h
    obtain ⟨g', hs, henter, hleave, hspent⟩ := I.statement s h
    exact ⟨g', hs, ⟨hp, rfl, henter⟩, fun _ hn => ⟨hn.1, by rw [hn.2.1], hleave hn.2.2⟩,
      fun hn => ⟨by rw [hn.1], hspent hn.2⟩⟩
  bracket := by
    rintro g _ m _ enter _ leave _ hb ⟨rfl, rfl, h⟩
    obtain ⟨g', henter, hleave, hspent⟩ := I.brackets hb h
    cases hb.eq.1
    cases hb.eq.2
    exact ⟨g', ⟨rfl, rfl, henter⟩, fun _ hn => ⟨hn.1, by rw [hn.2.1], hleave hn.2.2⟩,
      fun hn => ⟨by rw [hn.1], hspent hn.2⟩⟩
  call := by
    rintro g _ m _ limit hlimit hdepth ⟨rfl, rfl, h⟩
    obtain ⟨g', hroom, henter, hleave, hspent⟩ := I.call hlimit hdepth h
    exact ⟨g', hroom, ⟨rfl, rfl, henter⟩, fun _ hn => ⟨hn.1, by rw [hn.2.1], hleave hn.2.2⟩,
      fun hn => ⟨by rw [hn.1], hspent hn.2⟩⟩
  frame := by
    rintro g _ m _ f _ k hf hwiths hroom ⟨rfl, rfl, h⟩
    cases hf.eq
    obtain ⟨g', hroom', henter, hleave, hspent⟩ := I.frame f hwiths hroom h
    exact ⟨g', hroom', ⟨rfl, rfl, henter⟩, fun _ hn => ⟨hn.1, by rw [hn.2.1], hleave hn.2.2⟩,
      fun hn => ⟨by rw [hn.1], hspent hn.2⟩⟩

/-! ## Endings -/

variable {I : Invariant} {α : Type} {k : Course} {g : I.Ghost} {V : Matching α} {p : Pairing}
  {o o' : Outcome α} {config : Config} {host : Host} {may functions hooks : Permit}

variable (I) in
/-- An ending of a course with the invariant. -/
inductive Ends (k : Course) (g : I.Ghost) : Outcome α → Prop where
  | value {v : α} {m : Machine} (inv : I.inv k.value g m) : Ends k g (.value v m)
  | abrupt {c : Abrupt} {m : Machine} (allowed : I.toSimulation.Allows k.jumps c)
      (inv : I.inv (k.abrupt c) g m) : Ends k g (.abrupt c m)
  | exhausted {m : Machine} (spent : I.spent g m) : Ends k g (.exhausted m)

theorem Ends.of_simulation (h : I.toSimulation.Ends k g p V o o') : I.Ends k g o := by
  cases h with
  | value hq hv hm => exact .value hm.2.2
  | abrupt hq hc hj hm => exact .abrupt hj hm.2.2
  | exhausted hspent => exact .exhausted hspent.2

/-! ## Embedding programs -/

variable (I) in
/-- The laws of an invariant for the parts of the interface that are not for every embedding
program. -/
structure Grants (may : Permit) : Prop where
  untidied : ¬I.tidies := by exact not_false
  keep : may.pins → ∀ {g m} (a : ObjectId) (on : Bool), I.inv .going g m →
    I.inv .going g { m with heap := if on then m.heap.pin a else m.heap.unpin a } := by
      intros; assumption
  setKey : may.keys → ∀ {g m} (key : Nat), I.inv .going g m → I.inv .going g { m with key := key } := by
    intros; assumption
  protect : may.keys → ∀ {g m} (a : ObjectId) (name : String) (key : Nat), I.inv .going g m →
    I.inv .going g
      { m with heap := m.heap.modify a (·.update name fun x => { x with key := key }) } := by
        intros; assumption
  settle : may.shrugs → ∀ {g m}, I.inv .halting g m → I.inv .going g m := by intros; assumption
  hook : may.hooking → ∀ {g m a f}, I.inv .going g m → Object.Hooking .identity f f →
    I.inv .going g { m with heap := m.heap.modify a f } := by intros; assumption
  fill : may.fills → ∀ {g m a f}, I.inv .going g m → Object.Fill .identity f f →
    I.inv .going g { m with heap := m.heap.modify a f } := by intros; assumption
  collect : may.collections → ∀ {g m}, I.inv .going g m → I.inv .going g m.collect.2 := by
    intros; assumption

theorem Grants.toSimulation (h : I.Grants may) : I.toSimulation.Grants may where
  untidied := h.untidied
  keep hmay := by
    rintro g _ _ m a _ ⟨rfl, rfl, hm⟩ hab on
    cases Pairing.eq_of_identity hab
    exact ⟨rfl, rfl, h.keep hmay a on hm⟩
  setKey hmay _ _ _ _ key hm := ⟨hm.1, by rw [hm.2.1], h.setKey hmay key hm.2.2⟩
  protect hmay := by
    rintro g _ _ m a _ name key ⟨rfl, rfl, hm⟩ hab
    cases Pairing.eq_of_identity hab
    exact ⟨rfl, rfl, h.protect hmay a name key hm⟩
  settle hmay _ _ _ _ hm := ⟨hm.1, hm.2.1, h.settle hmay hm.2.2⟩
  hook hmay := by
    rintro g _ _ m a _ f f' ⟨rfl, rfl, hm⟩ hab hf
    cases Pairing.eq_of_identity hab
    cases hf.eq
    exact ⟨rfl, rfl, h.hook hmay hm hf⟩
  fill hmay := by
    rintro g _ _ m a _ f f' ⟨rfl, rfl, hm⟩ hab hf
    cases Pairing.eq_of_identity hab
    cases hf.eq
    exact ⟨rfl, rfl, h.fill hmay hm hf⟩
  collect hmay _ _ _ _ hm := ⟨by rw [hm.2.1], hm.1, by rw [hm.2.1], h.collect hmay hm.2.2⟩

variable (I) in
/-- Settings and an embedding program that an invariant is for. -/
structure Hosts (config : Config) (host : Host) : Prop where
  depth : I.depth config.maxDepth
  shows : I.shows config.showErrors
  declines : I.unique → ∀ limit, (Engine.upTo config host limit).Declines := by exact fun h => h.elim
  embeds : I.toSimulation.Embeds host host

theorem Hosts.toSimulation (h : I.Hosts config host) :
    I.toSimulation.Hosts config config host host where
  maxDepth := rfl
  depth := h.depth
  showErrors := rfl
  shows := h.shows
  gmtOffset := rfl
  verbosity := rfl
  epoch := rfl
  feedback := by
    rintro _ _ rfl n
    rfl
  onError := by
    rintro _ _ rfl r
    rfl
  onStep := by
    rintro _ _ rfl d
    rfl
  declines := h.declines
  embeds := h.embeds

/-! ## Tasks -/

variable (I) in
/-- Whether a task is one of those that keep an invariant. -/
def Poses (t : Task) : Prop := I.toSimulation.Poses .identity t t

/-- An invariant is for a task if it is for the functions in the text of the task. -/
theorem poses_of_trees (htext : I.text) {t : Task} (ht : ∀ tree ∈ t.trees, I.sound tree) : I.Poses t := by
  cases t with
  | expression e => exact .expression ⟨htext, ht⟩
  | statement s labels => exact .statement labels ⟨htext, ht⟩
  | call f this args constructing =>
    exact .call rfl (Matching.option_refl Pairing.equal_refl this)
      (Matching.list_refl Value.Matches.refl args) constructing
  | readHook behavior owner => exact .readHook behavior rfl
  | writeHook behavior owner v => exact .writeHook behavior rfl (.refl v)
  | offer behavior object name => exact .offer behavior rfl name

end Invariant

end PageScript
