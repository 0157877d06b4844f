import PageScript.Embedding.Stock
import PageScript.Proofs.Simulation.Tasks

/-! # Code of the embedding program

Functions and hooks of an embedding program get at objects only through the interface of interpreters:
they make objects, read and write properties, ask for texts, and pass values on.  Code that uses the
interface alike on two sides keeps every simulation that grants it the parts that it uses.
-/

set_option autoImplicit false

namespace PageScript

/-! ## The interface -/

/-- The parts of the interface that are not for every embedding program: the jumps that its code may end
with, and whether it may keep objects alive, whether it may deal in keys, whether it may pass over
errors in reads and writes and in the texts of objects, whether it may give hooks to objects, whether it
may collect garbage, and whether it may replace what stands in objects as a run does in those that it has
just made. -/
structure Permit where
  jumps : Jump → Prop
  pins : Prop
  keys : Prop
  shrugs : Prop
  hooking : Prop
  collections : Prop
  fills : Prop

/-- All of the interface but collections, and some jumps. -/
abbrev Permit.full (jumps : Jump → Prop) : Permit := ⟨jumps, True, True, True, True, False, True⟩

/-- The object of a function of the embedding program. -/
def Object.foreign (name : String) (arity : Nat) (behavior : String) : Object :=
  { (Object.empty (some Intrinsic.function)).putHidden "length" (.ofNat arity) with
    callable := some (.native name (.host behavior)) }

theorem Object.Matches.foreign {p : Pairing} (name : String) (arity : Nat) (behavior : String) :
    Object.Matches p (Object.foreign name arity behavior) (Object.foreign name arity behavior) :=
  { (Object.Matches.empty (.some p.intrinsic_function)).putHidden "length" (.ofNat arity) with
    callable := .some (.native name _) }

theorem Object.ordinary_foreign (name : String) (arity : Nat) (behavior : String) :
    (Object.foreign name arity behavior).Ordinary :=
  have h := (Object.ordinary_empty (some Intrinsic.function)).putHidden "length" (v := .ofNat arity) rfl
  ⟨h.payload, h.links, h.tidy.congr rfl⟩

/-- Two computations that use the interface alike, as far as they may. -/
inductive Foreign (may : Permit) :
    (p : Pairing) → (α : Type) → Matching α → Script α → Script α → Prop where
  | pure {p : Pairing} {α : Type} {V : Matching α} {x y : α} (value : V p x y) :
      Foreign may p α V (pure x) (pure y)
  | bind {p : Pairing} {α β : Type} {V : Matching α} {W : Matching β} {x x' : Script α}
      {f f' : α → Script β} (first : Foreign may p α V x x')
      (next : ∀ q, p ≤ q → ∀ v v', V q v v' → Foreign may q β W (f v) (f' v')) :
      Foreign may p β W (x >>= f) (x' >>= f')
  | abrupt {p : Pairing} {α : Type} {V : Matching α} {c c' : Abrupt} (completion : c.Matches p c')
      (allowed : ∀ j, c.jump? = some j → may.jumps j) :
      Foreign may p α V (Script.abrupt c) (Script.abrupt c')
  | print {p : Pairing} (text : String) :
      Foreign may p Unit .same (Script.emit (.printed text)) (Script.emit (.printed text))
  | display {p : Pairing} {v w : Value} (value : Value.Matches p v w)
      (granted : may.shrugs ∨ v.id? = none) :
      Foreign may p String .same (Script.display v) (Script.display w)
  | newObject {p : Pairing} :
      Foreign may p ObjectId .id Script.newObject Script.newObject
  | newFunction {p : Pairing} (name : String) (arity : Nat) (behavior : String) :
      Foreign may p ObjectId .id (Script.alloc (Object.foreign name arity behavior))
        (Script.alloc (Object.foreign name arity behavior))
  | newArray {p : Pairing} {xs ys : List Value} (elements : Matching.list Value.Matches p xs ys) :
      Foreign may p ObjectId .id (Script.arrayOf xs) (Script.arrayOf ys)
  | getProperty {p : Pairing} {a b : ObjectId} (object : p.ids a b) (name : String)
      (granted : may.shrugs) :
      Foreign may p Value Value.Matches (Script.getProperty a name) (Script.getProperty b name)
  | setProperty {p : Pairing} {a b : ObjectId} {v w : Value} (object : p.ids a b) (name : String)
      (value : Value.Matches p v w) (granted : may.shrugs) :
      Foreign may p Unit .same (Script.setProperty a name v) (Script.setProperty b name w)
  | edit {p : Pairing} {a b : ObjectId} {f f' : Object → Object} (object : p.ids a b)
      (change : Object.Edit p a b f f') :
      Foreign may p Unit .same (Script.modifyObject a f) (Script.modifyObject b f')
  | fill {p : Pairing} {a b : ObjectId} {f f' : Object → Object} (object : p.ids a b)
      (change : Object.Fill p f f') (granted : may.fills) :
      Foreign may p Unit .same (Script.modifyObject a f) (Script.modifyObject b f')
  | hook {p : Pairing} {a b : ObjectId} {f f' : Object → Object} (object : p.ids a b)
      (change : Object.Hooking p f f') (granted : may.hooking) :
      Foreign may p Unit .same (Script.modifyObject a f) (Script.modifyObject b f')
  | protect {p : Pairing} {a b : ObjectId} (object : p.ids a b) (name : String) (key : Nat)
      (granted : may.keys) :
      Foreign may p Unit .same
        (Script.modifyObject a (·.update name fun x => { x with key := key }))
        (Script.modifyObject b (·.update name fun x => { x with key := key }))
  | keep {p : Pairing} {a b : ObjectId} (object : p.ids a b) (on : Bool) (granted : may.pins) :
      Foreign may p Unit .same
        (Script.modify fun m => { m with heap := if on then m.heap.pin a else m.heap.unpin a })
        (Script.modify fun m => { m with heap := if on then m.heap.pin b else m.heap.unpin b })
  | setKey {p : Pairing} (key : Nat) (granted : may.keys) :
      Foreign may p Unit .same (Script.modify fun m => { m with key := key })
        (Script.modify fun m => { m with key := key })
  | collect {p : Pairing} (granted : may.collections) :
      Foreign may p Heap.Census .same Script.collectGarbage Script.collectGarbage
  | isLive {p : Pairing} {a b : ObjectId} (object : p.ids a b) :
      Foreign may p Bool .same (Script.read fun m => m.heap.isLive a)
        (Script.read fun m => m.heap.isLive b)
  | wasStopped {p : Pairing} :
      Foreign may p Bool .same (Script.read Machine.stopped) (Script.read Machine.stopped)
  | returnValue {p : Pairing} :
      Foreign may p Value Value.Matches (Script.read Machine.result) (Script.read Machine.result)

/-- Whether functions and hooks of an embedding program use the interface only, as far as they may. -/
structure Host.Uses (functions hooks : Permit) (host : Host) : Prop where
  native : ∀ {p v w xs ys} (behavior : String), Value.Matches p v w →
    Matching.list Value.Matches p xs ys →
    Foreign functions p Value Value.Matches (host.native behavior v xs) (host.native behavior w ys)
  readHook : ∀ {p a b} (behavior : String), p.ids a b →
    Foreign hooks p Value Value.Matches (host.readHook behavior a) (host.readHook behavior b)
  writeHook : ∀ {p a b v w} (behavior : String), p.ids a b → Value.Matches p v w →
    Foreign hooks p Value Value.Matches (host.writeHook behavior a v) (host.writeHook behavior b w)
  offer : ∀ {p a b} (behavior : String), p.ids a b → ∀ name : String,
    Foreign hooks p Bool .same (host.offer behavior a name) (host.offer behavior b name)

/-- Whether functions and hooks of an embedding program use the interface only, and end with none but
some jumps. -/
abbrev Host.Proper (functions hooks : Jump → Prop) (host : Host) : Prop :=
  host.Uses (.full functions) (.full hooks)

/-! ## Foreign code keeps simulations -/

namespace Simulation

variable {S : Simulation} {α : Type} {p : Pairing} {V : Matching α} {js : List Jump}
  {may functions hooks : Permit} {host : Host}

/-- The laws of a simulation for the parts of the interface that are not for every embedding
program. -/
structure Grants (S : Simulation) (may : Permit) : Prop where
  untidied : ¬S.tidies
  keep : may.pins → ∀ {g p m m' a b}, S.inv .going g p m m' → p.ids a b → ∀ on : Bool,
    S.inv .going g p { m with heap := if on then m.heap.pin a else m.heap.unpin a }
      { m' with heap := if on then m'.heap.pin b else m'.heap.unpin b }
  setKey : may.keys → ∀ {g p m m'} (key : Nat), S.inv .going g p m m' →
    S.inv .going g p { m with key := key } { m' with key := key }
  protect : may.keys → ∀ {g p m m' a b} (name : String) (key : Nat), S.inv .going g p m m' →
    p.ids a b →
    S.inv .going g p
      { m with heap := m.heap.modify a (·.update name fun x => { x with key := key }) }
      { m' with heap := m'.heap.modify b (·.update name fun x => { x with key := key }) }
  settle : may.shrugs → ∀ {g p m m'}, S.inv .halting g p m m' → S.inv .going g p m m'
  hook : may.hooking → ∀ {g p m m' a b f f'}, S.inv .going g p m m' → p.ids a b →
    Object.Hooking p f f' →
    S.inv .going g p { m with heap := m.heap.modify a f } { m' with heap := m'.heap.modify b f' }
  fill : may.fills → ∀ {g p m m' a b f f'}, S.inv .going g p m m' → p.ids a b → Object.Fill p f f' →
    S.inv .going g p { m with heap := m.heap.modify a f } { m' with heap := m'.heap.modify b f' }
  collect : may.collections → ∀ {g p m m'}, S.inv .going g p m m' →
    m.collect.1 = m'.collect.1 ∧ S.inv .going g p m.collect.2 m'.collect.2

theorem Runs.settled {x x' : Script α}
    (hsettle : ∀ {g p m m'}, S.inv .halting g p m m' → S.inv .going g p m m')
    (h : S.Runs .going ⟨.halting, .halting, js⟩ p V x x') : S.Follows js p V x x' := by
  refine ⟨fun e e' he g m m' hm => ?_⟩
  have h := h.ends e e' he g m m' hm
  generalize x e m = o at h
  generalize x' e' m' = o' at h
  cases h with
  | value hq hv hn => exact .value hq hv (hsettle hn)
  | abrupt hq hc hj hn => exact .abrupt hq hc hj hn
  | exhausted h => exact .exhausted h

/-- The text of a primitive value is there at once. -/
theorem display_primitive {v w : Value} (h : Value.Matches p v w) (hv : v.id? = none) :
    S.Follows js p .same (Script.display v) (Script.display w) := by
  cases h with
  | object id receiver => cases hv
  | _ => exact .pure rfl

theorem foreign_follows (hgrants : S.Grants may) (hjumps : ∀ j, may.jumps j → S.stray j ∨ j ∈ js)
    {x x' : Script α} (h : Foreign may p α V x x') : S.Follows js p V x x' := by
  induction h with
  | pure value => exact .pure value
  | bind _ _ first next => exact .bind first next
  | abrupt completion allowed =>
    cases completion with
    | stopped => exact Runs.stopped.halt
    | returned h => exact .abrupt (.returned h) (fun j hj => hjumps j (allowed j hj)) nofun
    | thrown h => exact .thrown h
    | broken l => exact .abrupt (.broken l) (fun j hj => hjumps j (allowed j hj)) nofun
    | continued l => exact .abrupt (.continued l) (fun j hj => hjumps j (allowed j hj)) nofun
  | print text => exact .emit _ rfl
  | display value granted =>
    cases granted with
    | inl granted => exact .settled (hgrants.settle granted) (display_runs value)
    | inr hprimitive => exact display_primitive value hprimitive
  | newObject => exact newObject_follows
  | newFunction name arity behavior =>
    exact .alloc (.foreign name arity behavior) (Object.ordinary_foreign name arity behavior) nofun
  | newArray elements => exact arrayOf_follows elements
  | getProperty object name granted =>
    have hread : S.Follows js _ Value.Matches (Script.readMember _ _) (Script.readMember _ _) :=
      readMember_follows (.ref object) name
    exact .settled (hgrants.settle granted) (.orElse hread fun _ _ => .undefined)
  | setProperty object name value granted =>
    have hwrite : S.Follows js _ Value.Matches (Script.writeMember _ _ _) (Script.writeMember _ _ _) :=
      writeMember_follows object name value
    refine .bind (.settled (hgrants.settle granted) (.orElse hwrite fun _ hq => value.mono hq))
      fun _ _ _ _ _ => ?_
    exact .pure rfl
  | edit object change => exact .modify fun hm => S.edit hm object change fun h => absurd h hgrants.untidied
  | fill object change granted => exact .modify fun hm => hgrants.fill granted hm object change
  | hook object change granted => exact .modify fun hm => hgrants.hook granted hm object change
  | protect object name key granted =>
    exact .modify fun hm => hgrants.protect granted name key hm object
  | keep object on granted => exact .modify fun hm => hgrants.keep granted hm object on
  | setKey key granted => exact .modify fun hm => hgrants.setKey granted key hm
  | collect granted =>
    refine Runs.bind (b := .going) (V := .same) ⟨fun e e' he g m m' hm => ?_⟩ fun q _ census _ hcensus => ?_
    · exact .value (le_refl _) (hgrants.collect granted hm).1 (hgrants.collect granted hm).2
    · cases hcensus
      exact .bind (V := .same) (.log fun _ => rfl) fun _ _ _ _ _ => .pure rfl
  | isLive object => exact .read fun hm => (S.matched hm).heap.isLive_eq object
  | wasStopped => exact .read fun hm => (S.matched hm).stopped
  | returnValue => exact .read fun hm => (S.matched hm).result

theorem Embeds.of_uses (h : host.Uses functions hooks) (hfunctions : S.Grants functions)
    (hhooks : S.Grants hooks) (hjumps : ∀ j, functions.jumps j → j = .returned ∨ S.stray j)
    (hstray : ∀ j, hooks.jumps j → S.stray j) : S.Embeds host host where
  native behavior hv hxs := foreign_follows hfunctions
    (fun j hj => (hjumps j hj).elim (fun he => .inr (he ▸ .head _)) .inl) (h.native behavior hv hxs)
  readHook behavior hab := foreign_follows hhooks (fun j hj => .inl (hstray j hj))
    (h.readHook behavior hab)
  writeHook behavior hab hv := foreign_follows hhooks (fun j hj => .inl (hstray j hj))
    (h.writeHook behavior hab hv)
  offer behavior hab name := foreign_follows hhooks (fun j hj => .inl (hstray j hj))
    (h.offer behavior hab name)

end Simulation

/-! ## The stock of behaviors -/

namespace Foreign

variable {may : Permit} {p : Pairing} {α β : Type} {V : Matching α} {W : Matching β}

theorem fold {step step' : α → β → Script α} {xs ys : List β} {s t : α}
    (hxs : Matching.list W p xs ys) (hW : W.Monotone) (hs : V p s t)
    (hstep : ∀ q, p ≤ q → ∀ s t x y, V q s t → W q x y →
      Foreign may q α V (step s x) (step' t y)) :
    Foreign may p α V (Script.fold step xs s) (Script.fold step' ys t) := by
  induction xs generalizing p ys s t with
  | nil =>
    cases hxs
    exact .pure hs
  | cons x xs ih =>
    obtain ⟨y, ys, rfl, hx, hrest⟩ := Matching.list_cons hxs
    have hcons : ∀ (step : α → β → Script α) (x : β) (xs : List β) (s : α),
        Script.fold step (x :: xs) s = step s x >>= fun s => Script.fold step xs s :=
      fun _ _ _ _ => rfl
    rw [hcons, hcons]
    refine .bind (hstep p (le_refl p) s t x y hs hx) fun q hq v v' hv => ?_
    exact ih (Matching.list_mono hW hq hrest) hv fun r hr => hstep r (hq.trans hr)

theorem each {f f' : β → Script α} {xs ys : List β} (hxs : Matching.list W p xs ys)
    (hW : W.Monotone) (hV : V.Monotone)
    (hf : ∀ q, p ≤ q → ∀ x y, W q x y → Foreign may q α V (f x) (f' y)) :
    Foreign may p (List α) (.list V) (Script.each f xs) (Script.each f' ys) := by
  refine .bind (V := .list V) (.fold hxs hW .nil fun q hq s t x y hs hx => ?_) fun q _ v v' hv =>
    .pure (Matching.list_reverse hv)
  exact .bind (hf q hq x y hx) fun r hr v v' hv => .pure (.cons hv (Matching.list_mono hV hr hs))

end Foreign

namespace Stock

variable {jumps : Jump → Prop} {pins keys hooking collections fills : Prop} {p : Pairing}
  {v w : Value} {xs ys : List Value}

theorem print_foreign (hxs : Matching.list Value.Matches p xs ys) :
    Foreign ⟨jumps, pins, keys, True, hooking, collections, fills⟩ p Value Value.Matches (print xs)
      (print ys) := by
  refine .bind (V := .list .same) (.each hxs Value.Matches.mono Matching.same_mono
    fun q _ x y hx => .display hx (.inl trivial)) fun q _ texts texts' ht => ?_
  rw [Matching.list_same ht]
  exact .bind (.print _) fun _ _ _ _ _ => .pure .undefined

theorem native_foreign (behavior : String) (hv : Value.Matches p v w)
    (hxs : Matching.list Value.Matches p xs ys) :
    Foreign ⟨fun _ => True, pins, keys, True, hooking, collections, fills⟩ p Value Value.Matches
      (native behavior v xs) (native behavior w ys) := by
  have hfirst : Value.Matches p (xs.headD .undefined) (ys.headD .undefined) := by
    cases hxs with
    | nil => exact .undefined
    | cons h _ => exact h
  unfold native
  split
  · exact print_foreign hxs
  · exact .pure hfirst
  · exact .abrupt (.returned hfirst) fun _ _ => trivial
  · exact .abrupt (.thrown hfirst) fun _ _ => trivial
  · exact .pure hv
  · rw [Matching.list_length hxs]
    exact .pure (.ofNat _)
  · have htruthy := hfirst.isTruthy_eq
    dsimp only
    rw [htruthy]
    exact .pure (.boolean _)
  · exact .bind (.newArray hxs) fun _ _ _ _ hab => .pure (.ref hab)
  · exact .abrupt (.broken none) fun _ _ => trivial
  · exact .abrupt (.continued none) fun _ _ => trivial
  · exact .abrupt .stopped fun _ _ => trivial
  · exact .pure .undefined

theorem readHook_foreign (behavior : String) {a b : ObjectId} (hab : p.ids a b) :
    Foreign ⟨jumps, pins, keys, True, hooking, collections, fills⟩ p Value Value.Matches
      (readHook behavior a) (readHook behavior b) := by
  unfold readHook
  split
  · exact .pure (.ofNat 42)
  · exact .getProperty hab "raw" trivial
  · exact .getProperty hab "raw" trivial
  · exact .abrupt (.thrown (.string _)) nofun
  · exact .pure .undefined

theorem writeHook_foreign (behavior : String) {a b : ObjectId} (hab : p.ids a b)
    (hv : Value.Matches p v w) :
    Foreign ⟨jumps, pins, keys, True, hooking, collections, fills⟩ p Value Value.Matches
      (writeHook behavior a v) (writeHook behavior b w) := by
  unfold writeHook
  split
  · exact .bind (.setProperty hab "last" hv trivial) fun _ hq _ _ _ => .pure (hv.mono hq)
  · refine .bind (.display hv (.inl trivial)) ?_
    rintro q hq text _ rfl
    exact .bind (.setProperty (hq hab) "raw" (.string _) trivial) fun _ hr _ _ _ =>
      .pure (hv.mono (hq.trans hr))
  · exact .abrupt (.thrown (.string _)) nofun
  · exact .abrupt (.thrown (.string _)) nofun
  · exact .pure hv

theorem offer_foreign (behavior : String) {a b : ObjectId} (hab : p.ids a b) (name : String) :
    Foreign ⟨jumps, pins, keys, True, True, collections, fills⟩ p Bool .same (offer behavior a name)
      (offer behavior b name) := by
  unfold offer
  split
  · split
    · exact .bind (.hook hab (.addHook name "answer" hab) trivial) fun _ _ _ _ _ => .pure rfl
    · exact .pure rfl
  · exact .pure rfl

theorem host_uses (observer : Observer) {hooks : Jump → Prop} :
    (host observer).Uses ⟨fun _ => True, pins, keys, True, hooking, collections, fills⟩
      ⟨hooks, pins, keys, True, True, collections, fills⟩ where
  native behavior hv hxs := native_foreign behavior hv hxs
  readHook behavior hab := readHook_foreign behavior hab
  writeHook behavior hab hv := writeHook_foreign behavior hab hv
  offer behavior hab name := offer_foreign behavior hab name

/-- A host whose functions all print their arguments. -/
def printer (observer : Observer) : Host :=
  { host observer with native := fun _ _ args => print args }

theorem printer_uses (observer : Observer) {hooks : Jump → Prop} :
    (printer observer).Uses ⟨jumps, pins, keys, True, hooking, collections, fills⟩
      ⟨hooks, pins, keys, True, True, collections, fills⟩ where
  native _ _ hxs := print_foreign hxs
  readHook behavior hab := readHook_foreign behavior hab
  writeHook behavior hab hv := writeHook_foreign behavior hab hv
  offer behavior hab name := offer_foreign behavior hab name

/-- The text of a value, without the help of its methods if it is an object. -/
def plainText (v : Value) : Script String :=
  match v with
  | .object _ _ => return "an object"
  | v => Script.display v

/-- A host whose functions print the plain texts of their arguments, and whose hooks do nothing. -/
def plainPrinter (observer : Observer) : Host where
  toObserver := observer
  native _ _ args := do
    let texts ← Script.each plainText args
    Script.emit (.printed (String.intercalate " " texts))
    return .undefined
  readHook _ _ := return .undefined
  writeHook _ _ v := return v
  offer _ _ _ := return false

theorem plainText_foreign {may : Permit} (h : Value.Matches p v w) :
    Foreign may p String .same (plainText v) (plainText w) := by
  cases h with
  | object _ _ => exact .pure rfl
  | undefined => exact .display .undefined (.inr rfl)
  | null => exact .display .null (.inr rfl)
  | boolean b => exact .display (.boolean b) (.inr rfl)
  | number n => exact .display (.number n) (.inr rfl)
  | string s => exact .display (.string s) (.inr rfl)

theorem plainPrinter_uses (functions hooks : Permit) (observer : Observer) :
    (plainPrinter observer).Uses functions hooks where
  native _ {_ _ _ _ _} _ hxs := by
    refine .bind (V := .list .same) (.each hxs Value.Matches.mono Matching.same_mono
      fun q _ x y hx => plainText_foreign hx) fun q _ texts texts' ht => ?_
    rw [Matching.list_same ht]
    exact .bind (.print _) fun _ _ _ _ _ => .pure .undefined
  readHook _ _ := .pure .undefined
  writeHook _ _ hv := .pure hv
  offer _ _ _ := .pure rfl

end Stock

end PageScript
