import PageScript.Proofs.ControlFlow.Jumps
import PageScript.Proofs.Pairing.Heap

/-! # Simulations

A `Simulation` is an invariant between two machines that run side by side, with the laws that the
primitives of the interpreter must obey for it.  `Simulation.Follows` says that two computations keep
the invariant and end alike; the lemmas on it put such facts together along the structure of a
computation.  An invariant of a single machine is the special case of two equal machines.
-/

set_option autoImplicit false

namespace PageScript

/-! ## Endings -/

/-- Where a run stands between two primitives: under way, just past the start of an element, on its way
out with an error that may wait to be shown, showing an error, or about to obey an answer. -/
inductive Phase where
  | going | polled | halting
  | showing (kind : ErrorKind) (message : String)
  | answered (answer : Answer)

/-- How a computation is to end: the phases at a value and at a stop, and the jumps that it may end
with. -/
structure Course where
  value : Phase
  stop : Phase
  jumps : List Jump

namespace Course

/-- Ends under way, or with an exception or a stop, or with one of some jumps. -/
@[reducible]
def leaving (jumps : List Jump) : Course := ⟨.going, .halting, jumps⟩

/-- The phase at an abrupt completion. -/
def abrupt (k : Course) : Abrupt → Phase
  | .stopped => k.stop
  | _ => .going

end Course

/-- The course of a task: a statement may end with the jumps of its text, and shows its errors before it
ends. -/
def Task.course : Task → Course
  | .statement s labels => ⟨.going, .going, s.jumps labels⟩
  | _ => .leaving []

/-- Abrupt completions that agree up to the objects they carry. -/
inductive Abrupt.Matches (p : Pairing) : Abrupt → Abrupt → Prop where
  | returned {v w : Value} (value : Value.Matches p v w) : Matches p (.returned v) (.returned w)
  | thrown {v w : Value} (value : Value.Matches p v w) : Matches p (.thrown v) (.thrown w)
  | broken (label : Option String) : Matches p (.broken label) (.broken label)
  | continued (label : Option String) : Matches p (.continued label) (.continued label)
  | stopped : Matches p .stopped .stopped

theorem Abrupt.Matches.mono : Matching.Monotone Abrupt.Matches := by
  intro p q hpq c d h
  cases h with
  | returned value => exact .returned (value.mono hpq)
  | thrown value => exact .thrown (value.mono hpq)
  | _ => constructor

/-! ## Simulations -/

/-- Enters an activation. -/
def Machine.push (f : Frame) (m : Machine) : Machine :=
  { m with frame := f, callers := m.frame :: m.callers }

/-- Ends the innermost activation. -/
def Machine.pop (m : Machine) : Machine :=
  match m.callers with
  | f :: rest => { m with frame := f, callers := rest }
  | [] => m

@[simp]
theorem Machine.pop_heap (m : Machine) : m.pop.heap = m.heap := by
  unfold pop
  split <;> rfl

/-- What is done at the start of a part of a run and taken back at its end, apart from activations and
calls. -/
inductive Bracket (p : Pairing) :
    (Machine → Machine) → (Machine → Machine) → (Machine → Machine) → (Machine → Machine) → Prop where
  | pin {a b : ObjectId} (id : p.ids a b) :
      Bracket p (fun m => { m with heap := m.heap.pin a }) (fun m => { m with heap := m.heap.pin b })
        (fun m => { m with heap := m.heap.unpin a }) (fun m => { m with heap := m.heap.unpin b })
  | guard :
      Bracket p (fun m => { m with tryDepth := m.tryDepth + 1 })
        (fun m => { m with tryDepth := m.tryDepth + 1 })
        (fun m => { m with tryDepth := m.tryDepth - 1 })
        (fun m => { m with tryDepth := m.tryDepth - 1 })
  | withObject {a b : ObjectId} (id : p.ids a b) :
      Bracket p
        (fun m => { m with frame := { m.frame with withs := ⟨a, false⟩ :: m.frame.withs } })
        (fun m => { m with frame := { m.frame with withs := ⟨b, false⟩ :: m.frame.withs } })
        (fun m => { m with frame := { m.frame with withs := m.frame.withs.tail } })
        (fun m => { m with frame := { m.frame with withs := m.frame.withs.tail } })

/-- Does what an answer of the embedding program asks for. -/
def Machine.obey (a : Answer) (m : Machine) : Machine :=
  match a with
  | .cancelled | .toError .abort | .toStep .abort => { m with stopped := true }
  | .toError .debug => { m with stepping := true, stopped := false }
  | .toStep .step => m
  | .toStep .goOn => { m with stepping := false }

/-- Shows an error and keeps the answer. -/
def Machine.reported (r : ErrorReport) (action : ErrorAction) (m : Machine) : Machine :=
  { m with events := .reported r :: m.events }.answered (.toError action)

/-- Whether an event shows an error. -/
def Event.isReport : Event → Bool
  | .reported _ => true
  | _ => false

/-- Whether an answer is to an error that was shown. -/
def Answer.isToError : Answer → Bool
  | .toError _ => true
  | _ => false

/-- Whether an object that declines a name that it was offered has no variable of it afterwards, if it had
none before. -/
def Engine.Declines (e : Engine) : Prop :=
  ∀ behavior a name m v n, e.perform (.offer behavior a name) m = .value v n → v.isTruthy = false →
    m.heap.owns a name = false → n.heap.owns a name = false

/-- An invariant between two machines, and the laws of the primitives for it. -/
structure Simulation where
  /-- What a part of a run must find again at its end. -/
  Ghost : Type
  /-- The invariant in a phase. -/
  inv : Phase → Ghost → Pairing → Machine → Machine → Prop
  /-- The machines of two runs that were cut off. -/
  spent : Ghost → Machine → Machine → Prop
  /-- Events that the embedding program cannot tell apart. -/
  alike : List Event → List Event → Prop
  /-- Whether tasks may evaluate expressions and run statements. -/
  text : Prop
  /-- The functions that may come into being. -/
  sound : FunctionTree → Prop
  /-- The jumps that may leave functions. -/
  stray : Jump → Prop
  /-- Whether errors may be shown, or not. -/
  shows : Bool → Prop
  /-- The innermost statement around a part of a run. -/
  inside : Ghost → Statement → Prop
  /-- How many activations a part of a run may enter, one within the other, before the next call. -/
  room : Ghost → Nat → Prop
  /-- How many calls may be nested. -/
  depth : Nat → Prop
  /-- The objects whose length a part of a run may change. -/
  lengths : Ghost → ObjectId → Prop
  /-- The objects that a run may have made. -/
  made : ObjectId → Prop
  /-- Whether changes of tidy objects must leave them tidy. -/
  tidies : Prop
  /-- Whether the names of the variables of tidy objects are unique. -/
  unique : Prop
  matched : ∀ {ph g p m m'}, inv ph g p m m' → Machine.Matches p m m'
  seen : ∀ {ph g p m m'}, inv ph g p m m' → alike m.events m'.events
  code : ∀ {ph g p m m' id o tree scope}, inv ph g p m m' → m.heap.get? id = some o →
    o.callable = some (.script tree scope) → ∀ t ∈ tree.trees, sound t
  parsed : ∀ {source body}, Program.parse source = .ok body → ∀ t ∈ Statement.treesOf body, sound t
  spend : ∀ {g p m m'}, inv .going g p m m' → spent g m m'
  goOn : ∀ {g p m m'}, inv .polled g p m m' → inv .going g p m m'
  halt : ∀ {g p m m'}, inv .going g p m m' → inv .halting g p m m'
  settle : ∀ {g p m m'}, inv .halting g p m m' → m.pending = none → inv .going g p m m'
  edit : ∀ {g p m m' a b f f'}, inv .going g p m m' → p.ids a b → Object.Edit p a b f f' →
    (tidies → m.heap.Neat unique a f) →
    inv .going g p { m with heap := m.heap.modify a f } { m' with heap := m'.heap.modify b f' }
  fill : ∀ {g p m m' a b f f'}, inv .going g p m m' → p.ids a b → made a → Object.Fill p f f' →
    (tidies → m.heap.Neat unique a f) →
    inv .going g p { m with heap := m.heap.modify a f } { m' with heap := m'.heap.modify b f' }
  makes : ∀ {g p m m'} (o : Object), inv .going g p m m' → made (m.heap.alloc o).1
  lengthHook : ∀ {g p m m' a b name}, inv .going g p m m' →
    (m.heap.own? a name).map Variable.link = some (.hook .arrayLength b) →
    ∃ g', lengths g' b ∧ inv .going g' p m m' ∧
      (∀ {ph q n n'}, p ≤ q → inv ph g' q n n' → inv ph g q n n') ∧
      ∀ {n n'}, spent g' n n' → spent g n n'
  setLength : ∀ {g p m m' a b} (current length : Nat), inv .going g p m m' → p.ids a b → lengths g a →
    inv .going g p { m with heap := m.heap.modify a (·.setLength current length) }
      { m' with heap := m'.heap.modify b (·.setLength current length) }
  alloc : ∀ {g p m m' o o'}, inv .going g p m m' → Object.Matches p o o' → o.Ordinary →
    (∀ tree scope, o.callable = some (.script tree scope) → ∀ t ∈ tree.trees, sound t) →
    ∃ q, p ≤ q ∧ q.ids (m.heap.alloc o).1 (m'.heap.alloc o').1 ∧
      inv .going g q { m with heap := (m.heap.alloc o).2 } { m' with heap := (m'.heap.alloc o').2 }
  see : ∀ {ph g p m m'} (event : Event), event.isReport = false → inv ph g p m m' →
    inv ph g p { m with events := event :: m.events } { m' with events := event :: m'.events }
  draw : ∀ {g p m m'} (x : UInt64), inv .going g p m m' →
    inv .going g p { m with random := x } { m' with random := x }
  note : ∀ {g p m m'} (entry : ErrorKind × String), inv .going g p m m' → m.tryDepth = 0 →
    m.stopped = false → inv .halting g p (m.note entry) (m'.note entry)
  uncaught : ∀ {g p m m'} (entry : ErrorKind × String), inv .halting g p m m' →
    inv .halting g p (if m.pending.isNone then m.note entry else m)
      (if m'.pending.isNone then m'.note entry else m')
  reveal : ∀ {g p m m' kind message}, inv .halting g p m m' → m.pending = some (kind, message) →
    inv (.showing kind message) g p { m with pending := none } { m' with pending := none }
  report : ∀ {g p m m' kind message s} (action : ErrorAction), shows true → inside g s →
    inv (.showing kind message) g p m m' →
    inv (.answered (.toError action)) g p (m.reported ⟨kind, message, s.line, s.text⟩ action)
      (m'.reported ⟨kind, message, s.line, s.text⟩ action)
  suppress : ∀ {g p m m' kind message}, shows false → inv (.showing kind message) g p m m' →
    inv .going g p { m with stopped := true } { m' with stopped := true }
  count : ∀ {g p m m'}, inv .going g p m m' → m.stopped = false →
    inv .polled g p m.count m'.count
  answerPoll : ∀ {g p m m'} (a : Answer), a.isToError = false → inv .polled g p m m' →
    inv (.answered a) g p (m.answered a) (m'.answered a)
  obey : ∀ {g p m m' a}, inv (.answered a) g p m m' → inv .going g p (m.obey a) (m'.obey a)
  quit : ∀ {g p m m'}, inv .going g p m m' →
    inv .going g p { m with stopped := true } { m' with stopped := true }
  statement : ∀ {g p m m'} (s : Statement), inv .going g p m m' →
    ∃ g', inside g' s ∧ inv .going g' p (m.enter s) (m'.enter s) ∧
      (∀ {q n n'}, p ≤ q → inv .going g' q n n' → inv .going g q n.leave n'.leave) ∧
      ∀ {n n'}, spent g' n n' → spent g n.leave n'.leave
  bracket : ∀ {g p m m' enter enter' leave leave'}, Bracket p enter enter' leave leave' →
    inv .going g p m m' → ∃ g', inv .going g' p (enter m) (enter' m') ∧
      (∀ {ph q n n'}, p ≤ q → inv ph g' q n n' → inv ph g q (leave n) (leave' n')) ∧
      ∀ {n n'}, spent g' n n' → spent g (leave n) (leave' n')
  call : ∀ {g p m m' limit}, depth limit → m.callDepth < limit → inv .going g p m m' →
    ∃ g', room g' 2 ∧
      inv .going g' p { m with callDepth := m.callDepth + 1 }
        { m' with callDepth := m'.callDepth + 1 } ∧
      (∀ {ph q n n'}, p ≤ q → inv ph g' q n n' →
        inv ph g q { n with callDepth := n.callDepth - 1 } { n' with callDepth := n'.callDepth - 1 }) ∧
      ∀ {n n'}, spent g' n n' →
        spent g { n with callDepth := n.callDepth - 1 } { n' with callDepth := n'.callDepth - 1 }
  frame : ∀ {g p m m' f f' k}, Frame.Matches p f f' → f.withs = [] → room g (k + 1) →
    inv .going g p m m' →
    ∃ g', room g' k ∧ inv .going g' p (m.push f) (m'.push f') ∧
      (∀ {ph q n n'}, p ≤ q → inv ph g' q n n' → inv ph g q n.pop n'.pop) ∧
      ∀ {n n'}, spent g' n n' → spent g n.pop n'.pop

namespace Simulation

variable (S : Simulation) {α β σ : Type} {k : Course} {p : Pairing} {V : Matching α} {W : Matching β}

/-- Whether a completion is one that a course allows. -/
def Allows (jumps : List Jump) (c : Abrupt) : Prop :=
  ∀ j, c.jump? = some j → S.stray j ∨ j ∈ jumps

/-- Two endings of a course with the invariant between the machines, and values that match. -/
inductive Ends (k : Course) (g : S.Ghost) (p : Pairing) (V : Matching α) :
    Outcome α → Outcome α → Prop where
  | value {q : Pairing} {v v' : α} {m m' : Machine} (grows : p ≤ q) (value : V q v v')
      (inv : S.inv k.value g q m m') : Ends k g p V (.value v m) (.value v' m')
  | abrupt {q : Pairing} {c c' : Abrupt} {m m' : Machine} (grows : p ≤ q)
      (completion : Abrupt.Matches q c c') (allowed : S.Allows k.jumps c)
      (inv : S.inv (k.abrupt c) g q m m') : Ends k g p V (.abrupt c m) (.abrupt c' m')
  | exhausted {m m' : Machine} (spent : S.spent g m m') : Ends k g p V (.exhausted m) (.exhausted m')

/-- Objects are paired, and were made by the run. -/
def Made : Matching ObjectId := fun p a b => p.ids a b ∧ S.made a

/-- Whether text with some functions may be run. -/
structure Sound (trees : List FunctionTree) : Prop where
  text : S.text
  trees : ∀ t ∈ trees, S.sound t

/-- Tasks that are equal up to their objects. -/
inductive Poses (p : Pairing) : Task → Task → Prop where
  | expression {e : Expression} (trees : S.Sound e.trees) : Poses p (.expression e) (.expression e)
  | statement {s : Statement} (labels : List String) (trees : S.Sound s.trees) :
      Poses p (.statement s labels) (.statement s labels)
  | call {f f' : ObjectId} {this this' : Option ObjectId} {xs ys : List Value}
      (function : p.ids f f') (receiver : Matching.option .id p this this')
      (args : Matching.list Value.Matches p xs ys) (constructing : Bool) :
      Poses p (.call f this xs constructing) (.call f' this' ys constructing)
  | readHook (behavior : String) {a b : ObjectId} (owner : p.ids a b) :
      Poses p (.readHook behavior a) (.readHook behavior b)
  | writeHook (behavior : String) {a b : ObjectId} {v w : Value} (owner : p.ids a b)
      (value : Value.Matches p v w) : Poses p (.writeHook behavior a v) (.writeHook behavior b w)
  | offer (behavior : String) {a b : ObjectId} (object : p.ids a b) (name : String) :
      Poses p (.offer behavior a name) (.offer behavior b name)

/-- Two ways of performing tasks that keep the invariant. -/
def Performs (perform perform' : Task → Machine → Outcome Value) : Prop :=
  ∀ p t t', S.Poses p t t' → ∀ g m m', S.inv .going g p m m' →
    S.Ends t.course g p Value.Matches (perform t m) (perform' t' m')

/-- Two engines that answer alike and keep the invariant.  They may differ in when they collect
garbage. -/
structure Agree (e e' : Engine) : Prop where
  maxDepth : e.config.maxDepth = e'.config.maxDepth
  depth : S.depth e.config.maxDepth
  showErrors : e.config.showErrors = e'.config.showErrors
  shows : S.shows e.config.showErrors
  gmtOffset : e.config.gmtOffset = e'.config.gmtOffset
  verbosity : e.config.verbosity = e'.config.verbosity
  epoch : e.config.epoch = e'.config.epoch
  feedback : ∀ {es es'}, S.alike es es' → ∀ n, e.observer.feedback es n = e'.observer.feedback es' n
  onError : ∀ {es es'}, S.alike es es' → ∀ r, e.observer.onError es r = e'.observer.onError es' r
  onStep : ∀ {es es'}, S.alike es es' → ∀ d, e.observer.onStep es d = e'.observer.onStep es' d
  performs : S.Performs e.perform e'.perform
  declines : S.unique → e.Declines
  rounds : e.rounds = e'.rounds

/-- Two computations that keep the invariant from a phase on along a course within a part of a run, and
yield values that match. -/
structure RunsAt (g : S.Ghost) (start : Phase) (k : Course) (p : Pairing) (V : Matching α)
    (x x' : Script α) : Prop where
  ends : ∀ e e', S.Agree e e' → ∀ m m', S.inv start g p m m' → S.Ends k g p V (x e m) (x' e' m')

/-- Two computations that keep the invariant from a phase on along a course, and yield values that
match. -/
structure Runs (start : Phase) (k : Course) (p : Pairing) (V : Matching α) (x x' : Script α) :
    Prop where
  ends : ∀ e e', S.Agree e e' → ∀ g m m', S.inv start g p m m' → S.Ends k g p V (x e m) (x' e' m')

/-- Two computations that keep the invariant while under way, and yield values that match. -/
abbrev Follows (jumps : List Jump) (p : Pairing) (V : Matching α) (x x' : Script α) : Prop :=
  S.Runs .going (.leaving jumps) p V x x'

end Simulation

end PageScript
