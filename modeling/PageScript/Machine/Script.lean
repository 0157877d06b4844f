import PageScript.Machine.State

/-! # Running scripts

`Script α` is a computation of an `α` over the machine.  It ends in one of three ways, each with the
machine it leaves behind: with a value, with an abrupt completion on its way to whoever handles it, or
because the bound on nested steps was used up, which no script can tell apart from going on.

The parts of the interpreter do not call each other directly.  They describe what is to be done next as
a `Task`, and perform it through `Engine.perform`; so each part is a definition of its own, and only the
last module ties them together.
-/

set_option autoImplicit false

namespace PageScript

/-! ## Endings -/

/-- A completion other than going on: control on its way to a call, a handler, a loop or a label, or
the end of the run. -/
inductive Abrupt where
  | returned (value : Value)
  | thrown (value : Value)
  | broken (label : Option String)
  | continued (label : Option String)
  | stopped

/-- How a computation ends, and the machine it leaves. -/
inductive Outcome (α : Type) where
  | value (a : α) (m : Machine)
  | abrupt (c : Abrupt) (m : Machine)
  | exhausted (m : Machine)

/-- The machine that a computation leaves. -/
def Outcome.machine {α : Type} : Outcome α → Machine
  | .value _ m => m
  | .abrupt _ m => m
  | .exhausted m => m

/-- A completion: a value or an abrupt one. -/
inductive Completion where
  | normal (value : Value)
  | abrupt (c : Abrupt)

/-! ## Tasks -/

/-- What one part of the interpreter may ask another to do.  Each task yields a value. -/
inductive Task where
  /-- Evaluate an expression. -/
  | expression (e : Expression)
  /-- Run a statement behind some labels. -/
  | statement (s : Statement) (labels : List String)
  /-- Call a function. -/
  | call (function : ObjectId) (this : Option ObjectId) (args : List Value) (constructing : Bool)
  /-- Let the embedding program answer the read of a variable. -/
  | readHook (behavior : String) (owner : ObjectId)
  /-- Let the embedding program answer the write of a variable. -/
  | writeHook (behavior : String) (owner : ObjectId) (value : Value)
  /-- Offer the embedding program a name before it is added to an object; the value is true if the
  name was taken. -/
  | offer (behavior : String) (object : ObjectId) (name : String)

/-- What every part of the interpreter may use: the settings, the answers of the embedding program, a
way to perform tasks, and a bound on the rounds of a loop. -/
structure Engine where
  config : Config
  observer : Observer
  perform : Task → Machine → Outcome Value
  rounds : Nat

/-- A computation of an `α` over the machine. -/
def Script (α : Type) : Type := Engine → Machine → Outcome α

namespace Script

variable {α β σ : Type}

/-- Yields a value. -/
@[always_inline, inline] protected def pure (a : α) : Script α := fun _ m => .value a m

/-- Goes on after a value; any other ending is passed on. -/
@[always_inline, inline] protected def bind (x : Script α) (f : α → Script β) : Script β :=
  fun e m =>
    match x e m with
    | .value a m => f a e m
    | .abrupt c m => .abrupt c m
    | .exhausted m => .exhausted m

instance : Monad Script where
  pure := Script.pure
  bind := Script.bind

/-! ## Primitives -/

/-- Completes abruptly. -/
@[inline] def abrupt (c : Abrupt) : Script α := fun _ m => .abrupt c m

/-- A view of the machine. -/
@[inline] def read (f : Machine → α) : Script α := fun _ m => .value (f m) m

/-- Changes the machine. -/
@[inline] def modify (f : Machine → Machine) : Script Unit := fun _ m => .value () (f m)

/-- A view of the embedding program's answers and of the machine. -/
@[inline] def ask (f : Observer → Machine → α) : Script α := fun e m => .value (f e.observer m) m

/-- The settings. -/
@[inline] def config : Script Config := fun e m => .value e.config m

/-- Performs a task. -/
@[inline] def perform (t : Task) : Script Value := fun e m => e.perform t m

/-- The completion of a computation as a value. -/
@[inline] def attempt (x : Script Value) : Script Completion := fun e m =>
  match x e m with
  | .value v m => .value (.normal v) m
  | .abrupt c m => .value (.abrupt c) m
  | .exhausted m => .exhausted m

/-- Continues with a completion. -/
@[inline] def complete : Completion → Script Value
  | .normal v => Script.pure v
  | .abrupt c => abrupt c

/-- The value of a computation, or a default if it completes abruptly. -/
@[inline] def orElse (x : Script α) (default : α) : Script α := fun e m =>
  match x e m with
  | .value a m => .value a m
  | .abrupt _ m => .value default m
  | .exhausted m => .exhausted m

/-- A computation that takes a return as its value. -/
@[inline] def returning (x : Script Value) : Script Value := fun e m =>
  match x e m with
  | .abrupt (.returned v) m => .value v m
  | other => other

/-- Does something to the machine after a computation, however it ends. -/
@[inline] def afterwards (x : Script α) (f : Machine → Machine) : Script α := fun e m =>
  match x e m with
  | .value a m => .value a (f m)
  | .abrupt c m => .abrupt c (f m)
  | .exhausted m => .exhausted (f m)

/-! ## Loops -/

/-- One round after another from a state, at most `limit` of them; a round yields the next state or the
result. -/
@[specialize] def iterateUpTo (round : σ → Script (Sum σ α)) :
    Nat → σ → Engine → Machine → Outcome α
  | 0, _, _, m => .exhausted m
  | limit + 1, s, e, m =>
    match round s e m with
    | .value (.inl s) m => iterateUpTo round limit s e m
    | .value (.inr a) m => .value a m
    | .abrupt c m => .abrupt c m
    | .exhausted m => .exhausted m

/-- One round after another from a state until a round yields a result. -/
@[inline] def iterate (round : σ → Script (Sum σ α)) (s : σ) : Script α := fun e m =>
  iterateUpTo round e.rounds s e m

/-- Passes over a list from a state. -/
@[specialize] def foldOver (step : σ → β → Script σ) : List β → σ → Engine → Machine → Outcome σ
  | [], s, _, m => .value s m
  | b :: rest, s, e, m =>
    match step s b e m with
    | .value s m => foldOver step rest s e m
    | .abrupt c m => .abrupt c m
    | .exhausted m => .exhausted m

/-- Passes over a list from a state. -/
@[inline] def fold (step : σ → β → Script σ) (items : List β) (s : σ) : Script σ :=
  fun e m => foldOver step items s e m

/-- Passes over a list from a state until a step yields its state on the right. -/
@[specialize] def foldOverUntil (step : σ → β → Script (Sum σ σ)) :
    List β → σ → Engine → Machine → Outcome σ
  | [], s, _, m => .value s m
  | b :: rest, s, e, m =>
    match step s b e m with
    | .value (.inl s) m => foldOverUntil step rest s e m
    | .value (.inr s) m => .value s m
    | .abrupt c m => .abrupt c m
    | .exhausted m => .exhausted m

/-- Passes over a list from a state until a step yields its state on the right. -/
@[inline] def foldUntil (step : σ → β → Script (Sum σ σ)) (items : List β) (s : σ) : Script σ :=
  fun e m => foldOverUntil step items s e m

/-- The results for all members of a list, in order. -/
@[inline] def each (f : β → Script α) (items : List β) : Script (List α) := do
  let reversed ← fold (fun done b => do return (← f b) :: done) items []
  return reversed.reverse

/-! ## Events -/

/-- Lets the embedding program see an event. -/
def emit (event : Event) : Script Unit := modify fun m => { m with events := event :: m.events }

/-- Writes to the log what is not too detailed for it. -/
@[inline] def log (level : LogLevel) (text : Machine → String) : Script Unit := fun e m =>
  if level.rank ≤ e.config.verbosity.rank then
    let line := text m
    .value () { m with events := .logged level line :: m.events }
  else .value () m

/-! ## The heap -/

/-- The object of a live id. -/
@[inline] def object? (id : ObjectId) : Script (Option Object) := read fun m => m.heap.get? id

/-- Changes a live object. -/
@[inline] def modifyObject (id : ObjectId) (f : Object → Object) : Script Unit :=
  modify fun m => { m with heap := m.heap.modify id f }

/-- Makes an object. -/
def alloc (o : Object) : Script ObjectId := fun _ m =>
  let (id, heap) := m.heap.alloc o
  .value id { m with heap := heap }

end Script

end PageScript
