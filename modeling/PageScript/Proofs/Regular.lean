import PageScript.Proofs.Composed

/-! # Regular computations

How a run stands is a matter of three things: how many `try` blocks it is in, the error that waits to be
shown, and whether it has been stopped.  A regular computation touches them in three ways only, by raising
an error, by ending the run and by running something inside `try`.  It stops for no other reason than these,
and for a stop of a task or part that it passes on.
-/

set_option autoImplicit false

namespace PageScript

open Script

/-! ## Where a run stands -/

/-- A later machine of a run that stands where it did. -/
structure Machine.Quiet (m n : Machine) : Prop extends m.After n where
  tryDepth : n.tryDepth = m.tryDepth
  pending : n.pending = m.pending
  stopped : n.stopped = m.stopped

/-- A machine that has counted and shown the same, of a run that stands where it did. -/
structure Machine.Aside (m n : Machine) : Prop extends m.Abreast n where
  tryDepth : n.tryDepth = m.tryDepth
  pending : n.pending = m.pending
  stopped : n.stopped = m.stopped

namespace Machine.Quiet

theorem refl (m : Machine) : m.Quiet m := ⟨.refl m, rfl, rfl, rfl⟩

theorem aside {m n : Machine} (h : m.Aside n) : m.Quiet n :=
  ⟨.abreast h.toAbreast, h.tryDepth, h.pending, h.stopped⟩

theorem heap (m : Machine) (h : Heap) : m.Quiet { m with heap := h } := ⟨.heap m h, rfl, rfl, rfl⟩

theorem see (m : Machine) (event : Event) : m.Quiet { m with events := event :: m.events } :=
  ⟨.see m event, rfl, rfl, rfl⟩

end Machine.Quiet

/-- Does something inside `try`. -/
def Script.guarded (x : Script Value) : Script Value := do
  modify fun m => { m with tryDepth := m.tryDepth + 1 }
  afterwards x fun m => { m with tryDepth := m.tryDepth - 1 }

/-! ## Regular computations -/

/-- A composed computation that raises errors and ends the run in the usual way only. -/
inductive Regular : (α : Type) → Script α → Prop where
  | pure {α : Type} (a : α) : Regular α (pure a)
  | bind {α β : Type} {x : Script α} {f : α → Script β} (first : Regular α x)
      (next : ∀ a, Regular β (f a)) : Regular β (x >>= f)
  | abrupt {α : Type} (c : Abrupt) (going : c ≠ .stopped) : Regular α (Script.abrupt c)
  | raise {α : Type} (kind : ErrorKind) (message : String) : Regular α (Script.raise kind message)
  | stop {α : Type} : Regular α Script.stop
  | act {α : Type} (f : Machine → α) (g : Machine → Machine) (quiet : ∀ m : Machine, m.Quiet (g m)) :
      Regular α (fun _ m => .value (f m) (g m))
  | ask {α : Type} (f : Observer → Machine → α)
      (same : ∀ o o' m, o'.onError = o.onError → o'.onStep = o.onStep → f o' m = f o m) :
      Regular α (Script.ask f)
  | config : Regular Config Script.config
  | log (level : LogLevel) (text : Machine → String) : Regular Unit (Script.log level text)
  | perform (t : Task) : Regular Value (Script.perform t)
  | attempt {x : Script Value} (body : Regular Value x) : Regular Completion (Script.attempt x)
  | catching {β : Type} {x : Script Value} {f : Completion → Script β} (body : Regular Value x)
      (next : ∀ c, c ≠ .abrupt .stopped → Regular β (f c))
      (passes : f (.abrupt .stopped) = Script.abrupt .stopped) : Regular β (Script.attempt x >>= f)
  | orElse {α : Type} {x : Script α} (body : Regular α x) (default : α) :
      Regular α (Script.orElse x default)
  | returning {x : Script Value} (body : Regular Value x) : Regular Value (Script.returning x)
  | guarded {x : Script Value} (body : Regular Value x) : Regular Value (Script.guarded x)
  | afterwards {α : Type} {x : Script α} (body : Regular α x) (g : Machine → Machine)
      (aside : ∀ m : Machine, m.Aside (g m)) : Regular α (Script.afterwards x g)
  | fold {σ β : Type} {step : σ → β → Script σ} (steps : ∀ s b, Regular σ (step s b)) (items : List β)
      (s : σ) : Regular σ (Script.fold step items s)
  | foldUntil {σ β : Type} {step : σ → β → Script (Sum σ σ)}
      (steps : ∀ s b, Regular (Sum σ σ) (step s b)) (items : List β) (s : σ) :
      Regular σ (Script.foldUntil step items s)
  | iterate {σ α : Type} {round : σ → Script (Sum σ α)} (rounds : ∀ s, Regular (Sum σ α) (round s))
      (busy : ∀ s, (round s).Busy) (s : σ) : Regular α (Script.iterate round s)

namespace Regular

variable {α β : Type} {x : Script α} {f : α → Script β}

theorem composed (h : Regular α x) : Composed α x := by
  induction h with
  | pure a => exact .pure a
  | bind _ _ first next => exact .bind first next
  | abrupt c _ => exact .abrupt c
  | raise kind message => exact .raise kind message
  | stop => exact .stop
  | act f g quiet => exact .act f g fun m => (quiet m).toAfter
  | ask f same => exact .ask f same
  | config => exact .config
  | log level text => exact .log level text
  | perform t => exact .perform t
  | attempt _ body => exact .attempt body
  | @catching β x f _ _ passes body next =>
    refine .bind (.attempt body) fun c => ?_
    by_cases hc : c = .abrupt .stopped
    · rw [hc, passes]
      exact .abrupt .stopped
    · exact next c hc
  | orElse _ default body => exact .orElse body default
  | returning _ body => exact .returning body
  | guarded _ body =>
    exact .bind (.modify fun _ => .abreast ⟨rfl, rfl, rfl⟩) fun _ => .afterwards body _ fun _ => ⟨rfl, rfl, rfl⟩
  | afterwards _ g aside body => exact .afterwards body g fun m => (aside m).toAbreast
  | fold _ items s steps => exact .fold steps items s
  | foldUntil _ items s steps => exact .foldUntil steps items s
  | iterate _ busy s rounds => exact .iterate rounds busy s

/-! ## Derived forms -/

theorem read (f : Machine → α) : Regular α (Script.read f) := .act f id .refl

theorem modify {g : Machine → Machine} (hg : ∀ m : Machine, m.Quiet (g m)) : Regular Unit (Script.modify g) :=
  .act (fun _ => ()) g hg

theorem modifyObject (id : ObjectId) (f : Object → Object) : Regular Unit (Script.modifyObject id f) :=
  .modify fun m => .heap m _

theorem alloc (o : Object) : Regular ObjectId (Script.alloc o) :=
  .act (fun m => (m.heap.alloc o).1) (fun m => { m with heap := (m.heap.alloc o).2 }) fun m => .heap m _

theorem emit (event : Event) : Regular Unit (Script.emit event) := .modify fun m => .see m event

theorem map {f : α → β} (hx : Regular α x) : Regular β (f <$> x) := .bind hx fun a => .pure (f a)

theorem each {f : β → Script α} (hf : ∀ b, Regular α (f b)) (items : List β) :
    Regular (List α) (Script.each f items) :=
  .bind (.fold (fun _ b => .bind (hf b) fun _ => .pure _) items []) fun _ => .pure _

theorem complete (c : Completion) (hc : c ≠ .abrupt .stopped) : Regular Value (Script.complete c) := by
  cases c with
  | normal v => exact .pure v
  | abrupt c =>
    refine .abrupt c fun hstop => hc ?_
    rw [hstop]

theorem typeError (message : String) : Regular α (Script.typeError message) := .raise .type message

/-- An activation. -/
theorem within {x : Script Value} (frame : Frame) (hx : Regular Value x) :
    Regular Value (Script.within frame x) := by
  refine .bind (.modify fun _ => .aside ⟨⟨rfl, rfl, rfl⟩, rfl, rfl, rfl⟩) fun _ => .afterwards hx _ fun m => ?_
  split <;> exact ⟨⟨rfl, rfl, rfl⟩, rfl, rfl, rfl⟩

end Regular

end PageScript
