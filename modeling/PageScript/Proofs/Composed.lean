import PageScript.Evaluation.Statements

/-! # Composed computations

The parts of the interpreter are composed of a few primitives, and only `perform` hands control to
another part.  A property of all composed computations is proved by one induction over the primitives, for
whatever way of performing tasks.  What is counted or shown never goes back in a composed computation, and
calls are left as they were entered.
-/

set_option autoImplicit false

namespace PageScript

open Script

/-! ## Later machines -/

/-- A machine at a later point of a run and in the same call: no element was taken back, and no event. -/
structure Machine.After (m n : Machine) : Prop where
  elements : m.elements ≤ n.elements
  callDepth : n.callDepth = m.callDepth
  events : m.events <:+ n.events

/-- A machine that has counted and shown the same, in the same call. -/
structure Machine.Abreast (m n : Machine) : Prop where
  elements : n.elements = m.elements
  callDepth : n.callDepth = m.callDepth
  events : n.events = m.events

namespace Machine.After

variable {m n k : Machine}

theorem refl (m : Machine) : m.After m := ⟨Nat.le_refl _, rfl, List.suffix_refl _⟩

theorem trans (h : m.After n) (h' : n.After k) : m.After k :=
  ⟨Nat.le_trans h.elements h'.elements, h'.callDepth.trans h.callDepth, h.events.trans h'.events⟩

theorem see (m : Machine) (event : Event) : m.After { m with events := event :: m.events } :=
  ⟨Nat.le_refl _, rfl, List.suffix_cons event m.events⟩

theorem abreast (h : m.Abreast n) : m.After n :=
  ⟨Nat.le_of_eq h.elements.symm, h.callDepth, h.events ▸ List.suffix_refl _⟩

theorem heap (m : Machine) (h : Heap) : m.After { m with heap := h } := .abreast ⟨rfl, rfl, rfl⟩

theorem note (m : Machine) (entry : ErrorKind × String) : m.After (m.note entry) := .abreast ⟨rfl, rfl, rfl⟩

theorem answered (m : Machine) (a : Answer) : m.After (m.answered a) := .abreast ⟨rfl, rfl, rfl⟩

end Machine.After

/-- Whether tasks only lead to later machines. -/
def Engine.Advances (e : Engine) : Prop := ∀ (t : Task) (m : Machine), m.After (e.perform t m).machine

/-! ## Elements -/

/-- Whether a task is an element of a run. -/
def Task.isElement : Task → Bool
  | .expression _ | .statement _ _ => true
  | _ => false

/-- Whether a computation performs an element first: it counts on from the end of that element, and it
stops if the element does. -/
def Script.Busy {α : Type} (x : Script α) : Prop :=
  ∀ e : Engine, e.Advances → ∀ m, ∃ t : Task, t.isElement = true ∧
    (e.perform t m).machine.elements ≤ (x e m).machine.elements ∧
    ∀ n, e.perform t m = .abrupt .stopped n → x e m = .abrupt .stopped n

/-! ## Composed computations -/

/-- A computation that is composed of the primitives.  Of the answers of the embedding program it asks for
those to errors and to steps; whether to go on is only asked at the start of an element, which is no part
of a composed computation. -/
inductive Composed : (α : Type) → Script α → Prop where
  | pure {α : Type} (a : α) : Composed α (pure a)
  | bind {α β : Type} {x : Script α} {f : α → Script β} (first : Composed α x)
      (next : ∀ a, Composed β (f a)) : Composed β (x >>= f)
  | abrupt {α : Type} (c : Abrupt) : Composed α (Script.abrupt c)
  | act {α : Type} (f : Machine → α) (g : Machine → Machine) (after : ∀ m : Machine, m.After (g m)) :
      Composed α (fun _ m => .value (f m) (g m))
  | ask {α : Type} (f : Observer → Machine → α)
      (same : ∀ o o' m, o'.onError = o.onError → o'.onStep = o.onStep → f o' m = f o m) :
      Composed α (Script.ask f)
  | config : Composed Config Script.config
  | log (level : LogLevel) (text : Machine → String) : Composed Unit (Script.log level text)
  | perform (t : Task) : Composed Value (Script.perform t)
  | attempt {x : Script Value} (body : Composed Value x) : Composed Completion (Script.attempt x)
  | orElse {α : Type} {x : Script α} (body : Composed α x) (default : α) :
      Composed α (Script.orElse x default)
  | returning {x : Script Value} (body : Composed Value x) : Composed Value (Script.returning x)
  | afterwards {α : Type} {x : Script α} (body : Composed α x) (g : Machine → Machine)
      (abreast : ∀ m : Machine, m.Abreast (g m)) : Composed α (Script.afterwards x g)
  | fold {σ β : Type} {step : σ → β → Script σ} (steps : ∀ s b, Composed σ (step s b)) (items : List β)
      (s : σ) : Composed σ (Script.fold step items s)
  | foldUntil {σ β : Type} {step : σ → β → Script (Sum σ σ)}
      (steps : ∀ s b, Composed (Sum σ σ) (step s b)) (items : List β) (s : σ) :
      Composed σ (Script.foldUntil step items s)
  | iterate {σ α : Type} {round : σ → Script (Sum σ α)} (rounds : ∀ s, Composed (Sum σ α) (round s))
      (busy : ∀ s, (round s).Busy) (s : σ) : Composed α (Script.iterate round s)

namespace Composed

variable {α β σ : Type} {x : Script α} {f : α → Script β} {e : Engine} {m : Machine}

/-! ## What is never taken back -/

theorem machine_log (level : LogLevel) (text : Machine → String) (e : Engine) (m : Machine) :
    m.After (Script.log level text e m).machine := by
  unfold Script.log
  split
  · exact .see m _
  · exact .refl m

theorem foldOver_after {step : σ → β → Script σ}
    (hstep : ∀ s b (m : Machine), m.After (step s b e m).machine)
    (items : List β) (s : σ) (m : Machine) : m.After (Script.foldOver step items s e m).machine := by
  induction items generalizing s m with
  | nil => exact .refl m
  | cons b rest ih =>
    have hfirst := hstep s b m
    unfold Script.foldOver
    cases ho : step s b e m with
    | value s' n =>
      rw [ho] at hfirst
      exact hfirst.trans (ih s' n)
    | abrupt c n => rwa [ho] at hfirst
    | exhausted n => rwa [ho] at hfirst

theorem foldOverUntil_after {step : σ → β → Script (Sum σ σ)}
    (hstep : ∀ s b (m : Machine), m.After (step s b e m).machine) (items : List β) (s : σ) (m : Machine) :
    m.After (Script.foldOverUntil step items s e m).machine := by
  induction items generalizing s m with
  | nil => exact .refl m
  | cons b rest ih =>
    have hfirst := hstep s b m
    unfold Script.foldOverUntil
    cases ho : step s b e m with
    | value r n =>
      rw [ho] at hfirst
      cases r with
      | inl s' => exact hfirst.trans (ih s' n)
      | inr s' => exact hfirst
    | abrupt c n => rwa [ho] at hfirst
    | exhausted n => rwa [ho] at hfirst

theorem iterateUpTo_after {round : σ → Script (Sum σ α)}
    (hround : ∀ s (m : Machine), m.After (round s e m).machine) (limit : Nat) (s : σ) (m : Machine) :
    m.After (Script.iterateUpTo round limit s e m).machine := by
  induction limit generalizing s m with
  | zero => exact .refl m
  | succ limit ih =>
    have hfirst := hround s m
    unfold Script.iterateUpTo
    cases ho : round s e m with
    | value r n =>
      rw [ho] at hfirst
      cases r with
      | inl s' => exact hfirst.trans (ih s' n)
      | inr a => exact hfirst
    | abrupt c n => rwa [ho] at hfirst
    | exhausted n => rwa [ho] at hfirst

/-- A composed computation leads to a later machine, however it ends. -/
theorem after (h : Composed α x) (he : e.Advances) (m : Machine) : m.After (x e m).machine := by
  induction h generalizing m with
  | pure a => exact .refl m
  | @bind α β x f _ _ first next =>
    have hfirst := first m
    show m.After (Script.bind x f e m).machine
    unfold Script.bind
    cases ho : x e m with
    | value a n =>
      rw [ho] at hfirst
      exact hfirst.trans (next a n)
    | abrupt c n => rwa [ho] at hfirst
    | exhausted n => rwa [ho] at hfirst
  | abrupt c => exact .refl m
  | act f g hafter => exact hafter m
  | ask f _ => exact .refl m
  | config => exact .refl m
  | log level text => exact machine_log level text e m
  | perform t => exact he t m
  | @attempt x _ body =>
    have hbody := body m
    unfold Script.attempt
    cases ho : x e m <;> rwa [ho] at hbody
  | @orElse α x _ default body =>
    have hbody := body m
    unfold Script.orElse
    cases ho : x e m <;> rwa [ho] at hbody
  | @returning x _ body =>
    have hbody := body m
    unfold Script.returning
    cases ho : x e m with
    | value v n => rwa [ho] at hbody
    | abrupt c n => cases c <;> rwa [ho] at hbody
    | exhausted n => rwa [ho] at hbody
  | @afterwards α x _ g habreast body =>
    have hbody := body m
    unfold Script.afterwards
    cases ho : x e m <;> rw [ho] at hbody <;> exact hbody.trans (.abreast (habreast _))
  | fold _ items s steps => exact foldOver_after (fun s b m => steps s b m) items s m
  | foldUntil _ items s steps => exact foldOverUntil_after (fun s b m => steps s b m) items s m
  | iterate _ _ s rounds => exact iterateUpTo_after (fun s m => rounds s m) e.rounds s m

/-! ## Computations that begin with an element -/

theorem busy_perform {t : Task} {f : Value → Script β} (ht : t.isElement = true)
    (hf : ∀ v, Composed β (f v)) : (Script.perform t >>= f).Busy := by
  intro e he m
  refine ⟨t, ht, ?_⟩
  show (e.perform t m).machine.elements ≤ (Script.bind (Script.perform t) f e m).machine.elements ∧
    ∀ n, e.perform t m = .abrupt .stopped n → Script.bind (Script.perform t) f e m = .abrupt .stopped n
  unfold Script.bind Script.perform
  cases ho : e.perform t m with
  | value v n => exact ⟨((hf v).after he n).elements, fun _ hk => nomatch hk⟩
  | abrupt c n => exact ⟨Nat.le_refl _, fun k hk => by cases hk; rfl⟩
  | exhausted n => exact ⟨Nat.le_refl _, fun _ hk => nomatch hk⟩

theorem busy_attempt {t : Task} {f : Completion → Script β} (ht : t.isElement = true)
    (hf : ∀ c, c ≠ .abrupt .stopped → Composed β (f c)) (hpass : f (.abrupt .stopped) = Script.abrupt .stopped) :
    (Script.attempt (Script.perform t) >>= f).Busy := by
  have hlater : ∀ c (e : Engine), e.Advances → ∀ n : Machine, n.After (f c e n).machine := fun c e he n => by
    by_cases hc : c = .abrupt .stopped
    · rw [hc, hpass]
      exact .refl n
    · exact (hf c hc).after he n
  intro e he m
  refine ⟨t, ht, ?_⟩
  show (e.perform t m).machine.elements
      ≤ (Script.bind (Script.attempt (Script.perform t)) f e m).machine.elements ∧
    ∀ n, e.perform t m = .abrupt .stopped n →
      Script.bind (Script.attempt (Script.perform t)) f e m = .abrupt .stopped n
  unfold Script.bind Script.attempt Script.perform
  cases ho : e.perform t m with
  | value v n => exact ⟨(hlater _ e he n).elements, fun _ hk => nomatch hk⟩
  | abrupt c n =>
    refine ⟨(hlater _ e he n).elements, fun k hk => ?_⟩
    cases hk
    show f (.abrupt .stopped) e _ = _
    rw [hpass]
    rfl
  | exhausted n => exact ⟨Nat.le_refl _, fun _ hk => nomatch hk⟩

theorem busy_bind (hx : x.Busy) (hf : ∀ a, Composed β (f a)) : (x >>= f).Busy := by
  intro e he m
  obtain ⟨t, ht, hcount, hstop⟩ := hx e he m
  refine ⟨t, ht, ?_⟩
  show (e.perform t m).machine.elements ≤ (Script.bind x f e m).machine.elements ∧
    ∀ n, e.perform t m = .abrupt .stopped n → Script.bind x f e m = .abrupt .stopped n
  unfold Script.bind
  cases ho : x e m with
  | value a n =>
    rw [ho] at hcount hstop
    exact ⟨Nat.le_trans hcount ((hf a).after he n).elements, fun k hk => nomatch hstop k hk⟩
  | abrupt c n =>
    rw [ho] at hcount hstop
    refine ⟨hcount, fun k hk => ?_⟩
    cases hstop k hk
    rfl
  | exhausted n =>
    rw [ho] at hcount hstop
    exact ⟨hcount, fun k hk => nomatch hstop k hk⟩

/-! ## Derived forms -/

theorem read (f : Machine → α) : Composed α (Script.read f) := .act f id .refl

theorem modify {g : Machine → Machine} (hg : ∀ m : Machine, m.After (g m)) : Composed Unit (Script.modify g) :=
  .act (fun _ => ()) g hg

theorem alloc (o : Object) : Composed ObjectId (Script.alloc o) :=
  .act (fun m => (m.heap.alloc o).1) (fun m => { m with heap := (m.heap.alloc o).2 }) fun m => .heap m _

/-! ## Errors, stops and activations -/

theorem newError (kind : ErrorKind) (message : String) : Composed Value (Script.newError kind message) :=
  .bind (.alloc _) fun _ => .pure _

theorem note (kind : ErrorKind) (message : String) : Composed Unit (Script.note kind message) := by
  refine .bind (.read _) fun quiet => ?_
  split
  · exact .bind (.log _ _) fun _ => .modify fun m => .note m _
  · exact .modify fun m => .note m _

theorem raise (kind : ErrorKind) (message : String) : Composed α (Script.raise kind message) := by
  refine .bind (.read _) fun depth => ?_
  split
  · exact .bind (newError kind message) fun _ => .abrupt _
  · refine .bind (.read _) fun going => ?_
    split
    · exact .bind (note kind message) fun _ => .abrupt _
    · exact .abrupt _

theorem stop : Composed α Script.stop :=
  .bind (.modify fun _ => .abreast ⟨rfl, rfl, rfl⟩) fun _ => .abrupt _

theorem within {x : Script Value} (frame : Frame) (hx : Composed Value x) :
    Composed Value (Script.within frame x) := by
  refine .bind (.modify fun _ => .abreast ⟨rfl, rfl, rfl⟩) fun _ =>
    .afterwards hx _ fun m => ?_
  split <;> exact ⟨rfl, rfl, rfl⟩

end Composed

end PageScript
