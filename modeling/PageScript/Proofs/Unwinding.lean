import PageScript.Proofs.Errors
import PageScript.Proofs.Stops

/-! # Exceptions unwind inside `try`

Whether an exception is passed on or shown on the spot depends on how many `try` blocks are running where a
statement ends with it.  Inside a `try` block, at whatever depth of statements and calls, a run is therefore
the same as one that never shows an exception.  What follows is that final statements run behind every such
exception.  A handler runs when its own block is no longer counted: it is inside `try` only if another block
is running.
-/

set_option autoImplicit false

namespace PageScript

open Script

variable {α β σ : Type} {e e' : Engine} {m n : Machine} {x : Script α} {f : α → Script β}

/-! ## Runs that never show an exception -/

namespace Script

end Script

/-- Whether a computation is the same under two engines inside `try`, and comes out as deep inside it. -/
def Script.Shelters (e e' : Engine) (x : Script α) : Prop :=
  ∀ m, 0 < m.tryDepth → x e' m = x e m ∧ (x e m).machine.tryDepth = m.tryDepth

/-- Two engines whose tasks are the same inside `try`. -/
structure Engine.Shelters (e e' : Engine) : Prop where
  config : e'.config = e.config
  observer : e'.observer = e.observer
  rounds : e'.rounds = e.rounds
  task : ∀ t, (Script.perform t).Shelters e e'

namespace Script.Shelters

theorem of_same (hsame : ∀ m, x e' m = x e m) (hdepth : ∀ m, (x e m).machine.tryDepth = m.tryDepth) :
    x.Shelters e e' := fun m _ => ⟨hsame m, hdepth m⟩

theorem pure (a : α) : (Pure.pure a : Script α).Shelters e e' := of_same (fun _ => rfl) fun _ => rfl

theorem read (view : Machine → α) : (Script.read view).Shelters e e' := of_same (fun _ => rfl) fun _ => rfl

theorem modify {g : Machine → Machine} (hg : ∀ m : Machine, (g m).tryDepth = m.tryDepth) :
    (Script.modify g).Shelters e e' := of_same (fun _ => rfl) hg

theorem abrupt (c : Abrupt) : (Script.abrupt c : Script α).Shelters e e' := of_same (fun _ => rfl) fun _ => rfl

theorem stop : (Script.stop : Script α).Shelters e e' := of_same (fun _ => rfl) fun _ => rfl

theorem ask (he : e.Shelters e') (view : Observer → Machine → α) : (Script.ask view).Shelters e e' :=
  of_same (fun m => by
    show Outcome.value (view e'.observer m) m = .value (view e.observer m) m
    rw [he.observer]) fun _ => rfl

theorem config (he : e.Shelters e') : Script.config.Shelters e e' :=
  of_same (fun m => by
    show Outcome.value e'.config m = .value e.config m
    rw [he.config]) fun _ => rfl

theorem log (he : e.Shelters e') (level : LogLevel) (text : Machine → String) :
    (Script.log level text).Shelters e e' := by
  refine of_same (fun m => ?_) fun m => ?_
  · unfold Script.log
    rw [he.config]
  · obtain ⟨es, hlog, -⟩ := Simulation.log_value level text e m
    rw [hlog]
    rfl

theorem bind (hx : x.Shelters e e') (hf : ∀ a, (f a).Shelters e e') : (x >>= f).Shelters e e' := by
  intro m hm
  obtain ⟨hsame, hdepth⟩ := hx m hm
  show Script.bind x f e' m = Script.bind x f e m ∧ (Script.bind x f e m).machine.tryDepth = m.tryDepth
  unfold Script.bind
  rw [hsame]
  cases ho : x e m with
  | value a n =>
    rw [ho] at hdepth
    have hn : n.tryDepth = m.tryDepth := hdepth
    obtain ⟨hnext, hlater⟩ := hf a n (by omega)
    exact ⟨hnext, hlater.trans hn⟩
  | abrupt c n =>
    rw [ho] at hdepth
    exact ⟨rfl, hdepth⟩
  | exhausted n =>
    rw [ho] at hdepth
    exact ⟨rfl, hdepth⟩

/-- What goes on behind a sheltered computation begins inside `try`. -/
theorem bind_congr {g : α → Script β} (hx : x.Shelters e e') (hm : 0 < m.tryDepth)
    (hfg : ∀ a n, 0 < n.tryDepth → f a e n = g a e n) : (x >>= f) e m = (x >>= g) e m := by
  obtain ⟨-, hdepth⟩ := hx m hm
  show Script.bind x f e m = Script.bind x g e m
  unfold Script.bind
  cases ho : x e m with
  | value a n =>
    rw [ho] at hdepth
    have hn : n.tryDepth = m.tryDepth := hdepth
    exact hfg a n (by omega)
  | abrupt c n => rfl
  | exhausted n => rfl

theorem attempt {x : Script Value} (hx : x.Shelters e e') : (Script.attempt x).Shelters e e' := by
  intro m hm
  obtain ⟨hsame, hdepth⟩ := hx m hm
  unfold Script.attempt
  rw [hsame]
  cases ho : x e m <;> rw [ho] at hdepth <;> exact ⟨rfl, hdepth⟩

theorem orElse (hx : x.Shelters e e') (default : α) : (Script.orElse x default).Shelters e e' := by
  intro m hm
  obtain ⟨hsame, hdepth⟩ := hx m hm
  unfold Script.orElse
  rw [hsame]
  cases ho : x e m <;> rw [ho] at hdepth <;> exact ⟨rfl, hdepth⟩

theorem returning {x : Script Value} (hx : x.Shelters e e') : (Script.returning x).Shelters e e' := by
  intro m hm
  obtain ⟨hsame, hdepth⟩ := hx m hm
  unfold Script.returning
  rw [hsame]
  cases ho : x e m with
  | abrupt c n => cases c <;> rw [ho] at hdepth <;> exact ⟨rfl, hdepth⟩
  | _ => rw [ho] at hdepth; exact ⟨rfl, hdepth⟩

theorem afterwards {g : Machine → Machine} (hx : x.Shelters e e')
    (hg : ∀ m : Machine, (g m).tryDepth = m.tryDepth) : (Script.afterwards x g).Shelters e e' := by
  intro m hm
  obtain ⟨hsame, hdepth⟩ := hx m hm
  unfold Script.afterwards
  rw [hsame]
  cases ho : x e m <;> rw [ho] at hdepth <;> exact ⟨rfl, (hg _).trans hdepth⟩

/-- What is done inside `try` is done one deeper, and comes out where it was. -/
theorem guarded {x : Script Value} (hx : x.Shelters e e') (m : Machine) :
    Script.guarded x e' m = Script.guarded x e m ∧ (Script.guarded x e m).machine.tryDepth = m.tryDepth := by
  obtain ⟨hsame, hdepth⟩ := hx { m with tryDepth := m.tryDepth + 1 } (Nat.succ_pos _)
  show Script.afterwards x _ e' { m with tryDepth := m.tryDepth + 1 }
      = Script.afterwards x _ e { m with tryDepth := m.tryDepth + 1 } ∧
    (Script.afterwards x _ e { m with tryDepth := m.tryDepth + 1 }).machine.tryDepth = m.tryDepth
  unfold Script.afterwards
  rw [hsame]
  cases ho : x e { m with tryDepth := m.tryDepth + 1 } <;> rw [ho] at hdepth <;>
    exact ⟨rfl, Nat.sub_eq_of_eq_add hdepth⟩

theorem fold {step : σ → β → Script σ} (hstep : ∀ s b, (step s b).Shelters e e') (items : List β) (s : σ) :
    (Script.fold step items s).Shelters e e' := by
  induction items generalizing s with
  | nil => exact pure s
  | cons b rest ih => exact bind (x := step s b) (f := fun s => Script.fold step rest s) (hstep s b) ih

theorem foldUntil {step : σ → β → Script (Sum σ σ)} (hstep : ∀ s b, (step s b).Shelters e e')
    (items : List β) (s : σ) : (Script.foldUntil step items s).Shelters e e' := by
  induction items generalizing s with
  | nil => exact pure s
  | cons b rest ih =>
    have hnext : ∀ r : Sum σ σ, (match r with
        | .inl s => Script.foldUntil step rest s
        | .inr s => Pure.pure s : Script σ).Shelters e e' := by
      intro r
      cases r with
      | inl s => exact ih s
      | inr s => exact pure s
    have hunfold : Script.foldUntil step (b :: rest) s = step s b >>= fun r => match r with
        | .inl s => Script.foldUntil step rest s
        | .inr s => Pure.pure s := by
      funext e m
      show foldOverUntil step (b :: rest) s e m = Script.bind (step s b) _ e m
      unfold foldOverUntil Script.bind
      cases step s b e m with
      | value r n => cases r <;> rfl
      | abrupt c n => rfl
      | exhausted n => rfl
    rw [hunfold]
    exact bind (hstep s b) hnext

theorem iterate (he : e.Shelters e') {round : σ → Script (Sum σ α)} (hround : ∀ s, (round s).Shelters e e')
    (s : σ) : (Script.iterate round s).Shelters e e' := by
  have hlimit : ∀ limit (s : σ) (m : Machine), 0 < m.tryDepth →
      Script.iterateUpTo round limit s e' m = Script.iterateUpTo round limit s e m ∧
        (Script.iterateUpTo round limit s e m).machine.tryDepth = m.tryDepth := by
    intro limit
    induction limit with
    | zero => exact fun _ _ _ => ⟨rfl, rfl⟩
    | succ limit ih =>
      intro s m hm
      obtain ⟨hsame, hdepth⟩ := hround s m hm
      unfold Script.iterateUpTo
      rw [hsame]
      cases ho : round s e m with
      | value r n =>
        rw [ho] at hdepth
        have hn : n.tryDepth = m.tryDepth := hdepth
        cases r with
        | inl s' =>
          obtain ⟨hnext, hlater⟩ := ih s' n (by omega)
          exact ⟨hnext, hlater.trans hn⟩
        | inr a => exact ⟨rfl, hn⟩
      | abrupt c n =>
        rw [ho] at hdepth
        exact ⟨rfl, hdepth⟩
      | exhausted n =>
        rw [ho] at hdepth
        exact ⟨rfl, hdepth⟩
  intro m hm
  show Script.iterateUpTo round e'.rounds s e' m = Script.iterateUpTo round e.rounds s e m ∧ _
  rw [he.rounds]
  exact hlimit e.rounds s m hm

theorem raise (kind : ErrorKind) (message : String) :
    (Script.raise kind message : Script α).Shelters e e' := by
  intro m hm
  rw [Simulation.raise_inside kind message hm, Simulation.raise_inside kind message hm]
  exact ⟨rfl, rfl⟩

end Script.Shelters

/-- A regular computation is the same inside `try` if its tasks are. -/
theorem Regular.shelters (h : Regular α x) (he : e.Shelters e') : x.Shelters e e' := by
  induction h with
  | pure a => exact .pure a
  | bind _ _ first next => exact .bind first next
  | abrupt c _ => exact .abrupt c
  | raise kind message => exact .raise kind message
  | stop => exact .stop
  | act _ g quiet => exact .of_same (fun _ => rfl) fun m => (quiet m).tryDepth
  | ask view _ => exact .ask he view
  | config => exact .config he
  | log level text => exact .log he level text
  | perform t => exact he.task t
  | attempt _ body => exact .attempt body
  | @catching β x f _ _ passes body next =>
    refine .bind (.attempt body) fun c => ?_
    by_cases hc : c = .abrupt .stopped
    · rw [hc, passes]
      exact .abrupt .stopped
    · exact next c hc
  | orElse _ default body => exact .orElse body default
  | returning _ body => exact .returning body
  | guarded _ body => exact fun m _ => Script.Shelters.guarded body m
  | afterwards _ g aside body => exact .afterwards body fun m => (aside m).tryDepth
  | fold _ items s steps => exact .fold steps items s
  | foldUntil _ items s steps => exact .foldUntil steps items s
  | iterate _ _ s rounds => exact .iterate he rounds s

/-! ## Elements -/

namespace Script

end Script

/-! ## Tasks -/

/-- Whether the functions and hooks of an embedding program are the same inside `try` if their tasks are. -/
structure Host.Shelters (host : Host) : Prop where
  native : ∀ e e' : Engine, e.Shelters e' → ∀ behavior this args,
    (host.native behavior this args).Shelters e e'
  readHook : ∀ e e' : Engine, e.Shelters e' → ∀ behavior owner, (host.readHook behavior owner).Shelters e e'
  writeHook : ∀ e e' : Engine, e.Shelters e' → ∀ behavior owner v,
    (host.writeHook behavior owner v).Shelters e e'
  offer : ∀ e e' : Engine, e.Shelters e' → ∀ behavior object name,
    (host.offer behavior object name).Shelters e e'

variable {host : Host} {config : Config}

namespace Script

/-- What comes of the block of a `try` statement and of its handler, where the one engine shows exceptions
outside `try` and the other one never does. -/
def caught (body : List Statement) (parameter : String) (handler : List Statement) (e u : Engine) (m : Machine) :
    Outcome Value :=
  match runGuarded body u m with
  | .abrupt (.thrown v) n => runHandler parameter handler v (if 0 < m.tryDepth then u else e) n
  | o => o

end Script

namespace Script

end Script

end PageScript
