import PageScript.Proofs.Composed.Tasks
import PageScript.Proofs.Fresh
import PageScript.Proofs.Simulation.Programs

/-! # A run that is cut short says so

A stop passes through everything up to the program, and skips what is left of it.  Whoever stops a run leaves
a sign: the flag of the machine, or an error that waits for the innermost statement, which shows it and raises
the flag in turn.  So a stop that comes out of a statement has the flag with it, as long as the functions of
the embedding program do not stop a run without a sign.
-/

set_option autoImplicit false

namespace PageScript

open Script

variable {α β σ : Type} {P : Machine → Prop} {e : Engine} {m n : Machine} {x : Script α} {f : α → Script β}

/-! ## How computations stop -/

/-- Whether a run has been stopped, or has an error to show that will stop it. -/
def Machine.Announced (m : Machine) : Prop := m.stopped = true ∨ m.pending.isSome = true

/-- Whether a computation leaves nothing but certain machines where it stops. -/
def Script.StopsIn (P : Machine → Prop) (e : Engine) (x : Script α) : Prop :=
  ∀ m n, x e m = .abrupt .stopped n → P n

/-- Whether tasks leave a sign where they stop, and statements the flag. -/
structure Engine.Announces (e : Engine) : Prop where
  task : ∀ t, (Script.perform t).StopsIn Machine.Announced e
  statement : ∀ s labels, (Script.perform (.statement s labels)).StopsIn (·.stopped = true) e

namespace Script.StopsIn

theorem of_value (hx : ∀ m, ∃ a n, x e m = .value a n) : x.StopsIn P e := by
  intro m n hn
  obtain ⟨a, k, hk⟩ := hx m
  rw [hk] at hn
  cases hn

theorem pure (a : α) : (Pure.pure a : Script α).StopsIn P e := of_value fun m => ⟨a, m, rfl⟩

theorem read (view : Machine → α) : (Script.read view).StopsIn P e := of_value fun m => ⟨view m, m, rfl⟩

theorem modify (g : Machine → Machine) : (Script.modify g).StopsIn P e := of_value fun m => ⟨(), g m, rfl⟩

theorem log (level : LogLevel) (text : Machine → String) : (Script.log level text).StopsIn P e :=
  of_value fun m => by
    obtain ⟨es, hlog, -⟩ := Simulation.log_value level text e m
    exact ⟨(), _, hlog⟩

theorem stop (hP : ∀ m : Machine, m.stopped = true → P m) : (Script.stop : Script α).StopsIn P e := by
  intro m n hn
  cases hn
  exact hP _ rfl

theorem abrupt {c : Abrupt} (hc : c ≠ .stopped) : (Script.abrupt c : Script α).StopsIn P e := by
  intro m n hn
  cases hn
  exact absurd rfl hc

theorem bind (hx : x.StopsIn P e) (hf : ∀ a, (f a).StopsIn P e) : (x >>= f).StopsIn P e := by
  intro m n hn
  change Script.bind x f e m = _ at hn
  unfold Script.bind at hn
  cases ho : x e m with
  | value a k =>
    rw [ho] at hn
    exact hf a k n hn
  | abrupt c k =>
    rw [ho] at hn
    cases hn
    exact hx m _ ho
  | exhausted k =>
    rw [ho] at hn
    cases hn

/-- What goes on behind a completion that may be a stop: if it is one, the sign is there. -/
theorem attempt {Q : Machine → Prop} {x : Script Value} {f : Completion → Script β} (hx : x.StopsIn Q e)
    (hf : ∀ c, c ≠ .abrupt .stopped → (f c).StopsIn P e)
    (hstop : ∀ m, Q m → ∀ n, f (.abrupt .stopped) e m = .abrupt .stopped n → P n) :
    (Script.attempt x >>= f).StopsIn P e := by
  intro m n hn
  change Script.bind (Script.attempt x) f e m = _ at hn
  unfold Script.bind Script.attempt at hn
  cases ho : x e m with
  | value v k =>
    rw [ho] at hn
    exact hf (.normal v) nofun k n hn
  | abrupt c k =>
    rw [ho] at hn
    by_cases hc : c = .stopped
    · subst hc
      exact hstop k (hx m k ho) n hn
    · exact hf (.abrupt c) (fun hne => hc (Completion.abrupt.inj hne)) k n hn
  | exhausted k =>
    rw [ho] at hn
    cases hn

theorem attempt_value (x : Script Value) : (Script.attempt x).StopsIn P e := by
  intro m n hn
  unfold Script.attempt at hn
  cases ho : x e m <;> rw [ho] at hn <;> cases hn

theorem orElse (x : Script α) (default : α) : (Script.orElse x default).StopsIn P e := by
  intro m n hn
  unfold Script.orElse at hn
  cases ho : x e m <;> rw [ho] at hn <;> cases hn

theorem returning {x : Script Value} (hx : x.StopsIn P e) : (Script.returning x).StopsIn P e := by
  intro m n hn
  unfold Script.returning at hn
  cases ho : x e m with
  | value v k => rw [ho] at hn; cases hn
  | abrupt c k =>
    cases c with
    | stopped =>
      rw [ho] at hn
      cases hn
      exact hx m _ ho
    | _ => rw [ho] at hn; cases hn
  | exhausted k => rw [ho] at hn; cases hn

theorem afterwards {g : Machine → Machine} (hx : x.StopsIn P e) (hg : ∀ m, P m → P (g m)) :
    (Script.afterwards x g).StopsIn P e := by
  intro m n hn
  unfold Script.afterwards at hn
  cases ho : x e m with
  | abrupt c k =>
    rw [ho] at hn
    cases hn
    exact hg k (hx m k ho)
  | _ => rw [ho] at hn; cases hn

theorem fold {step : σ → β → Script σ} (hstep : ∀ s b, (step s b).StopsIn P e) (items : List β) (s : σ) :
    (Script.fold step items s).StopsIn P e := by
  induction items generalizing s with
  | nil => exact of_value fun m => ⟨s, m, rfl⟩
  | cons b rest ih => exact bind (x := step s b) (f := fun s => Script.fold step rest s) (hstep s b) ih

theorem foldUntil {step : σ → β → Script (Sum σ σ)} (hstep : ∀ s b, (step s b).StopsIn P e) (items : List β)
    (s : σ) : (Script.foldUntil step items s).StopsIn P e := by
  induction items generalizing s with
  | nil => exact of_value fun m => ⟨s, m, rfl⟩
  | cons b rest ih =>
    intro m n hn
    change foldOverUntil step (b :: rest) s e m = _ at hn
    unfold foldOverUntil at hn
    cases ho : step s b e m with
    | value r k =>
      rw [ho] at hn
      cases r with
      | inl s' => exact ih s' k n hn
      | inr s' => cases hn
    | abrupt c k =>
      rw [ho] at hn
      cases hn
      exact hstep s b m _ ho
    | exhausted k => rw [ho] at hn; cases hn

theorem iterateUpTo {round : σ → Script (Sum σ α)} (hround : ∀ s, (round s).StopsIn P e) (limit : Nat) (s : σ)
    (m n : Machine) (hn : Script.iterateUpTo round limit s e m = .abrupt .stopped n) : P n := by
  induction limit generalizing s m with
  | zero => cases hn
  | succ limit ih =>
    unfold Script.iterateUpTo at hn
    cases ho : round s e m with
    | value r k =>
      rw [ho] at hn
      cases r with
      | inl s' => exact ih s' k hn
      | inr a => cases hn
    | abrupt c k =>
      rw [ho] at hn
      cases hn
      exact hround s m _ ho
    | exhausted k => rw [ho] at hn; cases hn

/-- An error outside `try` waits to be shown, unless the run has been stopped already. -/
theorem raise (kind : ErrorKind) (message : String) :
    (Script.raise kind message : Script α).StopsIn Machine.Announced e := by
  intro m n hn
  by_cases ht : 0 < m.tryDepth
  · rw [Simulation.raise_inside kind message ht] at hn
    cases hn
  · have hzero : m.tryDepth = 0 := by omega
    rw [Simulation.raise_outside kind message hzero] at hn
    cases hs : m.stopped with
    | true =>
      rw [hs] at hn
      cases hn
      exact .inl hs
    | false =>
      rw [hs] at hn
      change Script.bind (note kind message) _ e m = _ at hn
      have hnoted : ∀ k : Machine, (k.note (kind, message)).pending.isSome = true := by
        intro k
        show (k.pending.or (some (kind, message))).isSome = true
        simp
      unfold Script.bind at hn
      by_cases hl : m.pending.isNone ∧ LogLevel.rank .debug ≤ e.config.verbosity.rank
      · rw [Simulation.note_logged kind message hl] at hn
        cases hn
        exact .inr (hnoted _)
      · rw [Simulation.note_quiet kind message hl] at hn
        cases hn
        exact .inr (hnoted _)

end Script.StopsIn

/-- A regular computation leaves a sign where it stops. -/
theorem Regular.announces (h : Regular α x) (he : e.Announces) : x.StopsIn Machine.Announced e := by
  induction h with
  | pure a => exact .pure a
  | bind _ _ first next => exact .bind first next
  | abrupt c going => exact .abrupt going
  | raise kind message => exact .raise kind message
  | stop => exact .stop fun _ hs => .inl hs
  | act view g _ => exact .of_value fun m => ⟨view m, g m, rfl⟩
  | ask view _ => exact .of_value fun m => ⟨view e.observer m, m, rfl⟩
  | config => exact .of_value fun m => ⟨e.config, m, rfl⟩
  | log level text => exact .log level text
  | perform t => exact he.task t
  -- a completion is a value, and so stops nothing; who passes a stop on passes on its sign
  | attempt _ body => exact .attempt_value _
  | @catching β x f _ _ passes body next =>
    refine .attempt body next fun m hm n hn => ?_
    rw [passes] at hn
    cases hn
    exact hm
  | orElse _ default _ => exact .orElse _ default
  | returning _ body => exact .returning body
  | guarded _ body => exact .bind (.modify _) fun _ => .afterwards body fun _ hm => hm
  | afterwards _ g aside body =>
    refine .afterwards body fun m hm => ?_
    unfold Machine.Announced
    rw [(aside m).stopped, (aside m).pending]
    exact hm
  | fold _ items s steps => exact .fold steps items s
  | foldUntil _ items s steps => exact .foldUntil steps items s
  | iterate _ _ s rounds => exact .iterateUpTo rounds e.rounds s

/-! ## Elements -/

namespace Script

theorem sequential_stops : Sequential fun _ x => x.StopsIn (·.stopped = true) e where
  pure := .pure
  bind := .bind
  read := .read
  modify _ _ := .modify _
  ask view _ := .of_value fun m => ⟨view e.observer m, m, rfl⟩
  config := .of_value fun m => ⟨e.config, m, rfl⟩
  log := .log
  stop := .stop fun _ hs => hs

theorem poll_stops : poll.StopsIn (·.stopped = true) e := by
  intro m n hn
  cases hs : m.stopped with
  | true =>
    rw [Simulation.poll_stopped hs] at hn
    cases hn
    exact hs
  | false =>
    rw [Simulation.poll_going hs] at hn
    have hheed : Simulation.heed.StopsIn (·.stopped = true) e := by
      refine .bind (.of_value fun m => ⟨_, m, rfl⟩) fun feedback => ?_
      cases feedback with
      | goOn => exact .pure ()
      | cancel remark => exact sequential_stops.cancel remark
    exact hheed _ n hn

theorem noteUncaught_stops (v : Value) : (noteUncaught v).StopsIn P e := by
  -- whatever comes of the methods of an exception, its text is found without a stop
  have hdescribe : (describe v).StopsIn P e := by
    refine .bind (.read _) fun payload => ?_
    split
    · refine .bind (.attempt_value _) fun c => ?_
      split
      · exact .bind (.orElse _ _) fun _ => .pure _
      · exact .pure _
    · exact .bind (.orElse _ _) fun _ => .pure _
  exact .bind hdescribe fun _ => .modify _

/-- A statement turns each sign into the flag: it shows the error that waits, and passes on nothing else but
a stop with the flag. -/
theorem runCounted_stops (he : e.Announces) (s : Statement) (labels : List String) :
    (Composed.runCounted s labels).StopsIn (·.stopped = true) e := by
  have hform : (statementForm s.form labels).StopsIn Machine.Announced e :=
    (Regular.statementForm s.form labels).announces he
  refine .bind (sequential_stops.debug s) fun _ => .attempt hform (fun c hc => ?_) fun m hm n hn => ?_
  · split
    · exact .pure _
    · refine .bind (.read _) fun depth => ?_
      split
      · exact .bind (noteUncaught_stops _) fun _ => sequential_stops.showPending s
      · exact .abrupt nofun
    · exact absurd rfl hc
    · refine .abrupt fun hstop => hc ?_
      rw [hstop]
  · change (if m.pending.isSome = true then showPending s else Script.abrupt .stopped : Script Value) e m = _
      at hn
    split at hn
    · exact sequential_stops.showPending s m n hn
    · rename_i hnone
      cases hn
      exact hm.resolve_right hnone

theorem runStatement_stops (he : e.Announces) (s : Statement) (labels : List String) :
    (runStatement s labels).StopsIn (·.stopped = true) e := by
  have helement : (runElement s labels).StopsIn (·.stopped = true) e :=
    .bind (f := fun _ => Composed.runCounted s labels) poll_stops fun _ => runCounted_stops he s labels
  exact .bind (.modify _) fun _ => .afterwards helement fun _ hm => hm

end Script

/-! ## Tasks -/

/-- Whether the functions and hooks of an embedding program leave a sign where they stop a run, if the tasks
that they perform do. -/
structure Host.Announces (host : Host) : Prop where
  native : ∀ e : Engine, e.Announces → ∀ behavior this args,
    (host.native behavior this args).StopsIn Machine.Announced e
  readHook : ∀ e : Engine, e.Announces → ∀ behavior owner,
    (host.readHook behavior owner).StopsIn Machine.Announced e
  writeHook : ∀ e : Engine, e.Announces → ∀ behavior owner v,
    (host.writeHook behavior owner v).StopsIn Machine.Announced e
  offer : ∀ e : Engine, e.Announces → ∀ behavior object name,
    (host.offer behavior object name).StopsIn Machine.Announced e

variable {host : Host} {config : Config}

theorem call_announces (hhost : host.Announces) (he : e.Announces) (f : ObjectId) (this : Option ObjectId)
    (args : List Value) (constructing : Bool) :
    (step host (.call f this args constructing)).StopsIn Machine.Announced e := by
  have hdeepened : ∀ (this : ObjectId) (c : Callable),
      (deepened host f this args constructing c).StopsIn Machine.Announced e := by
    intro this c
    refine .bind (.log _ _) fun _ => .returning ?_
    cases c with
    | script tree scope => exact (Regular.runFunction f tree scope this args constructing).announces he
    | native name native =>
      refine .bind (.modify _) fun _ => .afterwards ?_ fun m hm => ?_
      · exact Regular.applyNative (P := fun x => x.StopsIn Machine.Announced e) (fun h => h.announces he)
          (hhost.native e he) native (.ref this) args
      · split <;> exact hm
  intro m n hn
  rcases step_call host f this args constructing e m with ⟨x, hx, hcall⟩ | ⟨c, hcall⟩
  · rw [hcall e rfl] at hn
    exact hx.announces he m n hn
  · rw [hcall e rfl] at hn
    have hrun : (afterwards (deepened host f (this.getD Intrinsic.globalObject) args constructing c)
        Machine.surface).StopsIn Machine.Announced e := .afterwards (hdeepened _ c) fun _ hm => hm
    exact hrun _ n hn

theorem step_announces (hhost : host.Announces) (he : e.Announces) (t : Task) :
    (step host t).StopsIn Machine.Announced e := by
  cases t with
  | expression x =>
    refine .bind (fun m n hn => .inl (poll_stops m n hn)) fun _ => ?_
    exact (Regular.expressionForm x).announces he
  | statement s labels => exact fun m n hn => .inl (runStatement_stops he s labels m n hn)
  | call f this args constructing => exact call_announces hhost he f this args constructing
  | readHook behavior owner => exact hhost.readHook e he behavior owner
  | writeHook behavior owner v => exact hhost.writeHook e he behavior owner v
  | offer behavior object name => exact .bind (hhost.offer e he behavior object name) fun _ => .pure _

theorem upTo_announces (hhost : host.Announces) (limit : Nat) : (Engine.upTo config host limit).Announces := by
  induction limit with
  | zero => exact ⟨fun _ _ _ => nofun, fun _ _ _ _ => nofun⟩
  | succ limit ih =>
    exact ⟨fun t => step_announces hhost ih t, fun s labels => runStatement_stops ih s labels⟩

/-! ## Programs -/

namespace Script

/-- What a program does before its first statement. -/
def prepare (body : List Statement) (this : Option ObjectId) (withs : List ObjectId) : Script Unit := do
  startRun this withs
  log .debug fun _ => "executing " ++ toString body.length ++ " top-level statements"
  hoist body Intrinsic.globalObject

/-- What a program does after its last statement. -/
def conclude (v : Value) : Script Value := do
  modify fun m => { m with frame := Frame.outermost Intrinsic.globalObject [] }
  Simulation.finishProgram v

theorem runProgram_parts (body : List Statement) (this : Option ObjectId) (withs : List ObjectId) :
    runProgram body this withs
      = prepare body this withs >>= fun _ => foldUntil runTopLevel body .undefined >>= conclude := by
  funext e m
  obtain ⟨start, hstart⟩ : ∃ n, startRun this withs e m = .value () n := ⟨_, rfl⟩
  obtain ⟨es, hlog, -⟩ := Simulation.log_value .debug
    (fun _ => "executing " ++ toString body.length ++ " top-level statements") e start
  show Script.bind (startRun this withs) (fun _ => Script.bind (log .debug _) fun _ =>
      Script.bind (hoist body Intrinsic.globalObject) fun _ =>
        Script.bind (foldUntil runTopLevel body .undefined) conclude) e m
    = Script.bind (Script.bind (startRun this withs) fun _ => Script.bind (log .debug _) fun _ =>
        hoist body Intrinsic.globalObject) _ e m
  unfold Script.bind
  rw [hstart]
  dsimp only
  rw [hlog]
  rfl

theorem conclude_value (v : Value) (e : Engine) (m : Machine) :
    ∃ es, conclude v e m = .value v
      { m with frame := Frame.outermost Intrinsic.globalObject [], events := es, result := v } := by
  obtain ⟨es, hlog, -⟩ := Simulation.log_value .debug
    (fun m => "execution finished after " ++ toString m.elements ++ " elements"
      ++ if m.stopped then " (stopped)" else "") e { m with frame := Frame.outermost Intrinsic.globalObject [] }
  refine ⟨es, ?_⟩
  show Script.bind (log .debug _) _ e { m with frame := Frame.outermost Intrinsic.globalObject [] } = _
  unfold Script.bind
  rw [hlog]
  rfl

/-- Statements of a program that were all executed, one after another, and none of which ended with a stop,
while the run has not been stopped. -/
inductive RunsThrough (e : Engine) : List Statement → Value → Machine → Value → Machine → Prop where
  | done {last : Value} {m : Machine} (going : m.stopped = false) : RunsThrough e [] last m last m
  | next {s : Statement} {rest : List Statement} {last last' v : Value} {m m' k n : Machine} {c : Completion}
      (executed : attempt (runInner s) e m = .value c k) (passes : c ≠ .abrupt .stopped)
      (settled : runTopLevel last s e m = .value (.inl last') m') (later : RunsThrough e rest last' m' v n) :
      RunsThrough e (s :: rest) last m v n

theorem RunsThrough.going {body : List Statement} {last v : Value} (h : RunsThrough e body last m v n) :
    n.stopped = false := by
  induction h with
  | done going => exact going
  | next _ _ _ _ ih => exact ih

theorem settleTopLevel_cases {last : Value} {r : Sum Value Value}
    (h : Simulation.settleTopLevel last e m = .value r n) :
    (∃ v, r = .inr v ∧ n.stopped = true) ∨ ∃ last', r = .inl last' := by
  cases hs : m.stopped with
  | true =>
    rw [Simulation.settleTopLevel_stopped hs] at h
    cases h
    exact .inl ⟨last, rfl, hs⟩
  | false =>
    obtain ⟨hp, es, hdue, -⟩ := Simulation.collectIfDue_value e { m with result := last }
    rw [Simulation.settleTopLevel_going hs hdue] at h
    cases h
    exact .inr ⟨last, rfl⟩

/-- After a top-level statement the rest of the program is passed over if the flag is up, and only then. -/
theorem runTopLevel_cases (he : e.Announces) {last : Value} {s : Statement} {r : Sum Value Value}
    (h : runTopLevel last s e m = .value r n) :
    (∃ v, r = .inr v ∧ n.stopped = true) ∨
      ∃ last' c k, r = .inl last' ∧ attempt (runInner s) e m = .value c k ∧ c ≠ .abrupt .stopped := by
  have hattempt : ∀ o, runInner s e m = o → attempt (runInner s) e m = _ := fun o ho => by
    unfold attempt
    rw [ho]
  change Script.bind (attempt (runInner s)) _ e m = _ at h
  unfold Script.bind at h
  cases ho : runInner s e m with
  | value v k =>
    rw [hattempt _ ho] at h
    refine (settleTopLevel_cases h).imp id ?_
    rintro ⟨last', hr⟩
    exact ⟨last', .normal v, k, hr, hattempt _ ho, nofun⟩
  | abrupt c k =>
    rw [hattempt _ ho] at h
    by_cases hc : c = .stopped
    · subst hc
      cases h
      exact .inl ⟨last, rfl, he.statement s [] m _ ho⟩
    · have hlast : Simulation.settleTopLevel last e k = .value r n := by
        cases c with
        | stopped => exact absurd rfl hc
        | _ => exact h
      refine (settleTopLevel_cases hlast).imp id ?_
      rintro ⟨last', hr⟩
      exact ⟨last', .abrupt c, k, hr, hattempt _ ho, fun hne => hc (Completion.abrupt.inj hne)⟩
  | exhausted k =>
    rw [hattempt _ ho] at h
    cases h

/-- If the flag is down after the statements of a program, all of them were executed. -/
theorem runsThrough_of_ends (he : e.Announces) {body : List Statement} {last v : Value}
    (h : foldUntil runTopLevel body last e m = .value v n) (hgoing : n.stopped = false) :
    RunsThrough e body last m v n := by
  induction body generalizing last m with
  | nil =>
    cases h
    exact .done hgoing
  | cons s rest ih =>
    change foldOverUntil runTopLevel (s :: rest) last e m = _ at h
    unfold foldOverUntil at h
    cases ho : runTopLevel last s e m with
    | value r k =>
      rw [ho] at h
      rcases runTopLevel_cases he ho with ⟨v', rfl, hstopped⟩ | ⟨last', c, j, rfl, hexecuted, hpasses⟩
      · -- the rest was passed over, and the flag was up
        cases h
        rw [hgoing] at hstopped
        cases hstopped
      · exact .next hexecuted hpasses ho (ih h)
    | abrupt c k =>
      rw [ho] at h
      cases h
    | exhausted k =>
      rw [ho] at h
      cases h

/-- A run that comes back with the flag down has executed its whole program: each statement in turn, and none of
them ended with a stop.  If a statement ends with one or is passed over, the flag is up. -/
theorem runProgram_unstopped (config : Config) (host : Host) (hhost : host.Announces) (limit : Nat)
    (body : List Statement) (this : Option ObjectId) (withs : List ObjectId) (m n : Machine) (v : Value)
    (h : runProgram body this withs (.upTo config host limit) m = .value v n) :
    n.stopped = false ↔ ∃ start k es,
      prepare body this withs (.upTo config host limit) m = .value () start ∧
      RunsThrough (.upTo config host limit) body .undefined start v k ∧
      n = { k with frame := Frame.outermost Intrinsic.globalObject [], events := es, result := v } := by
  rw [runProgram_parts] at h
  change Script.bind (prepare body this withs) (fun _ =>
    Script.bind (foldUntil runTopLevel body .undefined) conclude) _ m = _ at h
  constructor
  · intro hgoing
    unfold Script.bind at h
    cases hstart : prepare body this withs (.upTo config host limit) m with
    | value u start =>
      rw [hstart] at h
      dsimp only at h
      cases hrun : foldUntil runTopLevel body .undefined (.upTo config host limit) start with
      | value w k =>
        rw [hrun] at h
        obtain ⟨es, hend⟩ := conclude_value w (.upTo config host limit) k
        cases hend.symm.trans h
        exact ⟨start, k, es, rfl, runsThrough_of_ends (upTo_announces hhost limit) hrun hgoing, rfl⟩
      | abrupt c k => rw [hrun] at h; cases h
      | exhausted k => rw [hrun] at h; cases h
    | abrupt c start => rw [hstart] at h; cases h
    | exhausted start => rw [hstart] at h; cases h
  · rintro ⟨start, k, es, -, hrun, rfl⟩
    exact hrun.going

end Script

/-! ## The stock of behaviors -/

theorem Stock.printer_announces (observer : Observer) : (Stock.printer observer).Announces where
  native _ he _ _ args := (print_regular args).announces he
  readHook _ he behavior owner := (readHook_regular behavior owner).announces he
  writeHook _ he behavior owner v := (writeHook_regular behavior owner v).announces he
  offer _ he behavior object name := (offer_regular behavior object name).announces he

/-- A program of two statements, the first of which calls a function. -/
theorem Script.runProgram_unstopped_printing :
    let host := Stock.printer (Stock.scripted none [] [])
    let m := (Interpreter.fresh {} host [⟨"print", 1, "print"⟩]).machine
    let body : List Statement :=
      [.mk 1 (.expression (.call (.identifier "print") [.identifier "this"])), .mk 2 (.block [])]
    host.Announces ∧ ∃ v n, runProgram body none [] (.upTo {} host 100) m = .value v n ∧ n.stopped = false ∧
      ∃ start k es, prepare body none [] (.upTo {} host 100) m = .value () start ∧
        RunsThrough (.upTo {} host 100) body .undefined start v k ∧
        n = { k with frame := Frame.outermost Intrinsic.globalObject [], events := es, result := v } := by
  intro host m body
  have hhost := Stock.printer_announces (Stock.scripted none [] [])
  have hcomputed : (match runProgram body none [] (.upTo {} host 100) m with
      | .value _ n => !n.stopped
      | _ => false) = true := by decide +kernel
  cases ho : runProgram body none [] (.upTo {} host 100) m with
  | value v n =>
    rw [ho] at hcomputed
    have hgoing : n.stopped = false := by simpa using hcomputed
    exact ⟨hhost, v, n, rfl, hgoing, (runProgram_unstopped {} host hhost 100 body none [] m n v ho).1 hgoing⟩
  | abrupt c n =>
    rw [ho] at hcomputed
    cases hcomputed
  | exhausted n =>
    rw [ho] at hcomputed
    cases hcomputed

end PageScript
