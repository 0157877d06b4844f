import PageScript.Embedding.Interpreter
import PageScript.Proofs.Simulation.Statements

/-! # Tasks on two sides

One step of the interpreter keeps a simulation if the tasks that it performs do, so that performing
tasks keeps it however deep they are nested.
-/

set_option autoImplicit false

namespace PageScript

/-- The jumps in the text of the function that a task calls. -/
def Task.callee (m : Machine) : Task → List Jump
  | .call f _ args _ =>
    match (m.heap.get? f).bind Object.callable with
    | some callable => callable.jumps args
    | none => []
  | _ => []

/-- Whether the embedding program performs a task itself. -/
def Task.isForeign (m : Machine) : Task → Prop
  | .call f _ _ _ =>
    ∃ name behavior, (m.heap.get? f).bind Object.callable = some (.native name (.host behavior))
  | .readHook .. | .writeHook .. | .offer .. => True
  | .expression _ | .statement .. => False

namespace Simulation

open Script

variable {S : Simulation} {α β : Type} {p q : Pairing} {js : List Jump} {a b : ObjectId}
  {v w : Value} {xs ys : List Value} {e e' : Engine} {g : S.Ghost} {m m' : Machine}
  {host host' : Host} {config config' : Config}
  {apply apply' : Native → Value → List Value → Script Value}

/-! ## Calls -/

theorem log_afterwards (level : LogLevel) (text : Machine → String) (x : Script α)
    (f : Machine → Machine) :
    (Script.log level text >>= fun _ => Script.afterwards x f)
      = Script.afterwards (Script.log level text >>= fun _ => x) f := by
  funext e m
  show Script.bind (fun e m => if level.rank ≤ e.config.verbosity.rank then _ else _) _ e m
    = Script.afterwards (Script.bind (fun e m => if level.rank ≤ e.config.verbosity.rank then _ else _) _)
      f e m
  unfold Script.bind Script.afterwards
  by_cases h : level.rank ≤ e.config.verbosity.rank
  · dsimp only
    rw [if_pos h]
  · dsimp only
    rw [if_neg h]

theorem callFunction_missing {f : ObjectId} {this : Option ObjectId} {constructing : Bool}
    (h : (m.heap.get? f).bind Object.callable = none) :
    callFunction apply f this xs constructing e m
      = typeError "value is not a function" e m := by
  unfold callFunction object?
  rw [bind_read, h]

theorem callFunction_found {f : ObjectId} {this : Option ObjectId} {constructing : Bool}
    {c : Callable} (h : (m.heap.get? f).bind Object.callable = some c) :
    callFunction apply f this xs constructing e m
      = enterCall apply e.config.maxDepth f this xs constructing c e m := by
  unfold callFunction object?
  rw [bind_read, h]
  unfold enterCall deepen
  simp only [← log_afterwards]
  rfl

theorem callFunction_ends (he : S.Agree e e') {f f' : ObjectId} {this this' : Option ObjectId}
    (constructing : Bool) (hf : p.ids f f') (hthis : Matching.option .id p this this')
    (hm : S.inv .going g p m m')
    (hrun : ∀ c c', (m.heap.get? f).bind Object.callable = some c → Callable.Matches p c c' →
      ∀ g, S.room g 2 → ∀ q, p ≤ q → ∀ a b, q.ids a b →
        S.RunsAt g .going (.leaving (.returned :: c.jumps xs)) q Value.Matches
          (runCallable apply f a xs constructing c) (runCallable apply' f' b ys constructing c'))
    (hjs : ∀ j ∈ Task.callee m (.call f this xs constructing), j = .returned ∨ S.stray j) :
    S.Ends (.leaving js) g p Value.Matches
      (callFunction apply f this xs constructing e m)
      (callFunction apply' f' this' ys constructing e' m') := by
  have hcallable : Matching.option Callable.Matches p ((m.heap.get? f).bind Object.callable)
      ((m'.heap.get? f').bind Object.callable) :=
    Matching.option_bind ((S.matched hm).heap.get? hf) fun _ _ ho => ho.callable
  simp only [Task.callee] at hjs
  cases hc : (m.heap.get? f).bind Object.callable with
  | none =>
    rw [hc] at hcallable
    rw [callFunction_missing hc, callFunction_missing (Matching.option_none hcallable)]
    exact (typeError_follows _).ends e e' he g m m' hm
  | some c =>
    rw [hc] at hcallable hjs
    obtain ⟨c', hc', hmatch⟩ := Matching.option_some hcallable
    rw [callFunction_found hc, callFunction_found hc', ← he.maxDepth]
    exact enterCall_ends constructing hmatch hthis (hrun c c' hc hmatch) hjs he.depth he hm

/-! ## Steps -/

/-- A task that the embedding program performs itself is no text. -/
theorem foreign_ends (hhost : S.Embeds host host') (he : S.Agree e e') {t t' : Task}
    (ht : S.Poses p t t') (hforeign : t.isForeign m) (hm : S.inv .going g p m m') :
    S.Ends t.course g p Value.Matches (step host t e m) (step host' t' e' m') := by
  cases ht with
  | expression trees => exact hforeign.elim
  | statement labels trees => exact hforeign.elim
  | call function receiver args constructing =>
    obtain ⟨name, behavior, hc⟩ := hforeign
    refine callFunction_ends he constructing function receiver hm (fun c c' hc' hmatch => ?_) ?_
    · rw [hc] at hc'
      cases hc'
      cases hmatch
      intro g hroom q hq a b hab
      refine within_runs hroom (nativeFrame_matches constructing (hq function) hab) rfl fun g' _ => ?_
      exact (hhost.native behavior (.ref hab) (Matching.list_mono Value.Matches.mono hq args)).within g'
    · simp only [Task.callee, hc]
      exact nofun
  | readHook behavior owner => exact (hhost.readHook behavior owner).ends e e' he g m m' hm
  | writeHook behavior owner value =>
    exact (hhost.writeHook behavior owner value).ends e e' he g m m' hm
  | offer behavior object name =>
    refine Runs.ends (Runs.bind (hhost.offer behavior object name) ?_) e e' he g m m' hm
    rintro _ _ taken _ rfl
    exact .pure (.boolean taken)

theorem call_ends (htext : S.text) (he : S.Agree e e') {f f' : ObjectId}
    {this this' : Option ObjectId} (constructing : Bool) (hf : p.ids f f')
    (hthis : Matching.option .id p this this') (hxs : Matching.list Value.Matches p xs ys)
    (hm : S.inv .going g p m m')
    (happly : ∀ name native, (m.heap.get? f).bind Object.callable = some (.native name native) →
      ∀ q, p ≤ q → ∀ a b, q.ids a b → ∀ g, S.room g 1 →
        S.RunsAt g .going (.leaving (.returned :: evalJumps native xs)) q Value.Matches
          (apply native (.ref a) xs) (apply' native (.ref b) ys))
    (hjs : ∀ j ∈ Task.callee m (.call f this xs constructing), j = .returned ∨ S.stray j) :
    S.Ends (.leaving js) g p Value.Matches (callFunction apply f this xs constructing e m)
      (callFunction apply' f' this' ys constructing e' m') := by
  refine callFunction_ends he constructing hf hthis hm
    (fun c c' hc hmatch g hroom q hq a b hab => ?_) hjs
  refine runCallable_runs hroom htext constructing (hq hf) hab
    (Matching.list_mono Value.Matches.mono hq hxs) (hmatch.mono hq) ?_ ?_
  · rintro tree scope rfl
    obtain ⟨o, ho, hcode⟩ := Option.bind_eq_some_iff.1 hc
    exact S.code hm ho hcode
  · rintro name native rfl g' hroom'
    exact happly name native hc q hq a b hab g' hroom'

theorem step_ends (htext : S.text) (he : S.Agree e e') {t t' : Task}
    (hhost : t.isForeign m → S.Embeds host host') (ht : S.Poses p t t')
    (hm : S.inv .going g p m m') (hjs : ∀ j ∈ t.callee m, j = .returned ∨ S.stray j) :
    S.Ends t.course g p Value.Matches (step host t e m) (step host' t' e' m') := by
  cases ht with
  | expression trees => exact (runExpression_follows trees).ends e e' he g m m' hm
  | statement labels trees => exact (runStatement_runs trees).ends e e' he g m m' hm
  | call function receiver args constructing =>
    refine call_ends htext he constructing function receiver args hm
      (fun name native hc q hq a b hab g hroom => ?_) hjs
    refine applyNative_runs hroom htext native ?_ (.ref hab)
      (Matching.list_mono Value.Matches.mono hq args) (List.Subset.refl _)
    rintro behavior rfl
    exact hhost ⟨name, behavior, hc⟩
  | readHook behavior owner =>
    exact foreign_ends (hhost trivial) he (.readHook behavior owner) trivial hm
  | writeHook behavior owner value =>
    exact foreign_ends (hhost trivial) he (.writeHook behavior owner value) trivial hm
  | offer behavior object name =>
    exact foreign_ends (hhost trivial) he (.offer behavior object name) trivial hm

/-! ## Tasks within tasks -/

/-- Two settings and embedding programs that differ only in when garbage is collected, as far as a
simulation can tell. -/
structure Hosts (S : Simulation) (config config' : Config) (host host' : Host) : Prop where
  maxDepth : config.maxDepth = config'.maxDepth
  depth : S.depth config.maxDepth
  showErrors : config.showErrors = config'.showErrors
  shows : S.shows config.showErrors
  gmtOffset : config.gmtOffset = config'.gmtOffset
  verbosity : config.verbosity = config'.verbosity
  epoch : config.epoch = config'.epoch
  feedback : ∀ {es es'}, S.alike es es' → ∀ n, host.feedback es n = host'.feedback es' n
  onError : ∀ {es es'}, S.alike es es' → ∀ r, host.onError es r = host'.onError es' r
  onStep : ∀ {es es'}, S.alike es es' → ∀ d, host.onStep es d = host'.onStep es' d
  declines : S.unique → ∀ limit, (Engine.upTo config host limit).Declines
  embeds : S.Embeds host host'

theorem Hosts.agree (h : S.Hosts config config' host host') {limit : Nat}
    {perform' : Task → Machine → Outcome Value}
    (hperform : S.Performs (performUpTo config host limit) perform') (rounds : Nat) :
    S.Agree ⟨config, host.toObserver, performUpTo config host limit, rounds⟩
      ⟨config', host'.toObserver, perform', rounds⟩ :=
  ⟨h.maxDepth, h.depth, h.showErrors, h.shows, h.gmtOffset, h.verbosity, h.epoch, h.feedback, h.onError,
    h.onStep, hperform, fun hunique => h.declines hunique limit, rfl⟩

/-- Whether the functions that tasks call have no jumps but `return` and those that may leave
functions. -/
def Contained (S : Simulation) : Prop :=
  ∀ {g p m m' t t'}, S.Poses p t t' → S.inv .going g p m m' →
    ∀ j ∈ t.callee m, j = .returned ∨ S.stray j

theorem contained_of_stray (hstray : ∀ j, S.stray j) : S.Contained := fun _ _ j _ => .inr (hstray j)

theorem performUpTo_performs (h : S.Hosts config config' host host') (htext : S.text)
    (hcontained : S.Contained) (limit : Nat) :
    S.Performs (performUpTo config host limit) (performUpTo config' host' limit) := by
  induction limit with
  | zero => exact fun p t t' _ g m m' hm => .exhausted (S.spend hm)
  | succ limit ih =>
    intro p t t' ht g m m' hm
    exact step_ends htext (h.agree ih limit) (fun _ => h.embeds) ht hm (hcontained ht hm)

end Simulation

end PageScript
