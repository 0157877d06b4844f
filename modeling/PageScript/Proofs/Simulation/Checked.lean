import PageScript.Proofs.Collection.Boundary
import PageScript.Proofs.Simulation.Invariant
import PageScript.Proofs.Simulation.Programs

/-! # Checked runs

What happens in the course of a run cannot be read off its end.  A checked run looks at each task as it
ends and at the machine as each built-in function begins, and ends that part of the run with an alarm
if something is not in order.  A run that every alarm leaves as it is has been in order throughout.
-/

set_option autoImplicit false

namespace PageScript

/-- What is to be in order in the course of a run: each task, given the machine at its start and its
ending, and the machine as a built-in function begins. -/
structure Check where
  task : Task → Machine → Outcome Value → Prop
  native : Machine → Prop := fun _ => True

namespace Script

open Classical in
/-- Applies a built-in function if the machine is in order; otherwise there is an alarm in its place. -/
noncomputable def applyChecked (check : Check) (alarm : Outcome Value) (host : Host) (native : Native)
    (this : Value) (args : List Value) : Script Value := fun e m =>
  if check.native m then applyNative host.native native this args e m else alarm

/-- Performs a task, with a check of each built-in function as it begins. -/
noncomputable def stepChecked (check : Check) (alarm : Outcome Value) (host : Host) (t : Task) :
    Script Value :=
  match t with
  | .call f this args constructing =>
    callFunction (applyChecked check alarm host) f this args constructing
  | t => step host t

open Classical in
/-- Performs a task, with further tasks nested up to `limit` deep, and puts an alarm in place of what is
not in order. -/
noncomputable def performChecked (check : Check) (alarm : Outcome Value) (config : Config) (host : Host) :
    Nat → Task → Machine → Outcome Value
  | 0, _, m => .exhausted m
  | limit + 1, t, m =>
    let o := stepChecked check alarm host t
      ⟨config, host.toObserver, performChecked check alarm config host limit, limit⟩ m
    if check.task t m o then o else alarm

end Script

/-- An engine that checks the tasks that it performs. -/
noncomputable def Engine.checked (check : Check) (alarm : Outcome Value) (config : Config) (host : Host)
    (limit : Nat) : Engine :=
  ⟨config, host.toObserver, Script.performChecked check alarm config host limit, limit⟩

/-! ## Simulations of a run by itself -/

/-- Whether the machines of a simulation are always one, and its pairings pair objects with themselves. -/
structure Simulation.Diagonal (S : Simulation) : Prop where
  machine : ∀ {ph g p m m'}, S.inv ph g p m m' → m' = m
  pairing : ∀ {ph g p m m'}, S.inv ph g p m m' → p ≤ .identity
  spent : ∀ {g m m'}, S.spent g m m' → m' = m

namespace Simulation

open Script

variable {S : Simulation} {α β : Type} {config : Config} {host : Host} {check : Check} {t t' : Task}
  {m m' : Machine} {g : S.Ghost} {k : Course} {p : Pairing} {V : Matching α} {o o' : Outcome α}

/-- Both sides of a run that keeps a simulation of it by itself end alike. -/
theorem Diagonal.ends_eq (hS : S.Diagonal) (hV : V.Monotone) (heq : ∀ v w, V .identity v w → v = w)
    (h : S.Ends k g p V o o') : o' = o := by
  cases h with
  | value hq hv hm => rw [hS.machine hm, heq _ _ (hV (hS.pairing hm) hv)]
  | abrupt hq hc hj hm => rw [hS.machine hm, (hc.mono (hS.pairing hm)).eq]
  | exhausted hspent => rw [hS.spent hspent]

theorem Poses.eq (h : S.Poses p t t') (hp : p ≤ .identity) : t' = t := by
  cases h with
  | expression trees => rfl
  | statement labels trees => rfl
  | call function receiver args constructing =>
    cases Pairing.eq_of_identity (hp function)
    rw [Matching.option_eq (fun _ _ h => hp h) receiver,
      Matching.list_eq (fun _ _ h => Value.Matches.eq (h.mono hp)) args]
  | readHook behavior owner =>
    cases Pairing.eq_of_identity (hp owner)
    rfl
  | writeHook behavior owner value =>
    cases Pairing.eq_of_identity (hp owner)
    rw [(value.mono hp).eq]
  | offer behavior object name =>
    cases Pairing.eq_of_identity (hp object)
    rfl

variable (S) in
/-- Whether a simulation of a run by itself has everything in order in the course of the run. -/
structure Ensures (check : Check) : Prop where
  task : ∀ {p t m o}, S.Poses p t t → (∃ g, S.inv .going g p m m) →
    (∀ g, S.inv .going g p m m → S.Ends t.course g p Value.Matches o o) → check.task t m o
  native : ∀ {g p m}, S.inv .going g p m m → check.native m

theorem applyChecked_runs (hS : S.Diagonal) (h : S.Hosts config config host host) (htext : S.text)
    (hcheck : S.Ensures check) (alarm : Outcome Value) (hroom : S.room g 1) {v w : Value} {xs ys : List Value}
    (native : Native) (hv : Value.Matches p v w) (hxs : Matching.list Value.Matches p xs ys) :
    S.RunsAt g .going (.leaving (.returned :: evalJumps native xs)) p Value.Matches
      (applyNative host.native native v xs) (applyChecked check alarm host native w ys) := by
  refine ⟨fun e e' he m m' hm => ?_⟩
  have hnative := (applyNative_runs hroom htext native (fun _ _ => h.embeds) hv hxs
    (List.Subset.refl _)).ends e e' he m m' hm
  -- The machine is in order here, so that the checked function goes on as the plain one.
  cases hS.machine hm
  unfold applyChecked
  rw [if_pos (hcheck.native hm)]
  exact hnative

theorem stepChecked_ends (hS : S.Diagonal) (h : S.Hosts config config host host) (htext : S.text)
    (hc : S.Contained) (hcheck : S.Ensures check) (alarm : Outcome Value) {e e' : Engine} (he : S.Agree e e')
    (ht : S.Poses p t t) (hm : S.inv .going g p m m) :
    S.Ends t.course g p Value.Matches (step host t e m) (stepChecked check alarm host t e' m) := by
  cases t with
  | call f this args constructing =>
    cases ht with
    | call function receiver args' constructing =>
      exact call_ends htext he constructing function receiver args' hm
        (fun name native _ q hq a b hab g' hroom => applyChecked_runs hS h htext hcheck alarm hroom native
          (.ref hab) (Matching.list_mono Value.Matches.mono hq args'))
        (hc (.call function receiver args' constructing) hm)
  | _ => exact step_ends htext he (fun _ => h.embeds) ht hm (hc ht hm)

theorem performs_checked (hS : S.Diagonal) (h : S.Hosts config config host host) (htext : S.text)
    (hc : S.Contained) (hcheck : S.Ensures check) (alarm : Outcome Value) (limit : Nat) :
    S.Performs (performUpTo config host limit) (performChecked check alarm config host limit) := by
  induction limit with
  | zero => exact fun p t t' _ g m m' hm => .exhausted (S.spend hm)
  | succ limit ih =>
    intro p t t' ht g m m' hm
    cases hS.machine hm
    cases ht.eq (hS.pairing hm)
    have hends : ∀ g, S.inv .going g p m m → S.Ends t.course g p Value.Matches
        (performUpTo config host (limit + 1) t m)
        (stepChecked check alarm host t
          ⟨config, host.toObserver, performChecked check alarm config host limit, limit⟩ m) :=
      fun g hm => stepChecked_ends hS h htext hc hcheck alarm (h.agree ih limit) ht hm
    have hsame := hS.ends_eq Value.Matches.mono (fun _ _ h => Value.Matches.eq h) (hends g hm)
    -- A check does not know with which ghost a task was begun, so its end is had for all of them.
    have horder := hcheck.task ht ⟨g, hm⟩ fun g hm => hsame ▸ hends g hm
    unfold performChecked
    dsimp only
    rw [if_pos (hsame.symm ▸ horder)]
    exact hends g hm

/-- What a run does behind a part that keeps a simulation of it by itself is the same if that part is. -/
theorem bind_same (hS : S.Diagonal) {x : Script α} {f : α → Script β} {e e' : Engine} (hV : V.Monotone)
    (heq : ∀ v w, V .identity v w → v = w) (hx : S.Ends k g p V (x e m) (x e' m))
    (hf : ∀ q a n, S.inv k.value g q n n → f a e' n = f a e n) : (x >>= f) e' m = (x >>= f) e m := by
  have hsame := hS.ends_eq hV heq hx
  show Script.bind x f e' m = Script.bind x f e m
  unfold Script.bind
  rw [hsame] at hx ⊢
  generalize x e m = o at hx
  cases hx with
  | value hq hv hn => exact hf _ _ _ hn
  | abrupt hq hc hj hn => rfl
  | exhausted hspent => rfl

/-- No task that is performed in the course of a program raises the alarm, whatever becomes of the
simulation at the end of the program. -/
theorem runProgram_unalarmed (hS : S.Diagonal) (h : S.Hosts config config host host) (htext : S.text)
    (hc : S.Contained) (hcheck : S.Ensures check) (alarm : Outcome Value) (limit : Nat)
    (htop : ∀ {e e'}, S.Agree e e' → e.config = e'.config → S.TopLevel g e e') {body : List Statement}
    (hs : ∀ t ∈ Statement.treesOf body, S.sound t) {this : Option ObjectId} {withs : List ObjectId}
    (hstart : ∀ e n, startRun this withs e m = .value () n → S.inv .going g p n n) :
    runProgram body this withs (.checked check alarm config host limit) m
      = runProgram body this withs (.upTo config host limit) m := by
  have hagree : S.Agree (.upTo config host limit) (.checked check alarm config host limit) :=
    h.agree (performs_checked hS h htext hc hcheck alarm limit) limit
  have hunit : ∀ v w : Unit, (Matching.same : Matching Unit) .identity v w → v = w := fun _ _ h => h
  have hbegin := hstart (.upTo config host limit) _ rfl
  have hstarted : S.Ends (.leaving []) g p (Matching.same : Matching Unit)
      (startRun this withs (.upTo config host limit) m)
      (startRun this withs (.checked check alarm config host limit) m) := .value (le_refl p) rfl hbegin
  unfold runProgram
  refine bind_same hS Matching.same_mono hunit hstarted fun q _ n hn => ?_
  have hlog : S.Follows [] q .same
      (Script.log .debug fun _ => "executing " ++ toString body.length ++ " top-level statements")
      (Script.log .debug fun _ => "executing " ++ toString body.length ++ " top-level statements") :=
    .log fun _ => rfl
  refine bind_same hS Matching.same_mono hunit (hlog.ends _ _ hagree g n n hn) fun q _ n hn => ?_
  have hhoist : S.Follows [] q .same (hoist body Intrinsic.globalObject)
      (hoist body Intrinsic.globalObject) := hoist_follows body q.intrinsic_global ⟨htext, hs⟩
  refine bind_same hS Matching.same_mono hunit (hhoist.ends _ _ hagree g n n hn) fun q _ n hn => ?_
  have hstatements : S.Meets (.leaving []) g Value.Matches
      (foldUntil runTopLevel body .undefined (.upTo config host limit) n)
      (foldUntil runTopLevel body .undefined (.checked check alarm config host limit) n) :=
    topLevel_meets (htop hagree rfl) ⟨htext, hs⟩ .undefined hn
  obtain ⟨_, hends⟩ := hstatements
  exact bind_same hS Value.Matches.mono (fun _ _ h => Value.Matches.eq h) hends fun _ _ _ _ => rfl

end Simulation

/-! ## Invariants -/

namespace Invariant

open Script

variable {I : Invariant} {config : Config} {host : Host} {check : Check} {t : Task} {m : Machine}
  {g : I.Ghost}

theorem diagonal (I : Invariant) : I.toSimulation.Diagonal where
  machine h := h.2.1
  pairing h := h.1 ▸ le_refl _
  spent h := h.1

variable (I) in
/-- Whether an invariant has everything in order in the course of a run. -/
structure Ensures (check : Check) : Prop where
  task : ∀ {t m o}, I.Poses t → (∃ g, I.inv .going g m) →
    (∀ g, I.inv .going g m → I.Ends t.course g o) → check.task t m o
  native : ∀ {g m}, I.inv .going g m → check.native m := by intros; exact trivial

theorem Ensures.toSimulation (h : I.Ensures check) : I.toSimulation.Ensures check where
  task := by
    rintro p t m o ht ⟨g, rfl, -, hm⟩ hends
    exact h.task ht ⟨g, hm⟩ fun g hm => .of_simulation (hends g ⟨rfl, rfl, hm⟩)
  native hm := h.native hm.2.2

theorem performs_checked (h : I.Hosts config host) (htext : I.text) (hc : I.toSimulation.Contained)
    (hcheck : I.Ensures check) (alarm : Outcome Value) (limit : Nat) :
    I.toSimulation.Performs (performUpTo config host limit)
      (performChecked check alarm config host limit) :=
  Simulation.performs_checked I.diagonal h.toSimulation htext hc hcheck.toSimulation alarm limit

/-- No task that is performed in the course of a task raises the alarm, and the invariant is kept. -/
theorem perform_checked (h : I.Hosts config host) (htext : I.text) (hc : I.toSimulation.Contained)
    (hcheck : I.Ensures check) (alarm : Outcome Value) (limit : Nat) (ht : I.Poses t)
    (hm : I.inv .going g m) :
    performChecked check alarm config host limit t m = performUpTo config host limit t m ∧
      I.Ends t.course g (performUpTo config host limit t m) := by
  have hends := performs_checked h htext hc hcheck alarm limit _ _ _ ht g m m ⟨rfl, rfl, hm⟩
  exact ⟨I.diagonal.ends_eq Value.Matches.mono (fun _ _ h => Value.Matches.eq h) hends,
    .of_simulation hends⟩

/-! ## Programs -/

variable (I) in
/-- What the statements of a program ask of an invariant, besides their tasks. -/
structure TopLevel (g : I.Ghost) : Prop where
  result : ∀ {m} (v : Value), I.inv .going g m → I.inv .going g { m with result := v } := by
    intros; assumption
  collect : ∀ {m hp es}, I.inv .going g m → (∀ a, m.Reaches a → hp.slot? a = m.heap.slot? a) →
    (∀ a, hp.slot? a = m.heap.slot? a ∨ hp.slot? a = none) → (m.heap.Sound → hp.Sound) →
    shown es = shown m.events → I.inv .going g { m with heap := hp, events := es }

variable (I) in
/-- What whole programs ask of an invariant, besides their tasks. -/
structure Programs (g : I.Ghost) : Prop extends I.TopLevel g where
  outermost : ∀ {m}, I.inv .going g m →
    I.inv .going g { m with frame := Frame.outermost Intrinsic.globalObject [] } := by
      intros; assumption

theorem TopLevel.toSimulation (h : I.TopLevel g) {e e' : Engine} (he : I.toSimulation.Agree e e')
    (hconfig : e.config = e'.config) : I.toSimulation.TopLevel g e e' where
  agree := he
  result hm hv := ⟨hm.1, by
    obtain ⟨rfl, rfl, -⟩ := hm
    rw [hv.eq], h.result _ hm.2.2⟩
  collect := by
    rintro _ _ m ⟨rfl, rfl, hm⟩
    obtain ⟨hp, es, hrun, hreach, hsound, hshown, hsub⟩ := Simulation.collectIfDue_value e m
    have hsame := Simulation.collectIfDue_congr hconfig m
    exact ⟨.identity, _, _, hrun, hsame.symm.trans hrun,
      ⟨rfl, rfl, h.collect hm hreach hsub hsound hshown⟩, rfl, rfl⟩

theorem Programs.toSimulation (h : I.Programs g) {e e' : Engine} (he : I.toSimulation.Agree e e')
    (hconfig : e.config = e'.config) : I.toSimulation.Programs g e e' where
  toTopLevel := h.toTopLevel.toSimulation he hconfig
  outermost hm := ⟨hm.1, by rw [hm.2.1], h.outermost hm.2.2⟩

/-- No task that is performed in the course of a program raises the alarm, and the invariant is
kept. -/
theorem runProgram_checked (h : I.Hosts config host) (htext : I.text) (hc : I.toSimulation.Contained)
    (hcheck : I.Ensures check) (hprograms : I.Programs g) (alarm : Outcome Value) (limit : Nat)
    {body : List Statement} (hs : ∀ t ∈ Statement.treesOf body, I.sound t) {this : Option ObjectId}
    {withs : List ObjectId}
    (hstart : ∀ e n, startRun this withs e m = .value () n → I.inv .going g n) :
    runProgram body this withs (.checked check alarm config host limit) m
        = runProgram body this withs (.upTo config host limit) m ∧
      I.Ends (.leaving []) g (runProgram body this withs (.upTo config host limit) m) := by
  have hagree : I.toSimulation.Agree (.upTo config host limit) (.checked check alarm config host limit) :=
    h.toSimulation.agree (performs_checked h htext hc hcheck alarm limit) limit
  have hmeets : I.toSimulation.Meets (.leaving []) g Value.Matches
      (runProgram body this withs (.upTo config host limit) m)
      (runProgram body this withs (.checked check alarm config host limit) m) := by
    refine Simulation.runProgram_meets (p := .identity) (hprograms.toSimulation hagree rfl)
      ⟨htext, hs⟩ fun n n' hn hn' => ?_
    cases hn
    cases hn'
    exact ⟨rfl, rfl, hstart (.upTo config host limit) _ rfl⟩
  obtain ⟨p, hends⟩ := hmeets
  exact ⟨I.diagonal.ends_eq Value.Matches.mono (fun _ _ h => Value.Matches.eq h) hends,
    .of_simulation hends⟩

/-- No task that is performed in the course of a program raises the alarm, whatever becomes of the
invariant at the end of the program. -/
theorem runProgram_unalarmed (h : I.Hosts config host) (htext : I.text) (hc : I.toSimulation.Contained)
    (hcheck : I.Ensures check) (htop : I.TopLevel g) (alarm : Outcome Value) (limit : Nat)
    {body : List Statement} (hs : ∀ t ∈ Statement.treesOf body, I.sound t) {this : Option ObjectId}
    {withs : List ObjectId}
    (hstart : ∀ e n, startRun this withs e m = .value () n → I.inv .going g n) :
    runProgram body this withs (.checked check alarm config host limit) m
      = runProgram body this withs (.upTo config host limit) m :=
  Simulation.runProgram_unalarmed I.diagonal h.toSimulation htext hc hcheck.toSimulation alarm limit
    (fun he hconfig => htop.toSimulation he hconfig) hs fun e n hn => ⟨rfl, rfl, hstart e n hn⟩

end Invariant

end PageScript
