import PageScript.Proofs.Composed.Cuts
import PageScript.Proofs.Composed.Programs
import PageScript.Proofs.Collection.Boundary
import PageScript.Proofs.Simulation.Foreign

/-! # Tasks as composed computations

A task ends at once where it is stopped, cancelled or refused.  Otherwise it counts an element or a call
and goes on as a composed computation.
-/

set_option autoImplicit false

namespace PageScript

open Script

variable {α β : Type} {config : Config} {host : Host} {e e' : Engine} {m : Machine} {t : Task}

/-! ## What ends at once -/

/-- No value comes of raising an error, whatever one is expected. -/
theorem raise_abrupt (kind : ErrorKind) (message : String) (e : Engine) (m : Machine) :
    ∃ c n, ∀ α, (raise kind message : Script α) e m = .abrupt c n := by
  by_cases ht : 0 < m.tryDepth
  · exact ⟨_, _, fun α => Simulation.raise_inside kind message ht⟩
  have hzero : m.tryDepth = 0 := Nat.eq_zero_of_not_pos ht
  cases hs : m.stopped with
  | true =>
    refine ⟨.stopped, m, fun α => ?_⟩
    rw [Simulation.raise_outside kind message hzero, hs]
    rfl
  | false =>
    obtain ⟨n, hn⟩ : ∃ n, note kind message e m = .value () n := by
      by_cases hl : m.pending.isNone ∧ LogLevel.rank .debug ≤ e.config.verbosity.rank
      · exact ⟨_, Simulation.note_logged kind message hl⟩
      · exact ⟨_, Simulation.note_quiet kind message hl⟩
    refine ⟨.stopped, n, fun α => ?_⟩
    rw [Simulation.raise_outside kind message hzero, hs]
    show Script.bind (note kind message) (fun _ => (Script.abrupt .stopped : Script α)) e m = _
    unfold Script.bind
    rw [hn]
    rfl

/-- Refuses a call that would be nested too deeply. -/
def refuse (limit : Nat) : Script Value := do
  Script.log .debug fun _ => "call depth limit " ++ toString limit ++ " reached"
  raise .general "Stack overflow"

/-- What would follow on a refusal never runs. -/
theorem refuse_abrupt (limit : Nat) (e : Engine) (m : Machine) (f : Unit → Script Value) :
    ∃ c n, refuse limit e m = .abrupt c n ∧
      (do Script.log .debug fun _ => "call depth limit " ++ toString limit ++ " reached"
          let u ← (raise .general "Stack overflow" : Script Unit)
          f u : Script Value) e m = .abrupt c n := by
  obtain ⟨es, hlog, -⟩ := Simulation.log_value .debug
    (fun _ => "call depth limit " ++ toString limit ++ " reached") e m
  obtain ⟨c, n, hraise⟩ := raise_abrupt .general "Stack overflow" e { m with events := es }
  refine ⟨c, n, ?_, ?_⟩
  · show Script.bind (Script.log .debug _) _ e m = _
    unfold Script.bind
    rw [hlog]
    exact hraise Value
  · show Script.bind (Script.log .debug _) (fun _ => Script.bind (raise .general "Stack overflow") f) e m = _
    unfold Script.bind
    rw [hlog]
    dsimp only
    rw [hraise]

theorem cancel_abrupt (remark : Option String) (e : Engine) (m : Machine) :
    ∃ n, Simulation.cancel remark e m = .abrupt .stopped n := by
  have hend : ∀ m, ∃ n, Script.bind (Script.log .info fun _ => "host cancelled execution")
      (fun _ => (Script.stop : Script Unit)) e m = .abrupt .stopped n := fun m => by
    obtain ⟨es, hlog, -⟩ := Simulation.log_value .info (fun _ => "host cancelled execution") e m
    unfold Script.bind
    rw [hlog]
    exact ⟨_, rfl⟩
  cases remark with
  | none => exact hend _
  | some text =>
    obtain ⟨es, hlog, -⟩ := Simulation.log_value .warn (fun _ => text) e (m.answered .cancelled)
    show ∃ n, Script.bind (Script.log .warn fun _ => text) _ e (m.answered .cancelled) = _
    unfold Script.bind
    rw [hlog]
    exact hend _

theorem Regular.refuse (limit : Nat) : Regular Value (refuse limit) :=
  .bind (.log _ _) fun _ => .raise _ _

/-! ## Elements -/

/-- The machine on which an element is counted. -/
def Task.enter : Task → Machine → Machine
  | .statement s _, m => m.enter s
  | _, m => m

/-- The machine that an element leaves behind. -/
def Task.leave : Task → Machine → Machine
  | .statement _ _, m => m.leave
  | _, m => m

/-- What an element does once it is counted. -/
def Task.counted : Task → Script Value
  | .expression e => expressionForm e
  | .statement s labels => afterwards (Composed.runCounted s labels) Machine.leave
  | _ => pure .undefined

theorem Composed.element (t : Task) : Composed Value t.counted := by
  cases t with
  | expression e => exact (Regular.expressionForm e).composed
  | statement s labels => exact .afterwards (.counted s labels) _ fun _ => ⟨rfl, rfl, rfl⟩
  | _ => exact .pure _

/-- The start of an element that is not under way yet. -/
theorem step_element (ht : t.isElement = true) (o : Outcome Unit) (ho : poll e (t.enter m) = o)
    (hvalue : ∀ n, o ≠ .exhausted n) :
    step host t e m = match o with
      | .value _ n => t.counted e n
      | .abrupt c n => .abrupt c (t.leave n)
      | .exhausted n => .exhausted n := by
  cases t with
  | expression x =>
    show Script.bind poll (fun _ => expressionForm x) e m = _
    unfold Script.bind
    rw [show poll e m = o from ho]
    cases o with
    | exhausted n => exact absurd rfl (hvalue n)
    | _ => rfl
  | statement s labels =>
    show Script.afterwards (Script.bind poll fun _ => Composed.runCounted s labels) Machine.leave e (m.enter s)
      = _
    unfold Script.afterwards Script.bind
    rw [show poll e (m.enter s) = o from ho]
    cases o with
    | exhausted n => exact absurd rfl (hvalue n)
    | _ => rfl
  | _ => cases ht

/-- An element that begins in a run that was stopped is passed over. -/
theorem step_stopped (ht : t.isElement = true) (h : m.stopped = true) :
    step host t e m = .abrupt .stopped m := by
  have hstopped : (t.enter m).stopped = true := by
    cases t <;> exact h
  rw [step_element ht _ (Simulation.poll_stopped hstopped) fun _ => nofun]
  cases t <;> rfl

theorem enter_count_after (t : Task) (m : Machine) : m.After (t.enter m).count := by
  cases t <;> exact ⟨Nat.le_succ _, rfl, List.suffix_refl _⟩

theorem poll_enter (ht : t.isElement = true) (h : m.stopped = false) :
    poll e (t.enter m) = Simulation.heed e (t.enter m).count := by
  refine Simulation.poll_going ?_
  cases t <;> exact h

theorem feedback_enter (t : Task) (m : Machine) (e : Engine) :
    e.observer.feedback (t.enter m).count.events (t.enter m).count.elements
      = e.observer.feedback m.events (m.elements + 1) := by
  cases t <;> rfl

/-- An element goes on behind its count, if the embedding program has nothing against it. -/
theorem step_counted (ht : t.isElement = true) (h : m.stopped = false)
    (hgo : e.observer.feedback m.events (m.elements + 1) = .goOn) :
    step host t e m = t.counted e (t.enter m).count := by
  have hpoll : poll e (t.enter m) = .value () (t.enter m).count := by
    rw [poll_enter ht h]
    unfold Simulation.heed
    rw [bind_ask, feedback_enter, hgo]
    rfl
  rw [step_element ht _ hpoll fun _ => nofun]

/-- An element ends with a stop, if the embedding program cancels the run there. -/
theorem step_cancelled (host : Host) (e : Engine) (ht : t.isElement = true) (h : m.stopped = false)
    (remark : Option String) :
    ∃ n, m.After n ∧ ∀ e' : Engine, e.idle.Cut e' →
      e'.observer.feedback m.events (m.elements + 1) = .cancel remark →
      step host t e' m = .abrupt .stopped n := by
  obtain ⟨k, hk⟩ := cancel_abrupt remark e.idle (t.enter m).count
  have hcount := enter_count_after t m
  have hafter := (Composed.sequential.cancel remark).after e.idle_advances (t.enter m).count
  rw [hk] at hafter
  refine ⟨t.leave k, ?_, fun e' he' hcancel' => ?_⟩
  · refine (hcount.trans hafter).trans ?_
    cases t
    case statement => exact .abreast ⟨rfl, rfl, rfl⟩
    all_goals exact .refl k
  · have hgoing : ∀ n, Simulation.cancel remark e.idle (t.enter m).count ≠ .exhausted n := by
      intro n hn
      cases hk.symm.trans hn
    have hpoll : poll e' (t.enter m) = .abrupt .stopped k := by
      rw [poll_enter ht h, ← hk, ← (Composed.sequential.cancel remark).at_once hgoing he']
      unfold Simulation.heed
      rw [bind_ask, feedback_enter, hcancel']
    refine step_element ht _ hpoll fun n hn => ?_
    cases hn

/-! ## Calls -/

/-- A call that has been granted, one call deeper. -/
def deepened (host : Host) (f this : ObjectId) (args : List Value) (constructing : Bool) (c : Callable) :
    Script Value := do
  Script.log .trace fun m =>
    "call " ++ c.name?.getD "<anonymous>" ++ " (depth " ++ toString m.callDepth ++ ")"
  returning (Simulation.runCallable (applyNative host.native) f this args constructing c)

theorem Composed.deepened (hnative : ∀ behavior this args, Composed Value (host.native behavior this args))
    (f this : ObjectId) (args : List Value) (constructing : Bool) (c : Callable) :
    Composed Value (deepened host f this args constructing c) := by
  refine .bind (.log _ _) fun _ => .returning ?_
  cases c with
  | script tree scope => exact (Regular.runFunction f tree scope this args constructing).composed
  | native name native =>
    exact .within _ (Regular.applyNative (fun h => h.composed) hnative native (.ref this) args)

/-- A call of no function, or one that is nested too deeply, ends with an error at once. -/
theorem step_refused (host : Host) (f : ObjectId) (this : Option ObjectId) (args : List Value)
    (constructing : Bool)
    (h : (m.heap.get? f).bind Object.callable = none ∨ e.config.maxDepth ≤ m.callDepth) :
    ∃ c n, m.After n ∧ ∀ e' : Engine, e.idle.Cut e' →
      step host (.call f this args constructing) e' m = .abrupt c n := by
  -- An error is a composed computation, and it ends without performing a task.
  have hends : ∀ {x : Script Value}, Composed Value x → (∃ c n, x e.idle m = .abrupt c n) →
      (∀ e' : Engine, e.idle.Cut e' → ∀ c n, x e' m = .abrupt c n →
        step host (.call f this args constructing) e' m = .abrupt c n) →
      ∃ c n, m.After n ∧ ∀ e' : Engine, e.idle.Cut e' →
        step host (.call f this args constructing) e' m = .abrupt c n := by
    rintro x hx ⟨c, n, hn⟩ hstep
    have hafter := hx.after e.idle_advances m
    rw [hn] at hafter
    refine ⟨c, n, hafter, fun e' he' => hstep e' he' c n ?_⟩
    rw [← hn]
    exact hx.at_once (hn ▸ fun _ hne => nomatch hne) he'
  cases hc : (m.heap.get? f).bind Object.callable with
  | none =>
    refine hends (.raise .type "value is not a function") ?_ fun e' _ c n hn => ?_
    · obtain ⟨c, n, hraise⟩ := raise_abrupt .type "value is not a function" e.idle m
      exact ⟨c, n, hraise Value⟩
    · exact (Simulation.callFunction_missing hc).trans hn
  | some callable =>
    have hdepth : e.config.maxDepth ≤ m.callDepth := h.resolve_left fun hnone => by simp [hc] at hnone
    refine hends (Regular.refuse e.config.maxDepth).composed ?_ fun e' he' c n hn => ?_
    · obtain ⟨c, n, hrefuse, -⟩ := refuse_abrupt e.config.maxDepth e.idle m fun _ => pure .undefined
      exact ⟨c, n, hrefuse⟩
    show callFunction (applyNative host.native) f this args constructing e' m = _
    have hconfig : e'.config = e.config := he'.config
    rw [Simulation.callFunction_found hc, Simulation.enterCall_refused (hconfig ▸ hdepth), hconfig]
    obtain ⟨c', n', hrefuse, hrest⟩ := refuse_abrupt e.config.maxDepth e' m fun _ =>
      Simulation.deepen (applyNative host.native) f this args constructing callable
    rw [← hn, hrefuse]
    exact hrest

/-- A call that is granted runs what the function consists of. -/
theorem step_granted {f : ObjectId} {this : Option ObjectId} {args : List Value} {constructing : Bool}
    {c : Callable} (hc : (m.heap.get? f).bind Object.callable = some c)
    (hdepth : m.callDepth < e.config.maxDepth) :
    step host (.call f this args constructing) e m
      = afterwards (deepened host f (this.getD Intrinsic.globalObject) args constructing c)
          (fun n => { n with callDepth := n.callDepth - 1 }) e { m with callDepth := m.callDepth + 1 } := by
  show callFunction (applyNative host.native) f this args constructing e m = _
  rw [Simulation.callFunction_found hc, Simulation.enterCall_granted hdepth]
  rfl

/-! ## Steps -/

/-- Whether the functions and hooks of an embedding program are composed computations. -/
structure Host.Composed (host : Host) : Prop where
  native : ∀ behavior this args, PageScript.Composed Value (host.native behavior this args)
  readHook : ∀ behavior owner, PageScript.Composed Value (host.readHook behavior owner)
  writeHook : ∀ behavior owner v, PageScript.Composed Value (host.writeHook behavior owner v)
  offer : ∀ behavior object name, PageScript.Composed Bool (host.offer behavior object name)

/-- Whether a task is left to a hook of the embedding program. -/
def Task.isHook : Task → Bool
  | .readHook .. | .writeHook .. | .offer .. => true
  | _ => false

/-- The end of a call. -/
def Machine.surface (m : Machine) : Machine := { m with callDepth := m.callDepth - 1 }

/-- A call one deeper. -/
def Machine.submerge (m : Machine) : Machine := { m with callDepth := m.callDepth + 1 }

/-- What a call does is settled by the settings: it is a regular refusal, or it runs a function one call
deeper. -/
theorem step_call (host : Host) (f : ObjectId) (this : Option ObjectId) (args : List Value) (constructing : Bool)
    (e : Engine) (m : Machine) :
    (∃ x, Regular Value x ∧ ∀ d : Engine, d.config = e.config →
      step host (.call f this args constructing) d m = x d m) ∨
    ∃ c, ∀ d : Engine, d.config = e.config → step host (.call f this args constructing) d m
      = afterwards (deepened host f (this.getD Intrinsic.globalObject) args constructing c) Machine.surface d
          m.submerge := by
  cases hc : (m.heap.get? f).bind Object.callable with
  | none => exact .inl ⟨_, .raise .type "value is not a function", fun d _ => Simulation.callFunction_missing hc⟩
  | some c =>
    by_cases hdepth : m.callDepth < e.config.maxDepth
    · exact .inr ⟨c, fun d hd => step_granted hc (by rw [hd]; exact hdepth)⟩
    · have hlimit : e.config.maxDepth ≤ m.callDepth := by omega
      refine .inl ⟨refuse e.config.maxDepth, .refuse _, fun d hd => ?_⟩
      show callFunction (applyNative host.native) f this args constructing d m = _
      rw [Simulation.callFunction_found hc, Simulation.enterCall_refused (by rw [hd]; exact hlimit), hd]
      obtain ⟨c', k, hrefuse, hrest⟩ := refuse_abrupt e.config.maxDepth d m fun _ =>
        Simulation.deepen (applyNative host.native) f this args constructing c
      rw [hrefuse]
      exact hrest

/-- Whether two engines agree on the start of a task, if that is an element of a run that goes on. -/
def Engine.Admits (e : Engine) (t : Task) (m : Machine) (e' : Engine) : Prop :=
  t.isElement = true → m.stopped = false →
    e'.observer.feedback m.events (m.elements + 1) = e.observer.feedback m.events (m.elements + 1)

/-- Engines that differ in how tasks are performed, and agree on the start of this one. -/
structure Engine.Fellow (e : Engine) (t : Task) (m : Machine) (e' : Engine) : Prop where
  idle : e.idle.Cut e'
  admits : e.Admits t m e'

/-- What becomes of a task: it ends at once, or it counts an element or a call and goes on as a composed
computation, or the embedding program answers as a hook. -/
inductive Task.Course (host : Host) (e : Engine) (m : Machine) (t : Task) : Prop where
  | ends (c : Abrupt) (n : Machine) (after : m.After n) (stopped : t.isElement = true → c = .stopped)
      (step : ∀ e', e.Fellow t m e' → step host t e' m = .abrupt c n)
  | element (kind : t.isElement = true)
      (feedback : e.observer.feedback m.events (m.elements + 1) = .goOn)
      (step : ∀ e', e.Fellow t m e' → step host t e' m = t.counted e' (t.enter m).count)
  | call (x : Script Value) (composed : PageScript.Composed Value x)
      (depth : m.callDepth < e.config.maxDepth) (kind : t.isElement = false)
      (step : ∀ e', e.Fellow t m e' → step host t e' m = afterwards x Machine.surface e' m.submerge)
  | hook (x : Script Value) (composed : PageScript.Composed Value x) (kind : t.isHook = true)
      (step : ∀ e', step host t e' m = x e' m)

theorem Host.Composed.course (hhost : host.Composed) (t : Task) (e : Engine) (m : Machine) :
    t.Course host e m := by
  by_cases ht : t.isElement = true
  · cases hs : m.stopped with
    | true => exact .ends .stopped m (.refl m) (fun _ => rfl) fun e' _ => step_stopped ht hs
    | false =>
      cases hf : e.observer.feedback m.events (m.elements + 1) with
      | goOn => exact .element ht hf fun e' he' => step_counted ht hs ((he'.admits ht hs).trans hf)
      | cancel remark =>
        obtain ⟨n, hafter, hstep⟩ := step_cancelled host e ht hs remark
        exact .ends .stopped n hafter (fun _ => rfl) fun e' he' => hstep e' he'.idle ((he'.admits ht hs).trans hf)
  have hkind : t.isElement = false := Bool.eq_false_iff.2 ht
  cases t with
  | expression x => exact absurd rfl ht
  | statement s labels => exact absurd rfl ht
  | call f this args constructing =>
    by_cases h : (m.heap.get? f).bind Object.callable = none ∨ e.config.maxDepth ≤ m.callDepth
    · obtain ⟨c, n, hafter, hstep⟩ :=
        step_refused host f this args constructing h
      exact .ends c n hafter (fun hne => absurd hne ht) fun e' he' => hstep e' he'.idle
    · obtain ⟨hc, hdepth⟩ := not_or.1 h
      obtain ⟨callable, hc⟩ := Option.ne_none_iff_exists'.1 hc
      have hdepth : m.callDepth < e.config.maxDepth := Nat.not_le.1 hdepth
      refine .call _ (.deepened hhost.native f (this.getD Intrinsic.globalObject) args constructing callable)
        hdepth hkind fun e' he' => ?_
      have hconfig : e'.config = e.config := he'.idle.config
      exact step_granted hc (hconfig ▸ hdepth)
  | readHook behavior owner => exact .hook _ (hhost.readHook behavior owner) rfl fun _ => rfl
  | writeHook behavior owner v => exact .hook _ (hhost.writeHook behavior owner v) rfl fun _ => rfl
  | offer behavior object name =>
    exact .hook _ (.bind (hhost.offer behavior object name) fun _ => .pure _) rfl fun _ => rfl

theorem Engine.Advances.fellow (h : e.Advances) (t : Task) (m : Machine) : e.Fellow t m e :=
  ⟨h.idle_cut, fun _ _ => rfl⟩

/-- What a call leaves is in the call that it was made in. -/
theorem surface_after {x : Script Value} (h : m.submerge.After (x e m.submerge).machine) :
    m.After (afterwards x Machine.surface e m.submerge).machine := by
  have hup : ∀ n : Machine, m.submerge.After n → m.After n.surface := fun n hn =>
    ⟨hn.elements, by rw [show n.surface.callDepth = n.callDepth - 1 from rfl, hn.callDepth]; rfl, hn.events⟩
  unfold afterwards
  cases ho : x e m.submerge <;> rw [ho] at h <;> exact hup _ h

/-- A step leads to a later machine if the tasks that it performs do. -/
theorem step_after (hhost : host.Composed) (he : e.Advances) (t : Task) (m : Machine) :
    m.After (step host t e m).machine := by
  cases hhost.course t e m with
  | ends c n after stopped step => rwa [step e (he.fellow t m)]
  | element kind feedback step =>
    rw [step e (he.fellow t m)]
    exact (enter_count_after t m).trans ((Composed.element t).after he _)
  | call x composed depth kind step =>
    rw [step e (he.fellow t m)]
    exact surface_after (composed.after he m.submerge)
  | hook x composed kind step =>
    rw [step e]
    exact composed.after he m

theorem performUpTo_advances (hhost : host.Composed) (limit : Nat) :
    (Engine.upTo config host limit).Advances := by
  induction limit with
  | zero => exact fun t m => .refl m
  | succ limit ih => exact fun t m => step_after hhost ih t m

theorem Regular.getProperty (object : ObjectId) (name : String) :
    Regular Value (getProperty object name) := .orElse (.readMember _ _) _

theorem Regular.setProperty (object : ObjectId) (name : String) (v : Value) :
    Regular Unit (setProperty object name v) :=
  .bind (.orElse (.writeMember _ _ _) _) fun _ => .pure _

namespace Stock

theorem print_regular (args : List Value) : Regular Value (print args) :=
  .bind (.each .display args) fun _ => .bind (.emit _) fun _ => .pure _

theorem readHook_regular (behavior : String) (owner : ObjectId) :
    Regular Value (readHook behavior owner) := by
  unfold readHook
  split
  · exact .pure _
  · exact .getProperty _ _
  · exact .getProperty _ _
  · exact .abrupt _ nofun
  · exact .pure _

theorem writeHook_regular (behavior : String) (owner : ObjectId) (v : Value) :
    Regular Value (writeHook behavior owner v) := by
  unfold writeHook
  split
  · exact .bind (.setProperty _ _ _) fun _ => .pure _
  · exact .bind (.display v) fun _ => .bind (.setProperty _ _ _) fun _ => .pure _
  · exact .abrupt _ nofun
  · exact .abrupt _ nofun
  · exact .pure _

theorem offer_regular (behavior : String) (object : ObjectId) (name : String) :
    Regular Bool (offer behavior object name) := by
  unfold offer
  split
  · split
    · exact .bind (.modifyObject _ _) fun _ => .pure _
    · exact .pure _
  · exact .pure _

theorem native_composed (behavior : String) (this : Value) (args : List Value) :
    Composed Value (native behavior this args) := by
  unfold native
  split <;> first | exact .pure _ | exact .abrupt _ | exact (print_regular _).composed | skip
  exact .bind (Regular.arrayOf _).composed fun _ => .pure _

theorem host_composed (observer : Observer) : (Stock.host observer).Composed where
  native := native_composed
  readHook behavior owner := (readHook_regular behavior owner).composed
  writeHook behavior owner v := (writeHook_regular behavior owner v).composed
  offer behavior object name := (offer_regular behavior object name).composed

end Stock

end PageScript
