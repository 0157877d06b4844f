import PageScript.Proofs.Collection.Renaming
import PageScript.Proofs.Simulation.Foreign

/-! # Interpreters that are alike

Two interpreters whose machines differ by a renaming of their objects, and by values that scripts cannot
read, show the embedding program the same events and come to the same results, whenever either of them
collects garbage.  Between two top-level statements the objects that the machines can still come to are
paired anew.
-/

set_option autoImplicit false

namespace PageScript

/-! ## Observers that do not read the log -/

/-- Whether the answers of an embedding program do not depend on the log. -/
structure Observer.IgnoresLog (o : Observer) : Prop where
  feedback : ∀ {es es'}, shown es = shown es' → ∀ n, o.feedback es n = o.feedback es' n
  onError : ∀ {es es'}, shown es = shown es' → ∀ r, o.onError es r = o.onError es' r
  onStep : ∀ {es es'}, shown es = shown es' → ∀ d, o.onStep es d = o.onStep es' d

namespace Stock

theorem countP_shown {f : Event → Bool} (hf : ∀ event, f event = true → event.isShown = true)
    (es : List Event) : (shown es).countP f = es.countP f := by
  rw [shown, List.countP_filter]
  refine List.countP_congr fun event _ => ?_
  rw [Bool.and_eq_true]
  exact ⟨And.left, fun h => ⟨h, hf event h⟩⟩

theorem reportCount_shown (es : List Event) : reportCount (shown es) = reportCount es :=
  countP_shown (fun event h => by cases event <;> first | rfl | cases h) es

theorem stepCount_shown (es : List Event) : stepCount (shown es) = stepCount es :=
  countP_shown (fun event h => by cases event <;> first | rfl | cases h) es

theorem scripted_ignoresLog (budget : Option Nat) (errors : List ErrorAction)
    (steps : List DebugAction) : (scripted budget errors steps).IgnoresLog where
  feedback _ _ := rfl
  onError {es es'} h _ := by
    have hcount : reportCount es = reportCount es' := by
      rw [← reportCount_shown, h, reportCount_shown]
    exact congrArg (fun n => (errors[n]? <|> errors.getLast?).getD .abort) hcount
  onStep {es es'} h _ := by
    have hcount : stepCount es = stepCount es' := by rw [← stepCount_shown, h, stepCount_shown]
    exact congrArg (fun n => (steps[n]?).getD .goOn) hcount

end Stock

/-! ## Collections between statements -/

namespace Simulation

open Script

variable {secret : Nat → Prop} {e e' : Engine} {m m' : Machine} {p : Pairing}

/-- Code of an embedding program that deals in keys keeps renamings where there are no secrets, and other
code does in any case. -/
theorem ofRenaming_grants {keys : Prop} (hkeys : keys → ∀ key, ¬secret key) (jumps : Jump → Prop) :
    (ofRenaming secret).Grants ⟨jumps, True, keys, True, True, False, True⟩ where
  untidied := not_false
  keep _ _ _ _ _ _ _ h hab on := by
    cases on with
    | true => exact h.modifySlot hab fun _ _ hst => ⟨hst.object, congrArg (· + 1) hst.pins⟩
    | false => exact h.modifySlot hab fun _ _ hst => ⟨hst.object, congrArg (· - 1) hst.pins⟩
  setKey hmay _ p _ _ key h :=
    have hopen : ¬p.secret key := h.secret ▸ hkeys hmay key
    { h with matched := { h.matched with key := rfl, readable := hopen } }
  protect hmay _ p _ _ _ _ name key h hab :=
    have hopen : ∀ key, ¬p.secret key := h.secret ▸ hkeys hmay
    h.modifySlot hab fun _ _ hst => ⟨hst.object.protect hopen name key, hst.pins⟩
  settle _ _ _ _ _ h := h
  hook _ _ _ _ _ _ _ _ _ h hab hf := h.edit hab fun _ _ ho => hf.matches ho
  fill _ _ _ _ _ _ _ _ _ h hab hf := h.edit hab fun _ _ ho => hf.matches ho
  collect h := h.elim

theorem ofRenaming_hosts {keys : Prop} (hkeys : keys → ∀ key, ¬secret key) {functions hooks : Jump → Prop}
    {config : Config} {host : Host}
    (hhost : host.Uses ⟨functions, True, keys, True, True, False, True⟩
      ⟨hooks, True, keys, True, True, False, True⟩)
    (hlog : host.IgnoresLog) (limit limit' : Nat) :
    (ofRenaming secret).Hosts { config with collectAbove := limit } { config with collectAbove := limit' }
      host host where
  maxDepth := rfl
  depth := trivial
  showErrors := rfl
  shows := trivial
  gmtOffset := rfl
  verbosity := rfl
  epoch := rfl
  feedback := hlog.feedback
  onError := hlog.onError
  onStep := hlog.onStep
  declines h := h.elim
  embeds := .of_uses hhost (ofRenaming_grants hkeys _) (ofRenaming_grants hkeys _)
    (fun _ _ => .inr trivial) fun _ _ => trivial

theorem ofRenaming_programs (he : (ofRenaming secret).Agree e e') :
    (ofRenaming secret).Programs () e e' where
  agree := he
  result h hv := { h with matched := { h.matched with result := hv } }
  outermost {p m m'} h :=
    { h with matched := { h.matched with
      frame := ⟨rfl, p.intrinsic_global, p.intrinsic_global, .nil, .none, .none,
        .some p.intrinsic_global, rfl⟩ } }
  collect {p m m'} h := by
    obtain ⟨hp, es, hrun, hleft, hsound, hshown, -⟩ := collectIfDue_value e m
    obtain ⟨hp', es', hrun', hright, hsound', hshown', -⟩ := collectIfDue_value e' m'
    refine ⟨p.reached m m', _, _, hrun, hrun', ?_, rfl, rfl⟩
    have hmatched := h.matched.reached hleft hright
    refine ⟨{ hmatched with }, h.secret, ?_, hsound h.left, hsound' h.right, ?_⟩
    · rintro a b ⟨hab, ha, -⟩
      show (hp.slot? a).isSome = true
      rw [hleft a ha]
      exact h.live a b hab
    · exact (hshown.trans h.shown).trans hshown'.symm

end Simulation

/-! ## Interpreters that differ in when they collect -/

/-- Interpreters that are alike up to a renaming of their objects and the values of variables with secret
keys, and that may collect garbage at different times. -/
structure Interpreter.Alike (secret : Nat → Prop) (i i' : Interpreter) : Prop where
  hosts : (Simulation.ofRenaming secret).Hosts i.config i'.config i.host i'.host
  machines : ∃ p, Renamed secret p i.machine i'.machine

namespace Interpreter

variable {secret : Nat → Prop} {i i' : Interpreter}

theorem Alike.agree (h : Alike secret i i') :
    (Simulation.ofRenaming secret).Agree (.upTo i.config i.host nestingLimit)
      (.upTo i'.config i'.host nestingLimit) :=
  h.hosts.agree (Simulation.performUpTo_performs h.hosts trivial
    (Simulation.contained_of_stray fun _ => trivial) _) _

/-- Whether two values are the same primitive, or objects that are displayed as the same text. -/
structure SameResult (r r' : Value × Interpreter) : Prop where
  primitive : r.1.id? = none → r'.1 = r.1
  object : r.1.id?.isSome = r'.1.id?.isSome
  text : (r.2.display r.1).1 = (r'.2.display r'.1).1

/-- Whether an embedding program cannot tell two runs apart. -/
structure SameRun (r r' : Value × Interpreter) : Prop where
  shown : shown r.2.machine.events = shown r'.2.machine.events
  stopped : r.2.wasStopped = r'.2.wasStopped
  elements : r.2.machine.elements = r'.2.machine.elements
  result : SameResult r r'

theorem sameResult_undefined (i i' : Interpreter) :
    SameResult (.undefined, i) (.undefined, i') := ⟨fun _ => rfl, rfl, rfl⟩

theorem Alike.sameResult (h : Alike secret i i') {p : Pairing} {m m' : Machine} {v w : Value}
    (hm : Renamed secret p m m') (hv : Value.Matches p v w) :
    SameResult (v, { i with machine := m }) (w, { i' with machine := m' }) where
  primitive hnone := by
    cases hv with
    | object id receiver => cases hnone
    | _ => rfl
  object := Matching.option_isSome hv.id?
  text := by
    have hends : (Simulation.ofRenaming secret).Ends ⟨.halting, .halting, []⟩ () p .same
        (Script.display v (.upTo i.config i.host nestingLimit) m)
        (Script.display w (.upTo i'.config i'.host nestingLimit) m') :=
      (Simulation.display_runs hv).ends _ _ h.agree () m m' hm
    show (apply (Script.display v) v.text { i with machine := m }).1
      = (apply (Script.display w) w.text { i' with machine := m' }).1
    unfold apply
    dsimp only
    generalize Script.display v _ m = o at hends
    generalize Script.display w _ m' = o' at hends
    cases hends with
    | value _ htext _ => exact htext
    | abrupt => exact hv.text_eq
    | exhausted => exact hv.text_eq

theorem Alike.startRun (h : Alike secret i i') :
    ∃ p, ∀ n n', Script.startRun none [] (.upTo i.config i.host nestingLimit) i.machine = .value () n →
      Script.startRun none [] (.upTo i'.config i'.host nestingLimit) i'.machine = .value () n' →
      Renamed secret p n n' := by
  obtain ⟨p, hm⟩ := h.machines
  refine ⟨p, fun n n' hn hn' => ?_⟩
  cases hn
  cases hn'
  exact { hm with matched := { hm.matched with
    frame := ⟨rfl, p.intrinsic_global, p.intrinsic_global, .nil, .none, .none,
      .some p.intrinsic_global, rfl⟩
    callers := .nil
    callDepth := rfl
    tryDepth := rfl
    pending := rfl
    stopped := rfl
    stepping := rfl
    elements := rfl
    answers := rfl
    running := rfl
    noted := rfl } }

theorem Alike.execute (h : Alike secret i i') (body : List Statement) :
    SameRun (i.execute body none []) (i'.execute body none []) := by
  obtain ⟨p, hstart⟩ := h.startRun
  have hmeets : (Simulation.ofRenaming secret).Meets (.leaving []) () Value.Matches
      (Script.runProgram body none [] (.upTo i.config i.host nestingLimit) i.machine)
      (Script.runProgram body none [] (.upTo i'.config i'.host nestingLimit) i'.machine) :=
    Simulation.runProgram_meets (Simulation.ofRenaming_programs h.agree) ⟨trivial, fun _ _ => trivial⟩ hstart
  obtain ⟨q, hends⟩ := hmeets
  unfold Interpreter.execute apply
  generalize Script.runProgram body none [] _ i.machine = o at hends
  generalize Script.runProgram body none [] _ i'.machine = o' at hends
  cases hends with
  | value _ hv hm => exact ⟨hm.shown, hm.matched.stopped, hm.matched.elements, h.sameResult hm hv⟩
  | abrupt _ _ _ hm =>
    exact ⟨hm.shown, hm.matched.stopped, hm.matched.elements, sameResult_undefined _ _⟩
  | exhausted hs => exact ⟨hs.shown, hs.stopped, hs.elements, sameResult_undefined _ _⟩

/-- Whether an embedding program cannot tell apart what two interpreters made of a script. -/
structure SameOutcome (r r' : Except SyntaxError Value × Interpreter) : Prop where
  shown : shown r.2.machine.events = shown r'.2.machine.events
  stopped : r.2.wasStopped = r'.2.wasStopped
  elements : r.2.machine.elements = r'.2.machine.elements
  result :
    match r.1, r'.1 with
    | .ok v, .ok w => SameResult (v, r.2) (w, r'.2)
    | .error e, .error e' => e = e'
    | _, _ => False

theorem showSyntaxError_follows {p : Pairing} (source : String) (e : SyntaxError) :
    (Simulation.ofRenaming secret).Follows [] p .same (Interpreter.showSyntaxError source e)
      (Interpreter.showSyntaxError source e) := by
  unfold Interpreter.showSyntaxError
  refine .config_bind fun _ _ he => ?_
  rw [he.showErrors]
  split
  · exact .modify fun hm => hm.see _
  · exact .pure rfl

theorem Alike.showSyntaxError (h : Alike secret i i') (source : String) (e : SyntaxError) :
    SameOutcome (.error e, i.perform (Interpreter.showSyntaxError source e))
      (.error e, i'.perform (Interpreter.showSyntaxError source e)) := by
  obtain ⟨p, hm⟩ := h.machines
  have hends := (showSyntaxError_follows (p := p) source e).ends _ _ h.agree () _ _ hm
  unfold perform apply
  generalize Interpreter.showSyntaxError source e _ i.machine = o at hends
  generalize Interpreter.showSyntaxError source e _ i'.machine = o' at hends
  cases hends with
  | value _ _ hm => exact ⟨hm.shown, hm.matched.stopped, hm.matched.elements, rfl⟩
  | abrupt _ _ _ hm => exact ⟨hm.shown, hm.matched.stopped, hm.matched.elements, rfl⟩
  | exhausted hs => exact ⟨hs.shown, hs.stopped, hs.elements, rfl⟩

theorem Alike.runScript (h : Alike secret i i') (source : String) :
    SameOutcome (i.runScript source) (i'.runScript source) := by
  unfold Interpreter.runScript
  cases Program.parse source with
  | error e => exact h.showSyntaxError source e
  | ok body =>
    have hrun := h.execute body
    exact ⟨hrun.shown, hrun.stopped, hrun.elements, hrun.result⟩

end Interpreter

end PageScript
