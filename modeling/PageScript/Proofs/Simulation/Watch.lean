import PageScript.Proofs.Simulation.Expressions

/-! # Watching on two sides

Elements, steps of the debugger and reports.  These are the places where the phases of a run change.
-/

set_option autoImplicit false

namespace PageScript.Simulation

open Script

variable {S : Simulation} {α β : Type} {p q : Pairing} {V : Matching α} {W : Matching β}
  {js : List Jump} {b c stop : Phase} {v w : Value} {k : Course}

/-! ## Answers -/

theorem stop_runs {a : Answer} (ha : ∀ m : Machine, m.obey a = { m with stopped := true }) :
    S.Runs (.answered a) ⟨b, .going, js⟩ p V Script.stop Script.stop := by
  refine .bind (V := .same) (.modify (b := .going) fun {g m m'} hm => ?_) fun _ _ _ _ _ => .stopped
  rw [← ha, ← ha]
  exact S.obey hm

theorem quit_runs : S.Runs .going ⟨b, .going, js⟩ p V Script.stop Script.stop :=
  .bind (V := .same) (.modify fun hm => S.quit hm) fun _ _ _ _ _ => .stopped

/-! ## Elements -/

/-- Ends the run at an element, with a remark in the log if there is one. -/
def cancel (remark : Option String) : Script Unit := do
  Script.modify (Machine.answered .cancelled)
  if let some text := remark then Script.log .warn fun _ => text
  Script.log .info fun _ => "host cancelled execution"
  Script.stop

/-- Lets the embedding program answer at an element that has been counted. -/
def heed : Script Unit := do
  match ← Script.ask fun observer m => observer.feedback m.events m.elements with
  | .goOn => return ()
  | .cancel remark => cancel remark

theorem poll_stopped {e : Engine} {m : Machine} (h : m.stopped = true) :
    poll e m = .abrupt .stopped m := by
  show (if m.stopped = true then _ else _ : Script Unit) e m = _
  rw [if_pos h]
  rfl

theorem poll_going {e : Engine} {m : Machine} (h : m.stopped = false) :
    poll e m = heed e m.count := by
  show (if m.stopped = true then _ else _ : Script Unit) e m = _
  rw [if_neg (Bool.eq_false_iff.1 h)]
  rfl

theorem cancel_runs (remark : Option String) :
    S.Runs .polled ⟨b, .going, js⟩ p .same (cancel remark) (cancel remark) := by
  have hend : ∀ q, p ≤ q → S.Runs (.answered .cancelled) ⟨b, .going, js⟩ q .same
      (do
        Script.log .info fun _ => "host cancelled execution"
        Script.stop)
      (do
        Script.log .info fun _ => "host cancelled execution"
        Script.stop : Script Unit) := fun q _ =>
    .bind (V := .same) (.log fun _ => rfl) fun _ _ _ _ _ => stop_runs fun _ => rfl
  refine .bind (V := .same) (.modify fun hm => S.answerPoll .cancelled rfl hm) fun q hq _ _ _ => ?_
  cases remark with
  | none => exact hend q hq
  | some text => exact .bind (V := .same) (.log fun _ => rfl) fun r hr _ _ _ => hend r (hq.trans hr)

theorem heed_runs : S.Runs .polled ⟨.polled, .going, js⟩ p .same heed heed := by
  refine .ask_bind (fun he hm => ?_) fun feedback => ?_
  · rw [he.feedback (S.seen hm), (S.matched hm).elements]
  · cases feedback with
    | goOn => exact .pure rfl
    | cancel remark => exact cancel_runs remark

theorem poll_runs : S.Runs .going ⟨.polled, .going, js⟩ p .same poll poll := by
  refine ⟨fun e e' he g m m' hm => ?_⟩
  have hstopped := (S.matched hm).stopped
  cases hs : m.stopped with
  | true =>
    rw [poll_stopped hs, poll_stopped (hstopped ▸ hs)]
    exact .abrupt (le_refl p) .stopped allows_stopped hm
  | false =>
    rw [poll_going hs, poll_going (hstopped ▸ hs)]
    exact heed_runs.ends e e' he g _ _ (S.count hm hs)

theorem runExpression_follows {e : Expression} (h : S.Sound e.trees) :
    S.Follows js p Value.Matches (runExpression e) (runExpression e) :=
  .bind poll_runs.halt fun _ _ _ _ _ => .start (fun hm => S.goOn hm) (expressionForm_follows h)

/-! ## Steps -/

theorem debug_runs (s : Statement) : S.Runs .polled ⟨.going, .going, js⟩ p .same (debug s) (debug s) := by
  unfold debug
  refine .read_bind (V := .same) (fun hm => (S.matched hm).stepping) ?_
  rintro stepping _ rfl
  split
  · refine .ask_bind (fun he hm => he.onStep (S.seen hm) _) fun action => ?_
    refine .bind (.emit _ rfl) fun _ _ _ _ _ => ?_
    refine .bind (V := .same) (.modify fun hm => S.answerPoll (.toStep action) rfl hm)
      fun _ _ _ _ _ => ?_
    cases action with
    | step => exact .start (fun hm => S.obey hm) (.pure rfl)
    | goOn => exact .modify fun hm => S.obey hm
    | abort => exact stop_runs fun _ => rfl
  · exact .start (fun hm => S.goOn hm) (.pure rfl)

/-! ## Reports -/

theorem describe_runs (h : Value.Matches p v w) :
    S.Runs .going ⟨.halting, stop, js⟩ p .same (describe v) (describe w) := by
  have hplain : S.Runs .going ⟨.halting, stop, js⟩ p .same
      (do return (ErrorKind.general, "uncaught exception: " ++ (← display v)))
      (do return (ErrorKind.general, "uncaught exception: " ++ (← display w))) := by
    refine .bind (display_runs h) ?_
    rintro _ _ text _ rfl
    exact .pure rfl
  unfold describe
  refine .read_bind (V := .same) (fun hm => ?_) ?_
  · refine Matching.option_same (p := p) (Matching.option_map (V := Object.Matches) ?_ fun _ _ ho =>
      ho.payload)
    exact Matching.option_bind h.id? fun _ _ hi => (S.matched hm).heap.get? hi
  · rintro payload _ rfl
    split
    · rename_i kind
      have hmessage : S.Follows [] p Value.Matches (readMember v "message")
          (readMember w "message") := readMember_follows h "message"
      refine .attempt_bind hmessage (fun q _ u u' hu => ?_) fun q _ i i' hi _ => ?_
      · refine .bind (display_runs hu) ?_
        rintro _ _ text _ rfl
        exact .pure rfl
      · cases hi with
        | stopped => exact .pure rfl
        | _ => exact .start (fun hm => S.halt hm) (.pure rfl)
    · exact hplain

theorem noteUncaught_runs (h : Value.Matches p v w) :
    S.Runs .going ⟨.halting, stop, js⟩ p .same (noteUncaught v) (noteUncaught w) := by
  refine .bind (describe_runs h) ?_
  rintro q _ entry _ rfl
  exact .modify fun hm => S.uncaught entry hm

/-- What is done with an answer to a report. -/
def followUp (action : ErrorAction) : Script Value := do
  match action with
  | .debug =>
    Script.modify fun m => { m with stepping := true, stopped := false }
    return .undefined
  | .abort => Script.stop

/-- Shows an error that is no longer waiting, and does what the answer asks for. -/
def announce (r : ErrorReport) : Script Value := do
  let action ← Script.ask fun observer m => observer.onError m.events r
  Script.modify (Machine.reported r action)
  followUp action

/-- Ends the run in place of showing an error. -/
def passOver (kind : ErrorKind) (message : String) : Script Value := do
  Script.log .debug fun _ => "suppressed " ++ kind.name ++ ": " ++ message
  Script.stop

/-- Deals with an error that is no longer waiting. -/
def showOrPass (s : Statement) (kind : ErrorKind) (message : String) : Script Value := do
  if (← Script.config).showErrors then announce ⟨kind, message, s.line, s.text⟩
  else passOver kind message

theorem showPending_none {e : Engine} {m : Machine} (s : Statement) (h : m.pending = none) :
    showPending s e m = Script.stop e m := by
  unfold showPending
  rw [bind_read, h]

theorem showPending_some {e : Engine} {m : Machine} (s : Statement) {kind : ErrorKind}
    {message : String} (h : m.pending = some (kind, message)) :
    showPending s e m = showOrPass s kind message e { m with pending := none } := by
  unfold showPending
  rw [bind_read, h]
  show (if e.config.showErrors = true then _ else _ : Script Value) e _
    = (if e.config.showErrors = true then _ else _ : Script Value) e _
  split <;> rfl

theorem followUp_runs (action : ErrorAction) :
    S.Runs (.answered (.toError action)) ⟨.going, .going, js⟩ p Value.Matches (followUp action)
      (followUp action) := by
  cases action with
  | debug =>
    exact .bind (V := .same) (.modify fun hm => S.obey hm) fun _ _ _ _ _ => .pure .undefined
  | abort => exact stop_runs fun _ => rfl

theorem announce_runs (hshows : S.shows true) {g : S.Ghost} {s : Statement} (hs : S.inside g s)
    (kind : ErrorKind) (message : String) :
    S.RunsAt g (.showing kind message) ⟨.going, .going, js⟩ p Value.Matches
      (announce ⟨kind, message, s.line, s.text⟩) (announce ⟨kind, message, s.line, s.text⟩) := by
  refine .ask_bind (fun he hm => he.onError (S.seen hm) _) fun action => ?_
  refine .bind (V := .same) (.modify fun hm => S.report action hshows hs hm) fun _ _ _ _ _ => ?_
  exact (followUp_runs action).within g

theorem passOver_runs (hshows : S.shows false) (kind : ErrorKind) (message : String) :
    S.Runs (.showing kind message) ⟨.going, .going, js⟩ p Value.Matches (passOver kind message)
      (passOver kind message) := by
  refine .bind (V := .same) (.log fun _ => rfl) fun _ _ _ _ _ => ?_
  exact .bind (V := .same) (.modify fun hm => S.suppress hshows hm) fun _ _ _ _ _ => .stopped

theorem showOrPass_runs {g : S.Ghost} {s : Statement} (hs : S.inside g s) (kind : ErrorKind)
    (message : String) :
    S.RunsAt g (.showing kind message) ⟨.going, .going, js⟩ p Value.Matches (showOrPass s kind message)
      (showOrPass s kind message) := by
  refine ⟨fun e e' he m m' hm => ?_⟩
  have hshows := he.shows
  show S.Ends _ g p _
    ((if e.config.showErrors = true then announce _ else passOver _ _ : Script Value) e m)
    ((if e'.config.showErrors = true then announce _ else passOver _ _ : Script Value) e' m')
  rw [← he.showErrors]
  split
  · rename_i h
    rw [h] at hshows
    exact (announce_runs hshows hs kind message).ends e e' he m m' hm
  · rename_i h
    rw [Bool.not_eq_true] at h
    rw [h] at hshows
    exact (passOver_runs hshows kind message).ends e e' he g m m' hm

theorem showPending_runs {g : S.Ghost} {s : Statement} (hs : S.inside g s) :
    S.RunsAt g .halting ⟨.going, .going, js⟩ p Value.Matches (showPending s) (showPending s) := by
  refine ⟨fun e e' he m m' hm => ?_⟩
  have hpending := (S.matched hm).pending
  cases h : m.pending with
  | none =>
    rw [showPending_none s h, showPending_none s (hpending ▸ h)]
    exact quit_runs.ends e e' he g m m' (S.settle hm h)
  | some entry =>
    -- Both sides take the error off before they ask whether it is to be shown.
    obtain ⟨kind, message⟩ := entry
    rw [showPending_some s h, showPending_some s (hpending ▸ h)]
    exact (showOrPass_runs hs kind message).ends e e' he _ _ (S.reveal hm h)

end PageScript.Simulation
