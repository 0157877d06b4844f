import PageScript.Embedding.Interpreter
import PageScript.Proofs.Regular.Evaluation
import PageScript.Proofs.Simulation.Watch

/-! # Elements and programs as composed computations

The start and the end of an element are sequences of primitives: there a run may be cancelled, a step shown to
the debugger, and an error shown that no `try` handles.  What holds of such sequences is found once for every
property that the primitives have.
-/

set_option autoImplicit false

namespace PageScript

open Script

/-! ## Sequences of primitives -/

/-- A property of the primitives and of what is composed of them by sequence, where the machine is only changed
to later ones that are as deep inside `try`. -/
structure Script.Sequential (P : (α : Type) → Script α → Prop) : Prop where
  pure : ∀ {α : Type} (a : α), P α (pure a)
  bind : ∀ {α β : Type} {x : Script α} {f : α → Script β}, P α x → (∀ a, P β (f a)) → P β (x >>= f)
  read : ∀ {α : Type} (view : Machine → α), P α (Script.read view)
  modify : ∀ {g : Machine → Machine}, (∀ m : Machine, m.After (g m)) →
    (∀ m : Machine, (g m).tryDepth = m.tryDepth) → P Unit (Script.modify g)
  ask : ∀ {α : Type} (view : Observer → Machine → α),
    (∀ o o' m, o'.onError = o.onError → o'.onStep = o.onStep → view o' m = view o m) →
    P α (Script.ask view)
  config : P Config Script.config
  log : ∀ (level : LogLevel) (text : Machine → String), P Unit (Script.log level text)
  stop : ∀ {α : Type}, P α Script.stop

namespace Script.Sequential

variable {P : (α : Type) → Script α → Prop} (h : Sequential P)
include h

theorem emit (event : Event) : P Unit (Script.emit event) := h.modify (.see · event) fun _ => rfl

theorem answered (a : Answer) : P Unit (Script.modify (Machine.answered a)) := h.modify (.answered · a) fun _ => rfl

theorem cancel (remark : Option String) : P Unit (Simulation.cancel remark) := by
  refine h.bind (h.answered .cancelled) fun _ => ?_
  cases remark with
  | none => exact h.bind (h.log _ _) fun _ => h.stop
  | some text => exact h.bind (h.log _ _) fun _ => h.bind (h.log _ _) fun _ => h.stop

theorem debug (s : Statement) : P Unit (Script.debug s) := by
  refine h.bind (h.read _) fun stepping => ?_
  split
  · refine h.bind (h.ask _ fun o o' m _ hstep => ?_) fun action => ?_
    · rw [hstep]
    · refine h.bind (h.emit _) fun _ => h.bind (h.answered _) fun _ => ?_
      cases action with
      | step => exact h.pure _
      | goOn => exact h.modify (fun _ => .abreast ⟨rfl, rfl, rfl⟩) fun _ => rfl
      | abort => exact h.stop
  · exact h.pure _

theorem showPending (s : Statement) : P Value (Script.showPending s) := by
  have obey (action : ErrorAction) : P Value (Simulation.followUp action) := by
    cases action with
    | debug => exact h.bind (h.modify (fun _ => .abreast ⟨rfl, rfl, rfl⟩) fun _ => rfl) fun _ => h.pure _
    | abort => exact h.stop
  refine h.bind (h.read _) fun pending => ?_
  cases pending with
  | none => exact h.stop
  | some entry =>
    refine h.bind (h.modify (fun _ => .abreast ⟨rfl, rfl, rfl⟩) fun _ => rfl) fun _ =>
      h.bind h.config fun config => ?_
    dsimp only
    split
    · refine h.bind (h.ask _ fun o o' m herror _ => ?_) fun action => ?_
      · rw [herror]
      · exact h.bind (h.emit _) fun _ => h.bind (h.answered _) fun _ => h.bind (h.pure _) obey
    · exact h.bind (h.log _ _) fun _ => h.bind (h.pure _) obey

end Script.Sequential

namespace Composed

theorem sequential : Script.Sequential Composed where
  pure := .pure
  bind := .bind
  read := .read
  modify hafter _ := .modify hafter
  ask := .ask
  config := .config
  log := .log
  stop := .stop

/-! ## Errors outside `try` -/

theorem noteUncaught (v : Value) : Composed Unit (Script.noteUncaught v) := by
  refine .bind (Regular.describe v).composed fun entry => .modify fun m => ?_
  split
  · exact .note m _
  · exact .refl m

theorem showPending (s : Statement) : Composed Value (Script.showPending s) := sequential.showPending s

/-! ## Elements -/

/-- What a statement does from the start of its element on. -/
def runCounted (s : Statement) (labels : List String) : Script Value := do
  Script.debug s
  match ← Script.attempt (Script.statementForm s.form labels) with
  | .normal v => return v
  | .abrupt (.thrown v) =>
    if (← Script.read Machine.tryDepth) == 0 then
      Script.noteUncaught v
      Script.showPending s
    else Script.abrupt (.thrown v)
  | .abrupt .stopped =>
    if (← Script.read Machine.pending).isSome then Script.showPending s else Script.abrupt .stopped
  | .abrupt c => Script.abrupt c

theorem counted (s : Statement) (labels : List String) : Composed Value (runCounted s labels) := by
  refine .bind (sequential.debug s) fun _ => .bind (.attempt (Regular.statementForm _ _).composed) fun c => ?_
  split
  · exact .pure _
  · refine .bind (.read _) fun depth => ?_
    split
    · exact .bind (noteUncaught _) fun _ => showPending _
    · exact .abrupt _
  · refine .bind (.read _) fun pending => ?_
    split
    · exact showPending _
    · exact .abrupt _
  · exact .abrupt _

/-! ## Programs -/

theorem collectGarbage : Composed Heap.Census Script.collectGarbage :=
  .bind (.act (fun m => m.collect.1) (fun m => m.collect.2) fun m => .heap m _) fun _ =>
    .bind (.log _ _) fun _ => .pure _

theorem collectIfDue : Composed Unit Script.collectIfDue := by
  refine .bind .config fun config => .bind (.read _) fun due => ?_
  split
  · exact .bind collectGarbage fun _ => .pure _
  · exact .pure _

theorem runTopLevel (last : Value) (s : Statement) :
    Composed (Sum Value Value) (Script.runTopLevel last s) := by
  refine .bind (.attempt (.perform _)) fun c => ?_
  split
  · exact .pure _
  · refine .bind (.read _) fun stopped => ?_
    split
    · exact .pure _
    · exact .bind (.modify fun _ => .abreast ⟨rfl, rfl, rfl⟩) fun _ =>
        .bind collectIfDue fun _ => .pure _

/-- What a program does once the machine is at the start of a run. -/
def runStarted (body : List Statement) : Script Value := do
  Script.log .debug fun _ => "executing " ++ toString body.length ++ " top-level statements"
  Script.hoist body Intrinsic.globalObject
  let v ← Script.foldUntil Script.runTopLevel body .undefined
  Script.modify fun m => { m with frame := Frame.outermost Intrinsic.globalObject [] }
  Script.log .debug fun m =>
    "execution finished after " ++ toString m.elements ++ " elements"
      ++ if m.stopped then " (stopped)" else ""
  Script.modify fun m => { m with result := v }
  return v

theorem started (body : List Statement) : Composed Value (runStarted body) :=
  .bind (.log _ _) fun _ => .bind (Regular.hoist _ _).composed fun _ => .bind (.foldUntil runTopLevel _ _) fun _ =>
    .bind (.modify fun _ => .abreast ⟨rfl, rfl, rfl⟩) fun _ => .bind (.log _ _) fun _ =>
      .bind (.modify fun _ => .abreast ⟨rfl, rfl, rfl⟩) fun _ => .pure _

end Composed

end PageScript
