import PageScript.Machine.Errors
import PageScript.Conversion
import PageScript.Source.Printer

/-! # Watching a run

Every element of a run is counted, and the embedding program may cancel the run there.  An error that
no `try` handles is shown at the innermost statement; the answer either ends the run or goes on behind
that statement, one statement at a time from then on.
-/

set_option autoImplicit false

namespace PageScript

/-- Goes into a statement. -/
def Machine.enter (s : Statement) (m : Machine) : Machine := { m with running := s :: m.running }

/-- Comes out of the innermost statement. -/
def Machine.leave (m : Machine) : Machine := { m with running := m.running.tail }

/-- Counts an element. -/
def Machine.count (m : Machine) : Machine :=
  { m with elements := m.elements + 1, ticks := m.ticks + 1 }

/-- Keeps an answer of the embedding program. -/
def Machine.answered (a : Answer) (m : Machine) : Machine :=
  { m with answers := ⟨a, m.elements⟩ :: m.answers }

namespace Script

/-! ## Elements -/

/-- Ends the run. -/
def stop {α : Type} : Script α := do
  modify fun m => { m with stopped := true }
  abrupt .stopped

/-- Goes on with the next element of a run, unless the run has ended or is cancelled here. -/
def poll : Script Unit := do
  if ← read Machine.stopped then abrupt .stopped
  modify Machine.count
  match ← ask fun observer m => observer.feedback m.events m.elements with
  | .goOn => return ()
  | .cancel remark =>
    modify (Machine.answered .cancelled)
    if let some text := remark then log .warn fun _ => text
    log .info fun _ => "host cancelled execution"
    stop

/-- Lets the debugger see a statement before it runs, when single-stepping. -/
def debug (s : Statement) : Script Unit := do
  if ← read Machine.stepping then
    let event : DebugEvent := ⟨s.line, s.text⟩
    let action ← ask fun observer m => observer.onStep m.events event
    emit (.stepped event)
    modify (Machine.answered (.toStep action))
    match action with
    | .step => return ()
    | .goOn => modify fun m => { m with stepping := false }
    | .abort => stop

/-! ## Errors outside `try` -/

/-- The kind and the message under which an exception is shown. -/
def describe (v : Value) : Script (ErrorKind × String) := do
  match ← read fun m => (v.id?.bind m.heap.get?).map Object.payload with
  | some (.error kind) =>
    match ← attempt (readMember v "message") with
    | .normal message => return (kind, ← display message)
    | .abrupt _ => return (kind, "")
  | _ => return (.general, "uncaught exception: " ++ (← display v))

/-- Notes an exception that no `try` handles, unless an error is waiting to be shown already. -/
def noteUncaught (v : Value) : Script Unit := do
  let entry ← describe v
  modify fun m => if m.pending.isNone then m.note entry else m

/-- Shows the error that is waiting to be shown, at a statement. -/
def showPending (s : Statement) : Script Value := do
  match ← read Machine.pending with
  | none => stop
  | some (kind, message) =>
    modify fun m => { m with pending := none }
    let report : ErrorReport := ⟨kind, message, s.line, s.text⟩
    let action ←
      if (← config).showErrors then
        let action ← ask fun observer m => observer.onError m.events report
        emit (.reported report)
        modify (Machine.answered (.toError action))
        pure action
      else
        log .debug fun _ => "suppressed " ++ kind.name ++ ": " ++ message
        pure .abort
    match action with
    | .debug =>
      modify fun m => { m with stepping := true, stopped := false }
      return .undefined
    | .abort => stop

end Script

end PageScript
