import PageScript.Evaluation.Loops
import PageScript.Evaluation.Watch

/-! # Statements

Each statement runs as an element of the run.  An error or exception that no `try` handles is shown at
the innermost statement.
-/

set_option autoImplicit false

namespace PageScript.Script

/-! ## Exceptions -/

/-- Runs statements inside `try`. -/
def runGuarded (body : List Statement) : Script Value := do
  modify fun m => { m with tryDepth := m.tryDepth + 1 }
  afterwards (runStatements body) fun m => { m with tryDepth := m.tryDepth - 1 }

/-- Stores an exception in the variable of its handler, which becomes permanent, and runs the
handler. -/
def runHandler (parameter : String) (handler : List Statement) (v : Value) : Script Value := do
  let locals ← read (·.frame.locals)
  declare locals parameter
  let _ ← writeVariable ⟨locals, parameter⟩ v
  modifyObject locals (·.update parameter fun x => { x with permanent := true })
  runStatements handler

/-- Runs statements, and a handler on an exception of theirs. -/
def runCatching (body : List Statement) (parameter : String) (handler : List Statement) :
    Script Value := do
  match ← attempt (runGuarded body) with
  | .abrupt (.thrown v) => runHandler parameter handler v
  | c => complete c

/-- Does something and then runs the final statements, unless the run was stopped.  If those complete
abruptly, that is the completion. -/
def runFinally (x : Script Value) (final : List Statement) : Script Value := do
  match ← attempt x with
  | .abrupt .stopped => abrupt .stopped
  | c =>
    let _ ← runStatements final
    complete c

/-! ## Switches -/

/-- The clauses from the first one on whose test comes to a value. -/
def matchingClauses (v : Value) : List SwitchClause → Script (Option (List SwitchClause))
  | [] => return none
  | .mk none _ :: rest => matchingClauses v rest
  | .mk (some test) body :: rest => do
    if v.strictEquals (← evaluate test) then return some (.mk (some test) body :: rest)
    matchingClauses v rest

/-- The clauses from the default clause on. -/
def defaultClauses : List SwitchClause → List SwitchClause
  | [] => []
  | .mk none body :: rest => .mk none body :: rest
  | .mk (some _) _ :: rest => defaultClauses rest

/-- The statements of a list of clauses. -/
def clauseStatements : List SwitchClause → List Statement
  | [] => []
  | .mk _ body :: rest => body ++ clauseStatements rest

/-- Runs statements up to a `break` that is for a statement behind some labels. -/
def runUntilBreak (labels : List String) (body : List Statement) : Script Value :=
  foldUntil (fun last s => do
    match ← attempt (runInner s) with
    | .normal v => return .inl (if s.yieldsValue then v else last)
    | .abrupt (.broken l) =>
      if targets labels l then return .inr last else abrupt (.broken l)
    | .abrupt c => abrupt c) body .undefined

/-- Runs a `switch` statement. -/
def runSwitch (value : Expression) (clauses : List SwitchClause) (labels : List String) :
    Script Value := do
  let v ← evaluate value
  let chosen := (← matchingClauses v clauses).getD (defaultClauses clauses)
  runUntilBreak labels (clauseStatements chosen)

/-! ## Other statements -/

/-- Runs a statement behind one more label, and takes up a `break` to any of its labels. -/
def runLabeled (label : String) (body : Statement) (labels : List String) : Script Value := do
  let labels := label :: labels
  match ← attempt (perform (.statement body labels)) with
  | .abrupt (.broken (some l)) =>
    if labels.contains l then return .undefined else abrupt (.broken (some l))
  | c => complete c

/-- Runs a statement with the members of an object in front of the scope. -/
def runWith (object : Expression) (body : Statement) : Script Value := do
  let id ← toObject (← evaluate object)
  modify fun m => { m with frame := { m.frame with withs := ⟨id, false⟩ :: m.frame.withs } }
  afterwards (runInner body) fun m =>
    { m with frame := { m.frame with withs := m.frame.withs.tail } }

/-- Runs a statement by its form. -/
def statementForm (form : StatementForm) (labels : List String) : Script Value := do
  match form with
  | .empty | .function _ => return .undefined
  | .expression e => evaluate e
  | .block body => runStatements body
  | .declare declarators =>
    declareVariables declarators
    return .undefined
  | .ifThen test yes =>
    if (← evaluate test).isTruthy then runInner yes else return .undefined
  | .ifElse test yes no => if (← evaluate test).isTruthy then runInner yes else runInner no
  | .whileLoop test body => runWhile test body labels
  | .doLoop body test => runDo body test labels
  | .forLoop start test update body => runFor start test update body labels
  | .forVariable d object body => runForVariable d object body labels
  | .forTarget target object body => runForTarget target object body labels
  | .returnValue none => abrupt (.returned .undefined)
  | .returnValue (some e) => abrupt (.returned (← evaluate e))
  | .breakTo label => abrupt (.broken label)
  | .continueTo label => abrupt (.continued label)
  | .throw e => abrupt (.thrown (← evaluate e))
  | .tryCatch body parameter handler => runCatching body parameter handler
  | .tryFinally body final => runFinally (runGuarded body) final
  | .tryCatchFinally body parameter handler final =>
    runFinally (runCatching body parameter handler) final
  | .switch value clauses => runSwitch value clauses labels
  | .labeled label body => runLabeled label body labels
  | .withObject object body => runWith object body

/-- Runs a statement as the next element of the run, and shows what no `try` handles. -/
def runElement (s : Statement) (labels : List String) : Script Value := do
  poll
  debug s
  match ← attempt (statementForm s.form labels) with
  | .normal v => return v
  | .abrupt (.thrown v) =>
    if (← read Machine.tryDepth) == 0 then
      noteUncaught v
      showPending s
    else abrupt (.thrown v)
  | .abrupt .stopped =>
    if (← read Machine.pending).isSome then showPending s else abrupt .stopped
  | .abrupt c => abrupt c

/-- Runs a statement. -/
def runStatement (s : Statement) (labels : List String) : Script Value := do
  modify (Machine.enter s)
  afterwards (runElement s labels) Machine.leave

end PageScript.Script
