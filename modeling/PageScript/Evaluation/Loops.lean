import PageScript.Evaluation.Calls

/-! # Loops

A loop takes up `break` and `continue` that name no label or one of its own.  Its value is that of the
last body that ended normally.
-/

set_option autoImplicit false

namespace PageScript

/-- What a loop does after its body. -/
inductive Flow where
  | next (value : Option Value)
  | exit
  | pass (c : Abrupt)

/-- Whether `break` or `continue` to a label is for a statement behind some labels. -/
def targets (labels : List String) (label : Option String) : Bool :=
  match label with
  | none => true
  | some l => labels.contains l

/-- What a loop behind some labels does after its body has ended. -/
def Completion.flow (labels : List String) : Completion → Flow
  | .normal v => .next (some v)
  | .abrupt (.continued l) => if targets labels l then .next none else .pass (.continued l)
  | .abrupt (.broken l) => if targets labels l then .exit else .pass (.broken l)
  | .abrupt c => .pass c

namespace Script

/-- Runs a statement without labels. -/
@[inline] def runInner (s : Statement) : Script Value := perform (.statement s [])

/-- Whether the test of a loop holds; a missing test does. -/
def testHolds (test : Option Expression) : Script Bool := do
  match test with
  | none => return true
  | some e => return (← evaluate e).isTruthy

/-- Runs the body of a loop whose last value is given, and then `more`, which says whether there is
another round. -/
def runBody (labels : List String) (body : Statement) (last : Value) (more : Script Bool) :
    Script (Sum Value Value) := do
  match (← attempt (runInner body)).flow labels with
  | .next v =>
    let last := v.getD last
    return if ← more then .inl last else .inr last
  | .exit => return .inr last
  | .pass c => abrupt c

/-- Declares variables one after another, each with its initial value. -/
def declareVariables (declarators : List Declarator) : Script Unit := do
  let locals ← read (·.frame.locals)
  fold (fun _ d => do
    match d with
    | .mk name initial =>
      declare locals name
      if let some e := initial then
        let _ ← writeVariable ⟨locals, name⟩ (← evaluate e)) declarators ()

/-- Runs a `while` loop. -/
def runWhile (test : Expression) (body : Statement) (labels : List String) : Script Value :=
  iterate (fun last => do
    if ← testHolds (some test) then runBody labels body last (return true)
    else return .inr last) Value.undefined

/-- Runs a `do` loop. -/
def runDo (body : Statement) (test : Expression) (labels : List String) : Script Value :=
  iterate (fun last => runBody labels body last (testHolds (some test))) Value.undefined

/-- Does what a `for` statement does first. -/
def runForStart (start : ForStart) : Script Unit := do
  match start with
  | .nothing => return ()
  | .declare declarators => declareVariables declarators
  | .expression e => let _ ← evaluate e

/-- Does what a `for` statement does between two rounds. -/
def runForUpdate (update : Option Expression) : Script Bool := do
  if let some e := update then let _ ← evaluate e
  return true

/-- Runs a `for` loop. -/
def runFor (start : ForStart) (test update : Option Expression) (body : Statement)
    (labels : List String) : Script Value := do
  runForStart start
  iterate (fun last => do
    if ← testHolds test then runBody labels body last (runForUpdate update)
    else return .inr last) Value.undefined

/-- Runs a body for each name that an object shows.  The names are collected first, and those that are
gone when their turn comes are passed over. -/
def runForIn (object : Expression) (store : Value → Script Unit) (body : Statement)
    (labels : List String) : Script Value := do
  let subject ← evaluate object
  if subject.isNothing then return .undefined
  let id ← toObject subject
  let names ← read (·.heap.enumerable id)
  foldUntil (fun last name => do
    if ← read (·.heap.hasProperty id name) then
      store (.string name)
      runBody labels body last (return true)
    else return .inl last) names .undefined

/-- Runs a `for` loop over the names of an object that declares its variable. -/
def runForVariable (d : Declarator) (object : Expression) (body : Statement)
    (labels : List String) : Script Value := do
  declareVariables [d]
  runForIn object (fun name => do
    let locals ← read (·.frame.locals)
    let _ ← writeVariable ⟨locals, d.name⟩ name) body labels

/-- Runs a `for` loop over the names of an object that assigns to a target. -/
def runForTarget (target object : Expression) (body : Statement) (labels : List String) :
    Script Value :=
  runForIn object (fun name => do
    let _ ← writeTarget (← findTarget target) name) body labels

end Script

end PageScript
