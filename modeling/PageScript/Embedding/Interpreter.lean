import PageScript.Embedding.Host
import PageScript.Embedding.Properties
import PageScript.Evaluation.Expressions
import PageScript.Evaluation.Statements
import PageScript.Library.Dispatch
import PageScript.Library.Realm

/-! # Interpreters

`step` says how a task is performed, and `performUpTo` lets tasks perform further tasks, up to a bound
on how deep they are nested.  An `Interpreter` is a machine with its settings and its host; the
functions on it are what an embedding program calls.
-/

set_option autoImplicit false

namespace PageScript

/-! ## Tasks -/

namespace Script

/-- Performs a task. -/
def step (host : Host) (t : Task) : Script Value :=
  match t with
  | .expression e => runExpression e
  | .statement s labels => runStatement s labels
  | .call f this args constructing =>
    callFunction (applyNative host.native) f this args constructing
  | .readHook behavior owner => host.readHook behavior owner
  | .writeHook behavior owner v => host.writeHook behavior owner v
  | .offer behavior object name => do return .boolean (← host.offer behavior object name)

/-- Performs a task, with further tasks nested up to `limit` deep. -/
def performUpTo (config : Config) (host : Host) : Nat → Task → Machine → Outcome Value
  | 0, _, m => .exhausted m
  | limit + 1, t, m => step host t ⟨config, host.toObserver, performUpTo config host limit, limit⟩ m

end Script

/-- An engine whose tasks may be nested up to `limit` deep. -/
def Engine.upTo (config : Config) (host : Host) (limit : Nat) : Engine :=
  ⟨config, host.toObserver, Script.performUpTo config host limit, limit⟩

/-! ## Runs -/

namespace Script

/-- Takes the machine back to the start of a run. -/
def startRun (this : Option ObjectId) (withs : List ObjectId) : Script Unit := modify fun m =>
  { m with
    frame := Frame.outermost (this.getD Intrinsic.globalObject)
      (withs.reverse.map fun object => ⟨object, true⟩)
    callers := []
    callDepth := 0
    tryDepth := 0
    pending := none
    stopped := false
    stepping := false
    elements := 0
    answers := []
    running := []
    noted := [] }

/-- Frees what can no longer be reached, and says so in the log. -/
def collectGarbage : Script Heap.Census := do
  let census ← fun _ m =>
    let (census, m) := m.collect
    .value census m
  log .debug fun _ =>
    "gc: " ++ toString census.live ++ " live, " ++ toString census.freed ++ " freed"
  return census

/-- Collects garbage between two statements, when enough objects have been made. -/
def collectIfDue : Script Unit := do
  let limit := (← config).collectAbove
  if ← read fun m => m.callers.isEmpty && limit < m.heap.fresh then
    let _ ← collectGarbage

/-- Runs a statement of a program after others; the value is on the right if it was the last one. -/
def runTopLevel (last : Value) (s : Statement) : Script (Sum Value Value) := do
  match ← attempt (runInner s) with
  | .abrupt .stopped => return .inr last
  | c =>
    let last := match c with
      | .normal v => if s.yieldsValue then v else last
      | .abrupt _ => last
    if ← read Machine.stopped then return .inr last
    modify fun m => { m with result := last }
    collectIfDue
    return .inl last

/-- Runs a program.  The objects `withs` are seen in front of the global object, the last one first,
from everywhere in the run.  The value is that of the last statement that yields one. -/
def runProgram (body : List Statement) (this : Option ObjectId) (withs : List ObjectId) :
    Script Value := do
  startRun this withs
  log .debug fun _ => "executing " ++ toString body.length ++ " top-level statements"
  hoist body Intrinsic.globalObject
  let v ← foldUntil runTopLevel body .undefined
  modify fun m => { m with frame := Frame.outermost Intrinsic.globalObject [] }
  log .debug fun m =>
    "execution finished after " ++ toString m.elements ++ " elements"
      ++ if m.stopped then " (stopped)" else ""
  modify fun m => { m with result := v }
  return v

end Script

/-! ## Interpreters -/

/-- An interpreter. -/
structure Interpreter where
  config : Config
  host : Host
  machine : Machine

namespace Interpreter

/-- How deep tasks may be nested.  Calls are bounded by the settings and trees by the parser, so no
run of a script comes near to it; it bounds the rounds of a loop as well. -/
def nestingLimit : Nat := 2 ^ 60

/-- Runs a computation; if it does not end with a value, that is the default. -/
def apply {α : Type} (x : Script α) (default : α) (i : Interpreter) : α × Interpreter :=
  match x (.upTo i.config i.host nestingLimit) i.machine with
  | .value a m => (a, { i with machine := m })
  | .abrupt _ m => (default, { i with machine := m })
  | .exhausted m => (default, { i with machine := m })

/-- Runs a computation for what it does. -/
def perform (x : Script Unit) (i : Interpreter) : Interpreter := (i.apply x ()).2

/-- The machine of a new interpreter. -/
def initialMachine (config : Config) : Machine :=
  { heap := Realm.heap
    frame := Frame.outermost Intrinsic.globalObject []
    callers := []
    callDepth := 0
    tryDepth := 0
    key := 0
    pending := none
    stopped := false
    stepping := false
    elements := 0
    ticks := 0
    result := .undefined
    random := config.seed ||| 1
    events := []
    answers := []
    running := []
    noted := [] }

/-- Makes an interpreter. -/
def new (config : Config) (host : Host) : Interpreter :=
  perform (Script.log .debug fun m =>
      "interpreter ready, " ++ toString m.heap.liveCount ++ " objects")
    ⟨config, host, initialMachine config⟩

/-! ## Scripts -/

/-- Runs a program that has been parsed. -/
def execute (body : List Statement) (this : Option ObjectId) (withs : List ObjectId)
    (i : Interpreter) : Value × Interpreter :=
  i.apply (Script.runProgram body this withs) .undefined

/-- The text of a line of a source without the blanks around it, for an error that names it.  Only line
feeds count here. -/
def sourceLine (source : String) (line : Nat) : String :=
  String.ofList (Text.trimWhiteSpace ((Text.lines source.toList).getD (line - 1) []))

/-- Shows an error in the source of a script. -/
def showSyntaxError (source : String) (e : SyntaxError) : Script Unit := do
  if (← Script.config).showErrors then
    Script.emit (.reported ⟨.badSource, e.message, e.line, sourceLine source e.line⟩)

/-- Parses and runs a script. -/
def runScript (source : String) (i : Interpreter) : Except SyntaxError Value × Interpreter :=
  match Program.parse source with
  | .error e => (.error e, i.perform (showSyntaxError source e))
  | .ok body =>
    let (v, i) := i.execute body none []
    (.ok v, i)

/-- Whether the last run was aborted. -/
def wasStopped (i : Interpreter) : Bool := i.machine.stopped

/-- The value of the last run. -/
def returnValue (i : Interpreter) : Value := i.machine.result

/-! ## Objects -/

/-- The string that stands for a value in a script. -/
def display (v : Value) (i : Interpreter) : String × Interpreter :=
  i.apply (Script.display v) v.text

/-- Makes an object. -/
def newObject (i : Interpreter) : ObjectId × Interpreter :=
  i.apply Script.newObject Intrinsic.globalObject

/-- Makes an array. -/
def newArray (elements : List Value) (i : Interpreter) : ObjectId × Interpreter :=
  i.apply (Script.arrayOf elements) Intrinsic.globalObject

/-- Reads a property; what cannot be read is undefined. -/
def getProperty (object : ObjectId) (name : String) (i : Interpreter) : Value × Interpreter :=
  i.apply (Script.getProperty object name) .undefined

/-- Writes a property. -/
def setProperty (object : ObjectId) (name : String) (v : Value) (i : Interpreter) : Interpreter :=
  i.perform (Script.setProperty object name v)

/-- Defines a function of the host on an object. -/
def register (object : ObjectId) (name : String) (arity : Nat) (behavior : String)
    (i : Interpreter) : ObjectId × Interpreter :=
  let (f, heap) := i.machine.heap.allocNative name arity (.host behavior)
  (f, { i with machine := { i.machine with heap := heap.define object name (.ref f) } })

/-- Lets a hook of the host answer for a variable of an object. -/
def addHook (object : ObjectId) (name behavior : String) (owner : ObjectId) (i : Interpreter) :
    Interpreter :=
  i.perform (Script.addHook object name behavior owner)

/-- Lets a hook of the host see the names of new members of an object, or no hook any more. -/
def setAdditionHook (object : ObjectId) (behavior : Option String) (i : Interpreter) :
    Interpreter :=
  i.perform (Script.modifyObject object fun o =>
    { o with additionHook := behavior.map AdditionHook.host })

/-- Says whether a call of an object reads a member of it. -/
def setCallsAsMember (object : ObjectId) (on : Bool) (i : Interpreter) : Interpreter :=
  i.perform (Script.modifyObject object fun o => { o with callsAsMember := on })

/-- Puts a variable of an object under a key. -/
def protect (object : ObjectId) (name : String) (key : Nat) (i : Interpreter) : Interpreter :=
  i.perform (Script.modifyObject object (·.update name fun v => { v with key := key }))

/-- Sets the key under which variables are read. -/
def setKey (key : Nat) (i : Interpreter) : Interpreter :=
  { i with machine := { i.machine with key := key } }

/-! ## Collection -/

/-- Keeps an object alive, or takes that back once. -/
def keep (object : ObjectId) (on : Bool) (i : Interpreter) : Interpreter :=
  i.perform (Script.modify fun m =>
    { m with heap := if on then m.heap.pin object else m.heap.unpin object })

/-- Whether an object has not been freed. -/
def isLive (object : ObjectId) (i : Interpreter) : Bool := i.machine.heap.isLive object

/-- Frees what can no longer be reached. -/
def collectGarbage (i : Interpreter) : Heap.Census × Interpreter :=
  i.apply Script.collectGarbage ⟨0, 0⟩

end Interpreter

end PageScript
