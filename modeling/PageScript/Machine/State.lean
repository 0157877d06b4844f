import PageScript.Heap.Collection

/-! # The state of an interpreter

A machine holds the heap, the stack of activations, and what the current run has come to.  The stack
is never empty: `frame` is the innermost activation and `callers` are the others, inside out.  What the
embedding program gets to see is the list of events.
-/

set_option autoImplicit false

namespace PageScript

/-! ## What the embedding program sees and says -/

/-- How much is written to the log. -/
inductive LogLevel where
  | off | error | warn | info | debug | trace
  deriving DecidableEq, Repr

namespace LogLevel

/-- The levels from silence on. -/
def rank : LogLevel → Nat
  | .off => 0
  | .error => 1
  | .warn => 2
  | .info => 3
  | .debug => 4
  | .trace => 5

/-- The name of a level in front of its messages. -/
def name : LogLevel → String
  | .off => "OFF"
  | .error => "ERROR"
  | .warn => "WARN"
  | .info => "INFO"
  | .debug => "DEBUG"
  | .trace => "TRACE"

end LogLevel

/-- A runtime error as it is shown: the line and the text of the statement that failed. -/
structure ErrorReport where
  kind : ErrorKind
  message : String
  line : Nat
  source : String

/-- A statement that the debugger is about to run. -/
structure DebugEvent where
  line : Nat
  source : String

/-- What to do after an error has been shown. -/
inductive ErrorAction where
  | abort | debug
  deriving DecidableEq, Repr

/-- What to do before a statement when single-stepping. -/
inductive DebugAction where
  | step | goOn | abort
  deriving DecidableEq, Repr

/-- What the embedding program gets to see. -/
inductive Event where
  | printed (text : String)
  | reported (report : ErrorReport)
  | stepped (event : DebugEvent)
  | logged (level : LogLevel) (text : String)

/-- What is answered at an element of a run; a cancellation may leave a remark in the log. -/
inductive Feedback where
  | goOn
  | cancel (remark : Option String)

/-- What the embedding program has answered, apart from going on at an element. -/
inductive Answer where
  | cancelled
  | toError (action : ErrorAction)
  | toStep (action : DebugAction)
  deriving DecidableEq, Repr

/-- An answer, and how many elements had been evaluated by then. -/
structure Answered where
  answer : Answer
  elements : Nat
  deriving DecidableEq, Repr

/-- How the embedding program answers while a script runs.  It may take into account everything it has
seen so far, last event first. -/
structure Observer where
  /-- Whether to go on, at every element; the number is that of the elements in this run. -/
  feedback : List Event → Nat → Feedback
  /-- What to do about an error that has just been shown. -/
  onError : List Event → ErrorReport → ErrorAction
  /-- What to do before a statement when single-stepping. -/
  onStep : List Event → DebugEvent → DebugAction

/-- Settings that stay the same for the life of an interpreter. -/
structure Config where
  /-- Calls that may be nested before a stack overflow. -/
  maxDepth : Nat := 128
  /-- Objects that may be made before an automatic collection. -/
  collectAbove : Nat := 10000
  /-- Whether errors outside `try` are shown. -/
  showErrors : Bool := true
  /-- Minutes that local time is ahead of GMT. -/
  gmtOffset : Int := 0
  /-- The most detailed level that is logged. -/
  verbosity : LogLevel := .off
  /-- The time at which the interpreter is made, in milliseconds since 1970. -/
  epoch : Int := 0
  /-- What the random numbers are made from. -/
  seed : UInt64 := 0x2545F4914F6CDD1D

/-! ## Activations -/

/-- What an activation runs. -/
inductive FrameKind where
  | global | function | eval | native
  deriving DecidableEq, Repr

/-- An object that a `with` statement or the embedding program has put in front of the scope.  One
of the embedding program is seen from every activation. -/
structure WithEntry where
  object : ObjectId
  everywhere : Bool

/-- An activation: the object of its variables, the scope its code was defined in, the objects put in
front of that, innermost first, its `arguments` object, its function and its `this`. -/
structure Frame where
  kind : FrameKind
  locals : ObjectId
  scope : ObjectId
  withs : List WithEntry
  arguments : Option ObjectId
  callee : Option ObjectId
  this : Option ObjectId
  constructing : Bool

/-- The objects that an activation refers to. -/
def Frame.references (f : Frame) : List ObjectId :=
  f.locals :: f.scope :: f.withs.map WithEntry.object
    ++ f.arguments.toList ++ f.callee.toList ++ f.this.toList

/-! ## Objects that every interpreter has -/

namespace Intrinsic

/-- The prototype of all objects. -/
def object : ObjectId := ⟨0⟩

/-- The prototype of functions. -/
def function : ObjectId := ⟨1⟩

/-- The prototype of arrays. -/
def array : ObjectId := ⟨2⟩

/-- The prototype of strings. -/
def string : ObjectId := ⟨3⟩

/-- The prototype of booleans. -/
def boolean : ObjectId := ⟨4⟩

/-- The prototype of numbers. -/
def number : ObjectId := ⟨5⟩

/-- The prototype of dates. -/
def date : ObjectId := ⟨6⟩

/-- The prototype of errors of a kind. -/
def error : ErrorKind → ObjectId
  | .general => ⟨7⟩
  | .eval => ⟨8⟩
  | .range => ⟨9⟩
  | .reference => ⟨10⟩
  | .badSource => ⟨11⟩
  | .type => ⟨12⟩
  | .uri => ⟨13⟩

/-- The global object. -/
def globalObject : ObjectId := ⟨14⟩

/-- The intrinsic prototypes in the order of their slots; the global object follows them. -/
def prototypes : List ObjectId :=
  [object, function, array, string, boolean, number, date, error .general]
    ++ ErrorKind.specific.map error

end Intrinsic

/-- The outermost activation. -/
def Frame.outermost (this : ObjectId) (withs : List WithEntry) : Frame :=
  { kind := .global, locals := Intrinsic.globalObject, scope := Intrinsic.globalObject,
    withs := withs, arguments := none, callee := none, this := some this, constructing := false }

/-! ## Machines -/

/-- An error that no `try` handles, and the innermost statement that was being executed. -/
structure Noted where
  kind : ErrorKind
  message : String
  statement : Option Statement

/-- The state of an interpreter. -/
structure Machine where
  heap : Heap
  frame : Frame
  callers : List Frame
  /-- Calls that are running. -/
  callDepth : Nat
  /-- `try` blocks that are running. -/
  tryDepth : Nat
  /-- The key under which protected variables can be read. -/
  key : Nat
  /-- An error that has been raised and not shown yet. -/
  pending : Option (ErrorKind × String)
  /-- Whether the run has been aborted. -/
  stopped : Bool
  /-- Whether the debugger is asked before each statement. -/
  stepping : Bool
  /-- Elements evaluated in this run. -/
  elements : Nat
  /-- Elements evaluated in all runs. -/
  ticks : Nat
  /-- The value of the last statement. -/
  result : Value
  /-- The state of the random number generator. -/
  random : UInt64
  /-- What has been seen so far, last event first. -/
  events : List Event
  /-- What has been answered in this run, last answer first. -/
  answers : List Answered
  /-- The statements that are being executed, innermost first. -/
  running : List Statement
  /-- The errors outside `try` in this run, last one first. -/
  noted : List Noted

/-- Elements that are evaluated in a millisecond.  Time passes with the elements and not by a clock, so
that a run can be repeated. -/
def elementsPerMillisecond : Nat := 4000

namespace Machine

/-- All activations, inside out. -/
def frames (m : Machine) : List Frame := m.frame :: m.callers

/-- The objects from which a collection starts. -/
def roots (m : Machine) : List ObjectId :=
  Intrinsic.globalObject :: Intrinsic.prototypes ++ m.frames.flatMap Frame.references
    ++ m.result.references

/-- Frees every object that can no longer be reached. -/
def collect (m : Machine) : Heap.Census × Machine :=
  let roots := m.roots
  let (census, heap) := m.heap.collect roots
  (census, { m with heap := heap })

/-- Milliseconds since 1970, if the interpreter was made at the given one. -/
def now (epoch : Int) (m : Machine) : Int := epoch + m.ticks / elementsPerMillisecond

end Machine

end PageScript
