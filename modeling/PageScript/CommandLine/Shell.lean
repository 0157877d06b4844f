import PageScript.CommandLine.Options
import PageScript.Embedding.Interpreter
import PageScript.Embedding.Stock

/-! # The command line program

It runs a script given as an argument, or a file, or else the lines that are typed in, each one as a
script of its own.  What the script prints goes to the standard output and the log to the standard
error.
-/

set_option autoImplicit false

namespace PageScript.CommandLine

/-! ## Output -/

/-- A text for the standard output or for the standard error. -/
inductive Output where
  | out (text : String)
  | err (text : String)

/-- A line of the log. -/
def logLine (level : LogLevel) (text : String) : Output :=
  .err ("[" ++ level.name ++ "] " ++ text ++ "\n")

/-- How an error is shown. -/
def reportText (r : ErrorReport) : String :=
  r.kind.name ++ ": " ++ r.message ++ " (line " ++ toString r.line ++ "): " ++ r.source

/-- What is written for an event, at a level of the log. -/
def Event.outputs (verbosity : LogLevel) : Event → List Output
  | .printed text => [.out (text ++ "\n")]
  | .reported r =>
    if LogLevel.warn.rank ≤ verbosity.rank then [logLine .warn (reportText r)] else []
  | .stepped _ => []
  | .logged level text => [logLine level text]

/-- What is written for the events that have not been written yet. -/
def drain (i : Interpreter) : List Output × Interpreter :=
  (i.machine.events.reverse.flatMap (Event.outputs i.config.verbosity),
    { i with machine := { i.machine with events := [] } })

/-! ## Runs -/

/-- Why a script has no value. -/
inductive Failure where
  | badSource (e : SyntaxError)
  | aborted
  | unreadable (path reason : String)

/-- The message of a failure. -/
def Failure.message : Failure → String
  | .badSource e => e.display
  | .aborted => "execution aborted"
  | .unreadable path reason => path ++ ": " ++ reason

/-- Makes an interpreter that can print. -/
def newInterpreter (o : Options) (epoch : Int) (seed : UInt64) : Interpreter :=
  let host := Stock.host (Host.withTimeout o.timeout)
  let i := Interpreter.new (o.config epoch seed) host
  let (_, i) := i.register Intrinsic.globalObject "print" 1 "print"
  (i.register Intrinsic.globalObject "alert" 1 "print").2

/-- Runs a script. -/
def runCode (code : String) (i : Interpreter) : Except Failure Value × Interpreter :=
  match i.runScript code with
  | (.error e, i) => (.error (.badSource e), i)
  | (.ok v, i) => (if i.wasStopped then .error .aborted else .ok v, i)

/-- What a whole run of the program writes, and its exit code. -/
structure Result where
  outputs : List Output
  exitCode : Nat

/-- The line that shows a failure. -/
def failureLine (f : Failure) : Output := .err (f.message ++ "\n")

/-- Runs one script and ends. -/
def runOnce (code : Except Failure String) (i : Interpreter) : Result :=
  let (result, i) : Except Failure Value × Interpreter :=
    match code with
    | .error f => (.error f, i)
    | .ok code => runCode code i
  let (outputs, _) := drain i
  match result with
  | .ok _ => ⟨outputs, 0⟩
  | .error f => ⟨outputs ++ [failureLine f], 1⟩

/-! ## Typed lines -/

/-- The name and the number of the program's version. -/
def programName : String := "awebjs"

/-- The program's version. -/
def programVersion : String := "0.1.0"

/-- What is written before the first line is read. -/
def greeting : List Output :=
  [.out (programName ++ " v" ++ programVersion ++ "\n"),
    .out "Type JavaScript statements. Press Ctrl-D to exit.\n"]

/-- What is written before a line is read. -/
def prompt : Output := .out "> "

/-- What is written when no more lines come. -/
def farewell : Output := .out "\n"

/-- Shows a value, unless it is undefined. -/
def showValue (v : Value) (i : Interpreter) : List Output × Interpreter :=
  if v.isUndefined then ([], i)
  else
    let (text, i) := i.display v
    let (outputs, i) := drain i
    (outputs ++ [.out (text ++ "\n")], i)

/-- Runs a line as a script of its own; a blank one is passed over. -/
def runLine (line : String) (i : Interpreter) : List Output × Interpreter :=
  let code := Text.trimWhiteSpace line.toList
  if code.isEmpty then ([], i)
  else
    let (result, i) := runCode (String.ofList code) i
    let (outputs, i) := drain i
    match result with
    | .ok v =>
      let (shown, i) := showValue v i
      (outputs ++ shown, i)
    | .error f => (outputs ++ [failureLine f], i)

/-- Runs lines one after another. -/
def runLines (lines : List String) (i : Interpreter) : List Output :=
  match lines with
  | [] => [farewell]
  | line :: rest =>
    let (outputs, i) := runLine line i
    outputs ++ prompt :: runLines rest i

/-! ## The program -/

/-- What is written on a request for help. -/
def helpText : String :=
  "Runs browser-dialect JavaScript\n\n"
    ++ "Usage: " ++ programName ++ " [OPTIONS] [FILE]\n\n"
    ++ "Arguments:\n"
    ++ "  [FILE]  JavaScript file to execute\n\n"
    ++ "Options:\n"
    ++ "  -e, --eval <EVAL>              Evaluate inline JavaScript\n"
    ++ "      --max-depth <MAX_DEPTH>    Nested calls allowed before \"Stack overflow\" [default: 128]\n"
    ++ "      --timeout-ms <TIMEOUT_MS>  Stop scripts that run longer than this many milliseconds\n"
    ++ "      --gmt-offset <GMT_OFFSET>  Local zone offset east of GMT in minutes (defaults to the "
    ++ "system zone)\n"
    ++ "      --quiet-errors             Abort silently on runtime errors instead of reporting them\n"
    ++ "  -v, --log-level <LOG_LEVEL>    Diagnostics written to stderr [default: warn] [possible "
    ++ "values: off, error, warn, info, debug, trace]\n"
    ++ "  -h, --help                     Print help\n"
    ++ "  -V, --version                  Print version\n"

/-- What the program is to do, with the interpreter for it. -/
inductive Plan where
  | finished (result : Result)
  | script (code : String) (i : Interpreter)
  | file (path : String) (i : Interpreter)
  | typed (i : Interpreter)

/-- What the program is to do for its arguments. -/
def plan (args : List String) (epoch : Int) (seed : UInt64) : Plan :=
  match requestOf {} args with
  | .version => .finished ⟨[.out (programName ++ " " ++ programVersion ++ "\n")], 0⟩
  | .help => .finished ⟨[.out helpText], 0⟩
  | .invalid message => .finished ⟨[.err ("error: " ++ message ++ "\n")], 2⟩
  | .run o =>
    let i := newInterpreter o epoch seed
    match o.code, o.file with
    | some code, _ => .script code i
    | none, some path => .file path i
    | none, none => .typed i

/-- Runs the program on arguments, the files it can read, and its whole input. -/
def run (args : List String) (readFile : String → Except String String) (input : String)
    (epoch : Int) (seed : UInt64) : Result :=
  match plan args epoch seed with
  | .finished result => result
  | .script code i => runOnce (.ok code) i
  | .file path i => runOnce ((readFile path).mapError (Failure.unreadable path)) i
  | .typed i =>
    let (outputs, i) := drain i
    let lines := (Text.lines input.toList).map String.ofList
    ⟨outputs ++ greeting ++ prompt :: runLines lines i, 0⟩

end PageScript.CommandLine
