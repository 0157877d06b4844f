import PageScript.Machine.State
import PageScript.Number.Reading

/-! # Command line options

Options may stand anywhere among the arguments.  A value follows its option as the next argument, after
an equals sign, or, behind a short option, at once.  Two dashes end the options.
-/

set_option autoImplicit false

namespace PageScript.CommandLine

/-- What the command line asks for. -/
structure Options where
  file : Option String := none
  code : Option String := none
  maxDepth : Nat := 128
  /-- Milliseconds that a script may take. -/
  timeout : Option Nat := none
  gmtOffset : Int := 0
  quiet : Bool := false
  verbosity : LogLevel := .warn

/-- A command line as it is understood. -/
inductive Request where
  | run (options : Options)
  | version
  | help
  | invalid (message : String)

/-- The levels of the log by name. -/
def logLevel? : String → Option LogLevel
  | "off" => some .off
  | "error" => some .error
  | "warn" => some .warn
  | "info" => some .info
  | "debug" => some .debug
  | "trace" => some .trace
  | _ => none

/-- The number that decimal digits spell. -/
def digits? (cs : List Char) : Option Nat :=
  if !cs.isEmpty && cs.all Digit.isDecimal then some (Digit.toNat cs) else none

/-- The natural number that a value spells, perhaps behind a plus sign. -/
def natural? (s : String) : Option Nat :=
  match readSign s.toList with
  | (false, cs) => digits? cs
  | (true, _) => none

/-- The integer that a value spells. -/
def integer? (s : String) : Option Int :=
  match readSign s.toList with
  | (negative, cs) => (digits? cs).map fun n => if negative then -n else n

/-- Sets an option that has a value; `none` if the value is not one for it, or there is no such
option. -/
def setOption (name value : String) (o : Options) : Option Options :=
  match name with
  | "eval" => some { o with code := some value }
  | "max-depth" => (natural? value).map fun n => { o with maxDepth := n }
  | "timeout-ms" => (natural? value).map fun n => { o with timeout := some n }
  | "gmt-offset" => (integer? value).map fun n => { o with gmtOffset := n }
  | "log-level" => (logLevel? value).map fun level => { o with verbosity := level }
  | _ => none

/-- The long names of short options. -/
def longName? : Char → Option String
  | 'e' => some "eval"
  | 'v' => some "log-level"
  | _ => none

/-- One argument taken apart. -/
inductive Argument where
  | operand (text : String)
  | flag (name : String)
  | option (name : String) (value : Option String)

/-- A long option, with its value if that follows an equals sign. -/
def longArgument (text : List Char) : Argument :=
  let name := String.ofList (text.takeWhile (· != '='))
  match text.dropWhile (· != '=') with
  | _ :: value => .option name (some (String.ofList value))
  | [] =>
    if name ∈ ["quiet-errors", "version", "help"] then .flag name else .option name none

/-- Takes an argument apart. -/
def argumentOf (text : String) : Argument :=
  match text.toList with
  | '-' :: '-' :: rest => longArgument rest
  | ['-', 'V'] => .flag "version"
  | ['-', 'h'] => .flag "help"
  | '-' :: c :: rest =>
    let value :=
      match rest with
      | [] => none
      | '=' :: value => some (String.ofList value)
      | value => some (String.ofList value)
    .option ((longName? c).getD text) value
  | _ => .operand text

/-- Takes a file into the options, unless there is one. -/
def withFile (o : Options) (file : String) : Except String Options :=
  if o.file.isSome then .error ("unexpected argument '" ++ file ++ "' found")
  else .ok { o with file := some file }

/-- Understands arguments that are no options. -/
def requestOfOperands (o : Options) (files : List String) : Request :=
  match files.foldlM withFile o with
  | .ok o => .run o
  | .error message => .invalid message

/-- Understands arguments, after options that are known already. -/
def requestOf (o : Options) : List String → Request
  | [] => .run o
  | "--" :: rest => requestOfOperands o rest
  | text :: rest =>
    match argumentOf text with
    | .flag "version" => .version
    | .flag "help" => .help
    | .flag _ => requestOf { o with quiet := true } rest
    | .operand file =>
      match withFile o file with
      | .ok o => requestOf o rest
      | .error message => .invalid message
    | .option name (some value) =>
      match setOption name value o with
      | some o => requestOf o rest
      | none => .invalid ("invalid argument '" ++ text ++ "'")
    | .option name none =>
      match rest with
      | [] => .invalid ("a value is required for '" ++ text ++ "'")
      | value :: rest =>
        match setOption name value o with
        | some o => requestOf o rest
        | none => .invalid ("invalid value '" ++ value ++ "' for '" ++ text ++ "'")

/-- The settings of an interpreter for options. -/
def Options.config (o : Options) (epoch : Int) (seed : UInt64) : Config :=
  { maxDepth := o.maxDepth
    showErrors := !o.quiet
    gmtOffset := o.gmtOffset
    verbosity := o.verbosity
    epoch := epoch
    seed := seed }

end PageScript.CommandLine
