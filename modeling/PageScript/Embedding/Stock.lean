import PageScript.Embedding.Host
import PageScript.Embedding.Properties

/-! # A stock of behaviors

Functions and hooks that an embedding program can register by name, and answers given by lists.
-/

set_option autoImplicit false

namespace PageScript.Stock

open Script

/-! ## Functions -/

/-- Prints the texts of values, with a space between them. -/
def print (args : List Value) : Script Value := do
  let texts ← each display args
  emit (.printed (String.intercalate " " texts))
  return .undefined

/-- The functions by name. -/
def native (behavior : String) (this : Value) (args : List Value) : Script Value := do
  let first := args.headD .undefined
  match behavior with
  | "print" => print args
  | "identity" => return first
  | "return" => abrupt (.returned first)
  | "throw" => abrupt (.thrown first)
  | "this" => return this
  | "count" => return .ofNat args.length
  | "truthy" => return .boolean first.isTruthy
  | "array" => return .ref (← arrayOf args)
  | "break" => abrupt (.broken none)
  | "continue" => abrupt (.continued none)
  | "stop" => abrupt .stopped
  | _ => return .undefined

/-! ## Hooks -/

/-- The answers of hooks to a read. -/
def readHook (behavior : String) (owner : ObjectId) : Script Value :=
  match behavior with
  | "answer" => return .ofNat 42
  | "store" | "readonly" => getProperty owner "raw"
  | "throw" => abrupt (.thrown (.string "get denied"))
  | _ => return .undefined

/-- The answers of hooks to a write. -/
def writeHook (behavior : String) (owner : ObjectId) (v : Value) : Script Value := do
  match behavior with
  | "answer" =>
    setProperty owner "last" v
    return v
  | "store" =>
    setProperty owner "raw" (.string ("<" ++ (← display v) ++ ">"))
    return v
  | "readonly" => abrupt (.thrown (.string "read only"))
  | "throw" => abrupt (.thrown (.string "set denied"))
  | _ => return v

/-- Takes up the names that begin with `v`, and gives them the hook of another behavior. -/
def offer (behavior : String) (object : ObjectId) (name : String) : Script Bool := do
  match behavior with
  | "v-names" =>
    if name.toList.head? == some 'v' then
      addHook object name "answer" object
      return true
    else return false
  | _ => return false

/-! ## Answers by lists -/

/-- How many of the events are reports of errors. -/
def reportCount (events : List Event) : Nat :=
  events.countP fun event => match event with
    | .reported _ => true
    | _ => false

/-- How many of the events are steps of the debugger. -/
def stepCount (events : List Event) : Nat :=
  events.countP fun event => match event with
    | .stepped _ => true
    | _ => false

/-- Goes on up to a number of elements, and answers errors and steps in order: after the last answer
errors get it again, while steps go on. -/
def scripted (budget : Option Nat) (errors : List ErrorAction) (steps : List DebugAction) :
    Observer where
  feedback _ elements :=
    match budget with
    | some limit => if elements ≤ limit then .goOn else .cancel none
    | none => .goOn
  onError events _ := (errors[reportCount events]? <|> errors.getLast?).getD .abort
  onStep events _ := (steps[stepCount events]?).getD .goOn

/-- A host with the behaviors of the stock. -/
def host (observer : Observer) : Host :=
  { observer with native := native, readHook := readHook, writeHook := writeHook, offer := offer }

end PageScript.Stock
