import PageScript.Source.Hoisting
import PageScript.Source.Parser
import PageScript.Source.Printer
import PageScript.Variables.Writing

/-! # What built-in functions have in common

Access to arguments and to the running call, new objects and functions, and calls of values.
-/

set_option autoImplicit false

namespace PageScript.Script

/-- An argument by its position; a missing one is undefined. -/
def argument (args : List Value) (i : Nat) : Value := args.getD i .undefined

/-- An argument by its position, unless it is missing or undefined. -/
def given? (args : List Value) (i : Nat) : Option Value :=
  match args[i]? with
  | some .undefined | none => none
  | v => v

/-- Whether the running function was called by `new`. -/
def isConstructing : Script Bool := read (·.frame.constructing)

/-- The payload of the object of a value. -/
def payload? (v : Value) : Script (Option Payload) :=
  read fun m => (v.id?.bind m.heap.get?).map Object.payload

/-- Replaces the payload of an object. -/
def setPayload (id : ObjectId) (payload : Payload) : Script Unit :=
  modifyObject id fun o => { o with payload := payload }

/-- Makes an object without members. -/
def newObject : Script ObjectId := alloc (.empty (some Intrinsic.object))

/-- Makes a function of script code that runs in a scope. -/
def newFunction (tree : FunctionTree) (scope : ObjectId) : Script ObjectId :=
  let o := (Object.empty (some Intrinsic.function)).putHidden "length"
    (.ofNat tree.parameters.length)
  alloc { o with callable := some (.script tree scope) }

/-- Calls a value, which must be a function. -/
def callValue (v : Value) (this : Option ObjectId) (args : List Value) : Script Value := do
  match ← callable? v with
  | some f => perform (.call f this args false)
  | none => typeError (v.text ++ " is not a function")

/-- A list of argument texts. -/
def toTexts (args : List Value) : Script (List String) := each toText args

end PageScript.Script
