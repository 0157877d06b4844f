import PageScript.Library.Basic

/-! # Errors -/

set_option autoImplicit false

namespace PageScript.Script

/-- Makes an error of a kind, on the fresh object if there is one. -/
def constructError (kind : ErrorKind) (this : Value) (args : List Value) : Script Value := do
  let id ← match ← isConstructing, this.id? with
    | true, some id => pure id
    | _, _ => alloc (.empty (some (Intrinsic.error kind)))
  setPayload id (.error kind)
  if let some message := given? args 0 then
    let _ ← writeMember id "message" (.string (← toText message))
  return .ref id

/-- The text of an error: its name, and its message unless that is empty. -/
def errorText (this : Value) : Script Value := do
  let name ← toText (← readMember this "name")
  let message ← toText (← readMember this "message")
  return .string (if message.isEmpty then name else name ++ ": " ++ message)

/-- Applies an error constructor or a method of errors. -/
def applyError (f : ErrorFunction) (this : Value) (args : List Value) : Script Value :=
  match f with
  | .construct kind => constructError kind this args
  | .toText => errorText this

end PageScript.Script
