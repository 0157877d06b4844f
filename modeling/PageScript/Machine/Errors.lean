import PageScript.Machine.Script

/-! # Runtime errors

Inside a `try` block a runtime error is an exception like any other.  Outside of one it is noted, if no
other one is, and stops the run on its way to the innermost statement, which shows it.
-/

set_option autoImplicit false

namespace PageScript

/-- Notes an error that is to be shown, unless another one is. -/
def Machine.note (entry : ErrorKind × String) (m : Machine) : Machine :=
  { m with
    pending := m.pending.or (some entry)
    noted := ⟨entry.1, entry.2, m.running.head?⟩ :: m.noted }

namespace Script

/-- Makes an error object. -/
def newError (kind : ErrorKind) (message : String) : Script Value := do
  let o := Object.empty (some (Intrinsic.error kind))
  let id ← alloc (({ o with payload := .error kind } : Object).put "message" (.string message))
  return .ref id

/-- Notes an error that is to be shown, unless another one is. -/
def note (kind : ErrorKind) (message : String) : Script Unit := do
  if ← read fun m => m.pending.isNone then
    log .debug fun _ => "runtime error: " ++ kind.name ++ ": " ++ message
  modify (Machine.note (kind, message))

/-- Raises a runtime error. -/
def raise {α : Type} (kind : ErrorKind) (message : String) : Script α := do
  if 0 < (← read Machine.tryDepth) then
    abrupt (.thrown (← newError kind message))
  else
    if ← read fun m => !m.stopped then note kind message
    abrupt .stopped

/-- Raises a type error. -/
def typeError {α : Type} (message : String) : Script α := raise .type message

end Script

end PageScript
