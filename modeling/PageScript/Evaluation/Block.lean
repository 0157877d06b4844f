import PageScript.Library.Basic

/-! # Running statements

Lists of statements, the declarations that come into force before they run, and code given as text.
-/

set_option autoImplicit false

namespace PageScript

/-- Whether the value of a statement becomes the value of the list it stands in. -/
def Statement.yieldsValue (s : Statement) : Bool :=
  match s.form with
  | .empty | .declare _ | .function _ => false
  | _ => true

namespace Script

/-- Runs statements one after another.  The value is that of the last one that yields a value. -/
def runStatements (body : List Statement) : Script Value :=
  fold (fun last s => do
    let v ← perform (.statement s [])
    return if s.yieldsValue then v else last) body .undefined

/-- Declares a function in a scope; it replaces what was stored under its name. -/
def declareFunction (scope : ObjectId) (tree : FunctionTree) : Script Unit :=
  match tree.name with
  | none => return ()
  | some name => do
    let f ← newFunction tree scope
    declare scope name
    modifyObject scope (·.update name fun v => { v with value := .ref f })

/-- Declares the variables and functions of a list of statements in a scope. -/
def hoist (body : List Statement) (scope : ObjectId) : Script Unit := do
  fold (fun _ name => declare scope name) (hoistedNames body) ()
  fold (fun _ tree => declareFunction scope tree) (Statement.functionsOf body) ()

/-- Runs a computation within an activation, which ends with it. -/
def within (frame : Frame) (x : Script Value) : Script Value := do
  modify fun m => { m with frame := frame, callers := m.frame :: m.callers }
  afterwards x fun m =>
    match m.callers with
    | f :: rest => { m with frame := f, callers := rest }
    | [] => m

/-- Runs code given as text in the scope of the code that asks for it.  That is the caller of the
running activation, which belongs to the asking function itself. -/
def runSource (source : String) : Script Value := do
  match Program.parse source with
  | .error e => raise .badSource e.message
  | .ok body =>
    let caller ← read fun m => m.callers.headD m.frame
    within { caller with kind := .eval, withs := [], constructing := false } do
      hoist body caller.locals
      runStatements body

end Script

end PageScript
