import PageScript.Evaluation.Block
import PageScript.Evaluation.Targets

/-! # Calls

A call finds the function and its `this`, evaluates the arguments and runs the function within an
activation of its own.  `new` runs it on a fresh object, which stays pinned meanwhile.
-/

set_option autoImplicit false

namespace PageScript

/-- A value to be called, and the object that becomes `this`. -/
structure Callee where
  function : Value
  this : Option ObjectId

namespace Script

/-! ## The calling side -/

/-- Evaluates what is to be called.  A member brings its receiver along, and a name the object that it
was found on by `with` or by `this`. -/
def evaluateCallee (e : Expression) : Script Callee := do
  match e with
  | .member object name =>
    let (base, name) ← evaluateMember object (return name)
    let f ← readMember base name
    return ⟨f, f.receiver?⟩
  | .index object key =>
    let (base, name) ← evaluateMember object (evaluateKey key)
    let f ← readMember base name
    return ⟨f, f.receiver?⟩
  | .identifier name =>
    let b ← binding name
    let f ← readVariable b.location
    return ⟨f, b.receiver <|> f.receiver?⟩
  | e =>
    let f ← evaluate e
    return ⟨f, f.receiver?⟩

/-- Evaluates the arguments of a call. -/
def evaluateArguments (args : List Expression) : Script (List Value) := each evaluate args

/-- Evaluates a call.  An object that is called as a member yields the member that the first argument
names. -/
def evaluateCall (callee : Expression) (args : List Expression) : Script Value := do
  let ⟨f, this⟩ ← evaluateCallee callee
  let refuse : Script Value := typeError (callee.text ++ " is not a function")
  match f.id? with
  | none => refuse
  | some id =>
    match ← read fun m => (m.heap.get? id).map fun o => (o.isCallable, o.callsAsMember) with
    | some (true, _) =>
      let values ← evaluateArguments args
      perform (.call id this values false)
    | some (false, true) =>
      let values ← evaluateArguments args
      readMember f (← toText (argument values 0))
    | _ => refuse

/-- Runs a function on a fresh object.  That object is the result unless the function yields another
one. -/
def construct (function : ObjectId) (args : List Value) : Script Value := do
  let proto ← prototypeOf function
  let id ← alloc { Object.empty (some proto) with maker := some function }
  modify fun m => { m with heap := m.heap.pin id }
  let result ← afterwards (perform (.call function (some id) args true))
    fun m => { m with heap := m.heap.unpin id }
  match result with
  | .object other _ => return .ref other
  | _ => return .ref id

/-- Evaluates a `new` expression. -/
def evaluateNew (callee : Expression) (args : List Expression) : Script Value := do
  let f ← evaluate callee
  match ← callable? f with
  | some id => construct id (← evaluateArguments args)
  | none => typeError (callee.text ++ " is not a constructor")

/-! ## The called side -/

/-- An argument by position: it shares the variable of its parameter if there is one. -/
def argumentVariable (locals : ObjectId) (parameters : List String) (i : Nat) (v : Value) :
    Variable :=
  match parameters[i]? with
  | some parameter =>
    { Variable.plain (ArrayIndex.name i) .undefined with link := .synonym locals parameter }
  | none => .plain (ArrayIndex.name i) v.unbound

/-- Makes the `arguments` object of a call. -/
def newArguments (function locals : ObjectId) (parameters : List String) (args : List Value) :
    Script ObjectId := do
  let id ← newArray args.length
  modifyObject id fun o =>
    let o : Object := { o with proto := some Intrinsic.object }
    let o := args.zipIdx.foldl (fun o (v, i) => o.push (argumentVariable locals parameters i v)) o
    o.putHidden "callee" (.ref function)
  return id

/-- Stores the arguments of a call under the names of the parameters; missing ones are undefined. -/
def Object.putParameters (parameters : List String) (args : List Value) (o : Object) : Object :=
  parameters.zipIdx.foldl (fun o (name, i) => o.put name (argument args i).unbound) o

/-- Adds the variable `arguments`, unless a parameter has that name. -/
def Object.addArguments (arguments : ObjectId) (o : Object) : Object :=
  if o.has "arguments" then o
  else o.push { Variable.plain "arguments" (.ref arguments) with permanent := true }

/-- Runs a function of script code. -/
def runFunction (f : ObjectId) (tree : FunctionTree) (scope : ObjectId) (this : ObjectId)
    (args : List Value) (constructing : Bool) : Script Value := do
  let locals ← alloc (.empty (some scope))
  let arguments ← newArguments f locals tree.parameters args
  modifyObject locals fun o =>
    Object.addArguments arguments (Object.putParameters tree.parameters args o)
  let frame : Frame :=
    { kind := .function, locals := locals, scope := scope, withs := [],
      arguments := some arguments, callee := some f, this := some this,
      constructing := constructing }
  within frame do
    hoist tree.body locals
    let _ ← runStatements tree.body
    return .undefined

/-- The activation of a built-in function. -/
def nativeFrame (f this : ObjectId) (constructing : Bool) : Frame :=
  { kind := .native, locals := Intrinsic.globalObject, scope := Intrinsic.globalObject, withs := [],
    arguments := none, callee := some f, this := some this, constructing := constructing }

/-- Calls a function, unless too many calls are running.  Without a `this` it is the global object. -/
def callFunction (applyNative : Native → Value → List Value → Script Value) (f : ObjectId)
    (this : Option ObjectId) (args : List Value) (constructing : Bool) : Script Value := do
  match (← object? f).bind (·.callable) with
  | none => typeError "value is not a function"
  | some callable =>
    let limit := (← config).maxDepth
    if limit ≤ (← read Machine.callDepth) then
      log .debug fun _ => "call depth limit " ++ toString limit ++ " reached"
      raise .general "Stack overflow"
    let this := this.getD Intrinsic.globalObject
    modify fun m => { m with callDepth := m.callDepth + 1 }
    log .trace fun m =>
      "call " ++ callable.name?.getD "<anonymous>" ++ " (depth " ++ toString m.callDepth ++ ")"
    let run : Script Value :=
      match callable with
      | .script tree scope => runFunction f tree scope this args constructing
      | .native _ native =>
        within (nativeFrame f this constructing) (applyNative native (.ref this) args)
    afterwards (returning run) fun m => { m with callDepth := m.callDepth - 1 }

end Script

end PageScript
