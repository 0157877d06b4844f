import PageScript.Machine.Errors
import PageScript.Variables.Lookup

/-! # Reading variables and members

Every read of a variable goes through `readVariable`: it follows synonyms, refuses a protected variable
and lets a hook answer.  Reading a member finds the variable and binds a function to its receiver; a
primitive reads members of its prototype.
-/

set_option autoImplicit false

namespace PageScript.Script

/-! ## Functions -/

/-- The function that a value refers to. -/
def callable? (v : Value) : Script (Option ObjectId) := read fun m =>
  match v with
  | .object id _ =>
    match m.heap.get? id with
    | some o => if o.isCallable then some id else none
    | none => none
  | _ => none

/-- Whether an object is a function written in script. -/
def isScriptFunction (id : ObjectId) : Script Bool := read fun m =>
  match (m.heap.get? id).bind (·.callable) with
  | some (.script _ _) => true
  | _ => false

/-- The object that objects made by a function inherit from.  For a function without one it is made on
first use. -/
def prototypeOf (function : ObjectId) : Script ObjectId := do
  match (← read (·.heap.own? function "prototype")).bind (·.value.id?) with
  | some id => return id
  | none =>
    let o := (Object.empty (some Intrinsic.object)).putHidden "constructor" (.ref function)
    let id ← alloc o
    defineHidden function "prototype" (.ref id)
    return id

/-! ## Objects for primitives -/

/-- Makes an object for a primitive; the object of a string has a hidden length. -/
def wrap (proto : ObjectId) (payload : Payload) : Script ObjectId := do
  let o := Object.empty (some proto)
  let o := match payload with
    | .string s => o.putHidden "length" (.ofNat s.length)
    | _ => o
  alloc { o with payload := payload }

/-- The object of a value; `undefined` and `null` have none. -/
def toObject (v : Value) : Script ObjectId :=
  match v with
  | .object id _ => return id
  | .null => typeError "null has no properties"
  | .undefined => typeError "undefined has no properties"
  | .string s => wrap Intrinsic.string (.string s)
  | .number n => wrap Intrinsic.number (.number n)
  | .boolean b => wrap Intrinsic.boolean (.boolean b)

/-! ## Variables -/

/-- The counter of an array. -/
def arrayLength (m : Machine) (array : ObjectId) : Nat :=
  match (m.heap.get? array).map Object.payload with
  | some (.array length) => length
  | _ => 0

/-- Lets a hook answer a read. -/
def readThrough (hook : Hook) (owner : ObjectId) : Script Value :=
  match hook with
  | .arrayLength => read fun m => .ofNat (arrayLength m owner)
  | .host behavior => perform (.readHook behavior owner)

/-- Reads a variable. -/
def readVariable (place : Location) : Script Value := do
  let target ← read (·.heap.resolve place)
  match ← read (·.heap.own? target.object target.name) with
  | none => return .undefined
  | some v =>
    let key ← read Machine.key
    if v.key ≠ 0 ∧ v.key ≠ key then
      raise .general ("access to protected variable '" ++ v.name ++ "' denied")
    else
      match v.link with
      | .hook hook owner => readThrough hook owner
      | _ => return v.value

/-! ## Members -/

/-- Lets a function remember the object it was read from. -/
def bindReceiver (v : Value) (receiver : ObjectId) : Script Value := do
  match ← callable? v with
  | some f => return .object f (some receiver)
  | none => return v

/-- Reads a member of an object. -/
def readObjectMember (id : ObjectId) (name : String) : Script Value := do
  match ← read (·.heap.findOwner id name) with
  | some owner => bindReceiver (← readVariable ⟨owner, name⟩) id
  | none =>
    if name == "prototype" then
      if ← isScriptFunction id then return .ref (← prototypeOf id)
    return .undefined

/-- Reads a member that a primitive has from its prototype; a function is bound to an object made for
the primitive. -/
def readPrimitiveMember (v : Value) (proto : ObjectId) (name : String) : Script Value := do
  match ← read (·.heap.findOwner proto name) with
  | none => return .undefined
  | some owner =>
    let member ← readVariable ⟨owner, name⟩
    if (← callable? member).isSome then bindReceiver member (← toObject v)
    else return member

/-- Reads a member of a value. -/
def readMember (v : Value) (name : String) : Script Value :=
  match v with
  | .object id _ => readObjectMember id name
  | .null => typeError "null has no properties"
  | .undefined => typeError "undefined has no properties"
  | .string s =>
    if name == "length" then return .ofNat s.length
    else readPrimitiveMember v Intrinsic.string name
  | .number _ => readPrimitiveMember v Intrinsic.number name
  | .boolean _ => readPrimitiveMember v Intrinsic.boolean name

/-- Calls a member if it is a function. -/
def invoke (id : ObjectId) (name : String) (args : List Value) : Script (Option Value) := do
  match ← callable? (← readMember (.ref id) name) with
  | some f => return some (← perform (.call f (some id) args false))
  | none => return none

end PageScript.Script
