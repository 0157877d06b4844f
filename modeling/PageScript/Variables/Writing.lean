import PageScript.Conversion

/-! # Writing variables and members

Every write of a variable goes through `writeVariable`: it follows synonyms, forgets a receiver and
lets a hook answer.  A new member is first offered to the object's addition hook.  Arrays count their
length by such a hook and by one on their `length` variable.
-/

set_option autoImplicit false

namespace PageScript

/-! ## The length of arrays -/

/-- Adds a variable to an array under the name of an index, and raises the length beyond it. -/
def Object.addElement (name : String) (index : Nat) (o : Object) : Object :=
  let o := o.push (.plain name .undefined)
  match o.payload with
  | .array length => { o with payload := .array (if length ≤ index then index + 1 else length) }
  | _ => o

/-- Gives an array a length; elements beyond it are dropped. -/
def Object.setLength (current length : Nat) (o : Object) : Object :=
  let o :=
    if length < current then
      { o with members := o.members.filter fun v =>
          match ArrayIndex.ofName? v.name with
          | some i => i < length
          | none => true }
    else o
  { o with payload := .array length }

/-- The length that a number gives to an array. -/
def lengthOfNumber? : Number → Option Nat
  | .finite x =>
    if 0.0 ≤ x ∧ Binary64.isWhole x ∧ Binary64.magnitude x < ArrayIndex.limit
    then some (Binary64.magnitude x) else none
  | _ => none

/-- Turns an object into an array of a length without elements. -/
def Object.makeArray (self : ObjectId) (length : Nat) (o : Object) : Object :=
  ({ o with payload := .array length, additionHook := some .arrayIndex } : Object).updateOrPush "length"
    fun v => { v with link := .hook .arrayLength self, hidden := true, permanent := true }

namespace Script

/-- Sets the length of an array to a value, which must be a whole number. -/
def writeLength (array : ObjectId) (v : Value) : Script Value := do
  let current ← read (arrayLength · array)
  match lengthOfNumber? (← toNumber v) with
  | some length =>
    modifyObject array (·.setLength current length)
    return .ofNat length
  | none => raise .range "invalid array length"

/-! ## Variables -/

/-- Lets a hook answer a write. -/
def writeThrough (hook : Hook) (owner : ObjectId) (v : Value) : Script Value :=
  match hook with
  | .arrayLength => writeLength owner v
  | .host behavior => perform (.writeHook behavior owner v)

/-- Writes a variable and yields what was stored.  A plain write brings a hidden variable to light. -/
def writeVariable (place : Location) (v : Value) : Script Value := do
  let target ← read (·.heap.resolve place)
  let v := v.unbound
  match (← read (·.heap.own? target.object target.name)).map Variable.link with
  | some (.hook hook owner) => writeThrough hook owner v
  | _ =>
    modifyObject target.object
      (·.updateOrPush target.name fun x => { x with value := v, hidden := false })
    return v

/-! ## Members -/

/-- Offers a name to an addition hook; true if the hook has added the variable. -/
def offer (hook : AdditionHook) (id : ObjectId) (name : String) : Script Bool :=
  match hook with
  | .arrayIndex =>
    match ArrayIndex.ofName? name with
    | none => return false
    | some index => do
      if !(← read (·.heap.isLive id)) then return false
      modifyObject id (·.addElement name index)
      return true
  | .host behavior => do return (← perform (.offer behavior id name)).isTruthy

/-- Writes a member of an object and yields the value. -/
def writeMember (id : ObjectId) (name : String) (v : Value) : Script Value := do
  let present ←
    if ← read (·.heap.owns id name) then pure true
    else
      match (← read (·.heap.get? id)).bind (·.additionHook) with
      | some hook => offer hook id name
      | none => pure false
  if present then
    let _ ← writeVariable ⟨id, name⟩ v
    return v
  else
    modifyObject id (·.push (.plain name v.unbound))
    return v

/-- Deletes a member of an object, unless it is permanent; true if it is gone. -/
def deleteMember (id : ObjectId) (name : String) : Script Bool := do
  match ← read (·.heap.own? id name) with
  | some v =>
    if v.permanent then return false
    modifyObject id (·.remove name)
    return true
  | none => return true

/-! ## Arrays -/

/-- Makes an array of a length without elements. -/
def newArray (length : Nat) : Script ObjectId := do
  let id ← alloc (.empty (some Intrinsic.array))
  modifyObject id (·.makeArray id length)
  return id

/-- Makes an array of values. -/
def arrayOf (values : List Value) : Script ObjectId := do
  let id ← newArray values.length
  modifyObject id fun o =>
    (values.zipIdx.foldl (fun o (v, i) => o.push (.plain (ArrayIndex.name i) v.unbound)) o)
  return id

end Script

end PageScript
