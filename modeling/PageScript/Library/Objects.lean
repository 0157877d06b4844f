import PageScript.Library.Basic

/-! # Objects and booleans -/

set_option autoImplicit false

namespace PageScript.Script

/-! ## Objects -/

/-- Makes an object of a value, or a new one of nothing. -/
def constructObject (this : Value) (args : List Value) : Script Value := do
  match args.head? with
  | some .undefined | some .null | none =>
    if ← isConstructing then return this
    return .ref (← newObject)
  | some v => return .ref (← toObject v)

/-- Applies a function of `Object` or its prototype. -/
def applyObject (f : ObjectFunction) (this : Value) (args : List Value) : Script Value := do
  match f with
  | .construct => constructObject this args
  | .toText =>
    let className ← read fun m =>
      ((this.id?.bind m.heap.get?).map Object.className).getD "Object"
    return .string ("[object " ++ className ++ "]")
  | .toLocaleText => return .string (← toText this)
  | .valueOf => return this
  | .hasOwnProperty =>
    let name ← toText (argument args 0)
    read fun m => .boolean ((this.id?.map fun id => m.heap.owns id name).getD false)
  | .isPrototypeOf =>
    read fun m => .boolean (match this.id?, (argument args 0).id? with
      | some ancestor, some id => m.heap.inheritsFrom id ancestor
      | _, _ => false)
  | .isEnumerable =>
    let name ← toText (argument args 0)
    read fun m => .boolean (match this.id?.bind fun id => m.heap.own? id name with
      | some v => !v.hidden
      | none => false)

/-! ## Booleans -/

/-- The boolean that a method is called on. -/
def thisBoolean (this : Value) : Script Bool := do
  match this, ← payload? this with
  | .boolean b, _ => return b
  | _, some (.boolean b) => return b
  | _, _ => typeError "Boolean.prototype method called on incompatible object"

/-- Applies a function of `Boolean` or its prototype. -/
def applyBoolean (f : BooleanFunction) (this : Value) (args : List Value) : Script Value := do
  match f with
  | .construct =>
    let b := (argument args 0).isTruthy
    match ← isConstructing, this.id? with
    | true, some id =>
      setPayload id (.boolean b)
      return this
    | _, _ => return .boolean b
  | .toText => return .string (if ← thisBoolean this then "true" else "false")
  | .valueOf => return .boolean (← thisBoolean this)

end PageScript.Script
