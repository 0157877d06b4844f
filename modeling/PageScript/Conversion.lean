import PageScript.Number.Position
import PageScript.Number.Reading
import PageScript.Variables.Reading

/-! # Conversions and comparisons

How a value becomes a number, a string or a primitive, and the comparisons that convert.  An object is
converted by its `valueOf` and `toString` members, so a conversion may run any script.
-/

set_option autoImplicit false

namespace PageScript.Script

/-! ## Strings, numbers and primitives -/

/-- The string of an object: the first primitive that `toString` or `valueOf` yields, or else the name
of its class. -/
def objectToString (id : ObjectId) : Script String := do
  match ← invoke id "toString" [] with
  | some (.object _ _) | some .null | none => pure ()
  | some v => return v.text
  match ← invoke id "valueOf" [] with
  | some (.object _ _) | some .null | none => pure ()
  | some v => return v.text
  let className ← read fun m => ((m.heap.get? id).map Object.className).getD "Object"
  return "[object " ++ className ++ "]"

/-- The string of a value. -/
def toText (v : Value) : Script String :=
  match v with
  | .object id _ => objectToString id
  | v => return v.text

/-- The number of a value.  An object is worth its `valueOf` if that is a number, and else as much as
its string. -/
def toNumber (v : Value) : Script Number :=
  match v with
  | .undefined => return .nan
  | .null => return .zero
  | .boolean b => return .ofNat (if b then 1 else 0)
  | .number n => return n
  | .string s => return .ofText s
  | .object id _ => do
    match ← invoke id "valueOf" [] with
    | some (.number n) => return n
    | _ => return .ofText (← objectToString id)

/-- The position that a value names. -/
def toPosition (v : Value) : Script Position := do return .ofNumber (← toNumber v)

/-- The primitive of a value: the first one that `valueOf` or `toString` yields. -/
def toPrimitive (v : Value) : Script Value :=
  match v with
  | .object id _ => do
    match ← invoke id "valueOf" [] with
    | some (.object _ _) | none => pure ()
    | some p => return p
    match ← invoke id "toString" [] with
    | some (.object _ _) | none => pure ()
    | some p => return p
    typeError "cannot convert object to primitive value"
  | v => return v

/-- The string that the embedding program shows for a value. -/
def display (v : Value) : Script String := orElse (toText v) v.text

/-! ## Comparisons -/

/-- Equality of primitives: strings with anything but nothing compare as strings, the rest as
numbers. -/
def primitivesEqual (a b : Value) : Script Bool :=
  match a, b with
  | .undefined, b => return b.isNothing
  | .null, b => return b.isNothing
  | _, .undefined => return false
  | _, .null => return false
  | .string x, b => return x == b.text
  | a, .string y => return a.text == y
  | a, b => do return (← toNumber a).equal (← toNumber b)

/-- Equality with conversion.  Two objects are equal if they are the same one, and `undefined` and
`null` equal nothing but each other. -/
def looselyEqual (a b : Value) : Script Bool :=
  match a, b with
  | .object x _, .object y _ => return x == y
  | .object _ _, .undefined | .object _ _, .null => return false
  | .undefined, .object _ _ | .null, .object _ _ => return false
  | .object _ _, b => do primitivesEqual (← toPrimitive a) b
  | a, .object _ _ => do primitivesEqual a (← toPrimitive b)
  | a, b => primitivesEqual a b

/-- The order of two texts by their characters. -/
def textOrder (a b : String) : Ordering :=
  if a < b then .lt else if a == b then .eq else .gt

/-- The order of two values, as strings if either primitive is one and else as numbers; `none` if NaN
is involved. -/
def compare (a b : Value) : Script (Option Ordering) := do
  let p ← toPrimitive a
  let q ← toPrimitive b
  if p.isString || q.isString then
    let s ← toText p
    let t ← toText q
    return some (textOrder s t)
  else
    let x ← toNumber p
    let y ← toNumber q
    return x.ordering? y

/-- The operand of an addition: a function is worth its source text, any other object its `valueOf` if
that is a number and else its string. -/
def addend (v : Value) : Script Value :=
  match v with
  | .object id _ => do
    if (← callable? v).isNone then
      if let some (.number n) ← invoke id "valueOf" [] then return .number n
    return .string (← objectToString id)
  | v => return v

/-- The name of the type of a value. -/
def typeName (v : Value) : Script String := do
  match v with
  | .undefined => return "undefined"
  | .boolean _ => return "boolean"
  | .number _ => return "number"
  | .string _ => return "string"
  | .null => return "object"
  | .object _ _ => return if (← callable? v).isSome then "function" else "object"

end PageScript.Script
