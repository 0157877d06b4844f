import PageScript.Library.Arrays
import PageScript.Library.Errors
import PageScript.Library.Numbers
import PageScript.Library.Strings

/-! # What library functions go on with

Many functions of the library go on in one way from different places: with the number that was given or
without one, with the object under construction or with a new one.  What they go on with has a name here, so
that each property of it is shown once.
-/

set_option autoImplicit false

namespace PageScript.Script

/-! ## Conversions -/

/-- The text of an object whose `toString` has given none. -/
def textByValue (id : ObjectId) : Script String := do
  match ← invoke id "valueOf" [] with
  | some (.object _ _) | some .null | none => pure ()
  | some v => return v.text
  let className ← read fun m => ((m.heap.get? id).map Object.className).getD "Object"
  return "[object " ++ className ++ "]"

/-- The primitive of an object whose `valueOf` has given none. -/
def primitiveByText (id : ObjectId) : Script Value := do
  match ← invoke id "toString" [] with
  | some (.object _ _) | none => pure ()
  | some p => return p
  typeError "cannot convert object to primitive value"

/-! ## Constructors -/

/-- Gives a number to the object under construction, or back. -/
def storeNumber (this : Value) (n : Number) : Script Value := do
  match ← isConstructing, this.id? with
  | true, some id =>
    setPayload id (.number n)
    return this
  | _, _ => return .number n

/-- Gives a string to the object under construction, or back. -/
def storeString (this : Value) (s : String) : Script Value := do
  match ← isConstructing, this.id? with
  | true, some id =>
    setPayload id (.string s)
    defineHidden id "length" (.ofNat s.length)
    return this
  | _, _ => return .string s

/-- Makes an object an error, with the message that was given. -/
def fillError (kind : ErrorKind) (args : List Value) (id : ObjectId) : Script Value := do
  setPayload id (.error kind)
  if let some message := given? args 0 then
    let _ ← writeMember id "message" (.string (← toText message))
  return .ref id

/-- Gives a new array its length or its elements. -/
def fillArray (args : List Value) (id : ObjectId) : Script Value := do
  match args with
  | [.number n] =>
    let _ ← writeMember id "length" (.number n)
  | args =>
    fold (fun _ (v, i) => do
      let _ ← writeMember id (ArrayIndex.name i) v) args.zipIdx ()
  return .ref id

/-! ## Texts -/

/-- The text of a number in a radix. -/
def numberIn (n : Number) (radix : Position) : Script Value := do
  match radix, n with
  | .at 10, n => return .string n.text
  | .at r, n =>
    if 2 ≤ r ∧ r ≤ 36 then
      match n with
      | .finite x => return .string (Number.radixText x r.toNat)
      | n => return .string n.text
    else raise .range "radix must be between 2 and 36"
  | _, _ => raise .range "radix must be between 2 and 36"

/-- An array of the first parts of a text. -/
def arrayOfParts (limit : Option Nat) (parts : List (List Char)) : Script Value := do
  let parts := match limit with
    | none => parts
    | some n => parts.take n
  return .ref (← arrayOf (parts.map ofChars))

/-- An array of the first parts of a text between the separators that were given. -/
def splitUpTo (args : List Value) (cs : List Char) (limit : Option Nat) : Script Value := do
  let parts ← match given? args 0 with
    | none => pure [cs]
    | some v => do pure (pieces (← toText v).toList cs)
  let parts := match limit with
    | none => parts
    | some n => parts.take n
  return .ref (← arrayOf (parts.map ofChars))

end PageScript.Script
