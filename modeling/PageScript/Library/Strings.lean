import PageScript.Library.Arrays
import PageScript.Text.Case
import PageScript.Text.Search
import PageScript.Text.Units

/-! # Strings

Positions count characters.
-/

set_option autoImplicit false

namespace PageScript.Script

/-! ## Access -/

/-- The string that a method works on: a string, that of its object, or the text of anything else. -/
def thisText (this : Value) : Script String := do
  match this, ← payload? this with
  | .string s, _ => return s
  | _, some (.string s) => return s
  | v, _ => toText v

/-- The characters that a method works on. -/
def thisChars (this : Value) : Script (List Char) := do return (← thisText this).toList

/-- The string of characters. -/
def ofChars (cs : List Char) : Value := .string (String.ofList cs)

/-- The position that an argument names, moved into `0` to `length`. -/
def positionWithin (args : List Value) (i length default : Nat) : Script Nat := do
  match given? args i with
  | none => return default
  | some v => return (← toPosition v).clamp length

/-- The number of a position, or minus one. -/
def positionNumber (position : Option Nat) : Value :=
  .number (match position with
    | some i => .ofNat i
    | none => .ofInt (-1))

/-! ## Making strings -/

/-- Makes a string of a value; on a fresh object, with a hidden length. -/
def constructString (this : Value) (args : List Value) : Script Value := do
  let s ← match args.head? with
    | some v => toText v
    | none => pure ""
  match ← isConstructing, this.id? with
  | true, some id =>
    setPayload id (.string s)
    defineHidden id "length" (.ofNat s.length)
    return this
  | _, _ => return .string s

/-- The string of UTF-16 code units. -/
def fromCharCode (args : List Value) : Script Value := do
  let units ← each (fun v => do return (← toNumber v).toUInt32.toNat % 2 ^ 16) args
  return ofChars (Text.charsOfUnits units)

/-! ## Characters and searches -/

/-- The character at the position that the first argument names. -/
def charAt? (this : Value) (args : List Value) : Script (Option Char) := do
  let cs ← thisChars this
  let position ← toPosition (argument args 0)
  return position.nat?.bind (cs[·]?)

/-- The first position of a text, from a given one on. -/
def indexOf (this : Value) (args : List Value) : Script Value := do
  let cs ← thisChars this
  let needle ← toText (argument args 0)
  let start ← positionWithin args 1 cs.length 0
  return positionNumber (Text.findFrom needle.toList start (cs.drop start))

/-- The position up to which a text is searched backwards; the end, if none is given or it is no
number. -/
def lastStart (args : List Value) (length : Nat) : Script Nat := do
  match given? args 1 with
  | none => return length
  | some v =>
    match ← toNumber v with
    | .nan => return length
    | n => return (Position.ofNumber n).clamp length

/-- The last position of a text, up to a given one. -/
def lastIndexOf (this : Value) (args : List Value) : Script Value := do
  let cs ← thisChars this
  let needle ← toText (argument args 0)
  let start ← lastStart args cs.length
  return positionNumber (Text.findLast needle.toList start 0 cs)

/-! ## Parts -/

/-- The part between two positions, in either order. -/
def substring (this : Value) (args : List Value) : Script Value := do
  let cs ← thisChars this
  let start ← positionWithin args 0 cs.length 0
  let stop ← positionWithin args 1 cs.length cs.length
  return ofChars (cs.extract (min start stop) (max start stop))

/-- The part of a length from a position on. -/
def substr (this : Value) (args : List Value) : Script Value := do
  let cs ← thisChars this
  let start ← positionFromEnd args 0 cs.length 0
  let count ← positionWithin args 1 (cs.length - start) (cs.length - start)
  return ofChars (cs.extract start (start + count))

/-- The part between two positions, which may count from the end. -/
def sliceText (this : Value) (args : List Value) : Script Value := do
  let cs ← thisChars this
  let start ← positionFromEnd args 0 cs.length 0
  let stop ← positionFromEnd args 1 cs.length cs.length
  return ofChars (cs.extract start stop)

/-- The pieces of a text between separators; an empty separator parts all characters. -/
def pieces (sep cs : List Char) : List (List Char) :=
  if h : 0 < sep.length then Text.splitAt sep h cs else cs.map ([·])

/-- An array of the pieces between separators, up to a number of them. -/
def split (this : Value) (args : List Value) : Script Value := do
  let cs ← thisChars this
  let limit ← match given? args 1 with
    | none => pure none
    | some v => do pure (some (← toNumber v).toUInt32.toNat)
  let parts ← match given? args 0 with
    | none => pure [cs]
    | some v => do pure (pieces (← toText v).toList cs)
  let parts := match limit with
    | none => parts
    | some n => parts.take n
  return .ref (← arrayOf (parts.map ofChars))

/-! ## Whole strings -/

/-- The string of a string or of its object. -/
def stringValue (this : Value) : Script Value := do
  match this, ← payload? this with
  | .string s, _ => return .string s
  | _, some (.string s) => return .string s
  | _, _ => typeError "String.prototype.valueOf called on incompatible object"

/-- The text behind an opening tag and before the closing one. -/
def wrapText (this : Value) (tag opening : String) : Script Value := do
  return .string ("<" ++ opening ++ ">" ++ (← thisText this) ++ "</" ++ tag ++ ">")

/-- The text between tags, the opening one with a property. -/
def wrapTextWith (this : Value) (tag property : String) (args : List Value) : Script Value := do
  let s ← thisText this
  let value ← toText (argument args 0)
  return .string ("<" ++ tag ++ " " ++ property ++ "=\"" ++ value ++ "\">" ++ s ++ "</" ++ tag ++ ">")

/-- Applies a function of `String` or its prototype. -/
def applyString (f : StringFunction) (this : Value) (args : List Value) : Script Value := do
  match f with
  | .construct => constructString this args
  | .fromCharCode => fromCharCode args
  | .charAt => return ofChars (← charAt? this args).toList
  | .charCodeAt =>
    match ← charAt? this args with
    | some c => return .ofNat c.toNat
    | none => return .number .nan
  | .indexOf => indexOf this args
  | .lastIndexOf => lastIndexOf this args
  | .substring => substring this args
  | .substr => substr this args
  | .slice => sliceText this args
  | .split => split this args
  | .concat =>
    let s ← thisText this
    return .string (String.join (s :: (← toTexts args)))
  | .toLowerCase => return ofChars (Text.toLower (← thisChars this))
  | .toUpperCase => return ofChars (Text.toUpper (← thisChars this))
  | .valueOf => stringValue this
  | .wrap tag => wrapText this tag tag
  | .wrapWith tag property => wrapTextWith this tag property args

end PageScript.Script
