import PageScript.Number.Text

/-! # Script values

A value is a primitive, `null`, or a reference to an object.  A reference to a function that was read
as a member also remembers the object it was read from, its receiver; `Value.unbound` forgets it
again, which is what happens to every value on being stored.
-/

set_option autoImplicit false

namespace PageScript

/-- The place of an object in the heap. -/
structure ObjectId where
  index : Nat
  deriving DecidableEq, Repr

instance : Inhabited ObjectId := ⟨⟨0⟩⟩

/-- A value of the language. -/
inductive Value where
  | undefined
  | null
  | boolean (b : Bool)
  | number (n : Number)
  | string (s : String)
  | object (id : ObjectId) (receiver : Option ObjectId)

namespace Value

instance : Inhabited Value := ⟨.undefined⟩

/-- A reference without a receiver. -/
def ref (id : ObjectId) : Value := .object id none

/-- The number of a natural number. -/
def ofNat (n : Nat) : Value := .number (.ofNat n)

/-- The number of a double. -/
def ofFloat (x : Float) : Value := .number (.ofFloat x)

/-- The object that a value refers to. -/
def id? : Value → Option ObjectId
  | .object id _ => some id
  | _ => none

/-- The receiver that a value remembers. -/
def receiver? : Value → Option ObjectId
  | .object _ receiver => receiver
  | _ => none

/-- Forgets the receiver. -/
def unbound : Value → Value
  | .object id _ => .object id none
  | v => v

/-- Whether a value is `undefined` or `null`. -/
def isNothing : Value → Bool
  | .undefined | .null => true
  | _ => false

/-- Whether a value is `undefined`. -/
def isUndefined : Value → Bool
  | .undefined => true
  | _ => false

/-- Whether a value is a string. -/
def isString : Value → Bool
  | .string _ => true
  | _ => false

/-- Whether a value counts as true in a condition. -/
def isTruthy : Value → Bool
  | .undefined | .null => false
  | .boolean b => b
  | .number n => !(n.isNaN || n.isZero)
  | .string s => !s.isEmpty
  | .object _ _ => true

/-- The text of a value without running any script: every object reads the same. -/
def text : Value → String
  | .undefined => "undefined"
  | .null => "null"
  | .boolean b => if b then "true" else "false"
  | .number n => n.text
  | .string s => s
  | .object _ _ => "[object Object]"

/-- Equality without conversion; receivers do not count. -/
def strictEquals : Value → Value → Bool
  | .undefined, .undefined => true
  | .null, .null => true
  | .number x, .number y => x.equal y
  | .string x, .string y => x == y
  | .boolean x, .boolean y => x == y
  | .object x _, .object y _ => x == y
  | _, _ => false

end Value

/-- The kinds of runtime errors; `general` is the plain one. -/
inductive ErrorKind where
  | general | eval | range | reference | badSource | type | uri
  deriving DecidableEq, Repr

namespace ErrorKind

/-- The kinds with a constructor of their own beside the plain one. -/
def specific : List ErrorKind := [.eval, .range, .reference, .badSource, .type, .uri]

/-- The name of a kind and of its constructor. -/
def name : ErrorKind → String
  | .general => "Error"
  | .eval => "EvalError"
  | .range => "RangeError"
  | .reference => "ReferenceError"
  | .badSource => "SyntaxError"
  | .type => "TypeError"
  | .uri => "URIError"

end ErrorKind

end PageScript
