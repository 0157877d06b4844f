import PageScript.Heap.Native
import PageScript.Source.Tree

/-! # Objects

An object is a list of variables in insertion order with a prototype, an optional function and a
payload for the built-in kinds.  A variable may be a synonym of another one, or have a hook that
answers reads and writes in its place.
-/

set_option autoImplicit false

namespace PageScript

/-! ## Variables -/

/-- What answers reads and writes of a variable: the counter of an array, or the embedding
program. -/
inductive Hook where
  | arrayLength
  | host (behavior : String)

/-- Where reads and writes of a variable go. -/
inductive Link where
  | plain
  | hook (hook : Hook) (owner : ObjectId)
  | synonym (object : ObjectId) (name : String)

/-- A variable.  A hidden one is left out of enumeration and a permanent one cannot be deleted; one
with a key can only be read under that key. -/
structure Variable where
  name : String
  value : Value
  link : Link
  key : Nat
  hidden : Bool
  permanent : Bool

instance : Inhabited Variable := ⟨⟨"", .undefined, .plain, 0, false, false⟩⟩

/-- A plain variable. -/
def Variable.plain (name : String) (value : Value) : Variable :=
  ⟨name, value, .plain, 0, false, false⟩

/-! ## Kinds of objects -/

/-- What makes an object one of a built-in kind.  A date without a time is an invalid one. -/
inductive Payload where
  | plain
  | array (length : Nat)
  | date (time : Option Int)
  | string (s : String)
  | boolean (b : Bool)
  | number (n : Number)
  | error (kind : ErrorKind)

/-- The function of a function object.  A script function runs in the scope it was made in. -/
inductive Callable where
  | script (tree : FunctionTree) (scope : ObjectId)
  | native (name : String) (native : Native)

/-- The name of a function, if it has one. -/
def Callable.name? : Callable → Option String
  | .script tree _ => tree.name
  | .native name _ => some name

/-- What is offered a name before a plain property of that name is added. -/
inductive AdditionHook where
  | arrayIndex
  | host (behavior : String)

/-! ## Objects -/

/-- An object.  With `callsAsMember` a call of the object reads the member named by the argument. -/
structure Object where
  members : Array Variable
  payload : Payload
  callable : Option Callable
  maker : Option ObjectId
  proto : Option ObjectId
  additionHook : Option AdditionHook
  callsAsMember : Bool

namespace Object

/-- An object without variables. -/
def empty (proto : Option ObjectId) : Object := ⟨#[], .plain, none, none, proto, none, false⟩

instance : Inhabited Object := ⟨empty none⟩

/-- The variable of a name. -/
def find? (o : Object) (name : String) : Option Variable := o.members.find? (·.name == name)

/-- Whether an object has a variable of its own of a name. -/
def has (o : Object) (name : String) : Bool := o.members.any (·.name == name)

/-- Adds a variable behind the others.  Callers see to it that the name is new. -/
def push (v : Variable) (o : Object) : Object := { o with members := o.members.push v }

/-- Changes the variable of a name, if there is one. -/
def update (name : String) (f : Variable → Variable) (o : Object) : Object :=
  match o.members.findIdx? (·.name == name) with
  | some i => { o with members := o.members.modify i f }
  | none => o

/-- Changes the variable of a name; if there is none, a plain undefined one is added first. -/
def updateOrPush (name : String) (f : Variable → Variable) (o : Object) : Object :=
  match o.members.findIdx? (·.name == name) with
  | some i => { o with members := o.members.modify i f }
  | none => o.push (f (.plain name .undefined))

/-- Stores a value under a name, and leaves the marks of an existing variable alone. -/
def put (name : String) (value : Value) (o : Object) : Object :=
  o.updateOrPush name fun v => { v with value := value }

/-- Stores a value under a name and hides it from enumeration. -/
def putHidden (name : String) (value : Value) (o : Object) : Object :=
  o.updateOrPush name fun v => { v with value := value, hidden := true }

/-- Removes the variable of a name. -/
def remove (name : String) (o : Object) : Object :=
  match o.members.findIdx? (·.name == name) with
  | some i => { o with members := o.members.eraseIdxIfInBounds i }
  | none => o

/-- Whether an object is a function. -/
def isCallable (o : Object) : Bool := o.callable.isSome

/-- The name of an object's class. -/
def className (o : Object) : String :=
  if o.isCallable then "Function"
  else match o.payload with
    | .plain => "Object"
    | .array _ => "Array"
    | .date _ => "Date"
    | .string _ => "String"
    | .boolean _ => "Boolean"
    | .number _ => "Number"
    | .error _ => "Error"

end Object

end PageScript
