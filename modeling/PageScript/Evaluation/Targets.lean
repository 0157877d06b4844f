import PageScript.Evaluation.Operators
import PageScript.Source.Printer
import PageScript.Variables.Writing

/-! # Targets of assignments

A target is found before the assigned value is evaluated.  A compound assignment and an update read
the target, apply an operator and write the same target again.
-/

set_option autoImplicit false

namespace PageScript

/-- What can be assigned to: a variable, or a member of an object. -/
inductive Target where
  | variable (place : Location)
  | member (object : ObjectId) (name : String)

namespace Script

/-- Evaluates an expression. -/
@[inline] def evaluate (e : Expression) : Script Value := perform (.expression e)

/-- The member name that an expression in brackets comes to. -/
def evaluateKey (key : Expression) : Script String := do toText (← evaluate key)

/-- The base and the name of a member expression; nothing has no members. -/
def evaluateMember (object : Expression) (key : Script String) : Script (Value × String) := do
  let base ← evaluate object
  let name ← key
  if base.isNothing then typeError (object.text ++ " has no properties")
  return (base, name)

/-- A member of the object of a base. -/
def memberTarget (object : Expression) (key : Script String) : Script Target := do
  let (base, name) ← evaluateMember object key
  return .member (← toObject base) name

/-- The target that an expression stands for. -/
def findTarget (e : Expression) : Script Target := do
  match e with
  | .identifier name => return .variable (← binding name).location
  | .member object name => memberTarget object (return name)
  | .index object key => memberTarget object (evaluateKey key)
  | e => raise .reference ("invalid assignment target: " ++ e.text)

/-- Reads a target. -/
def readTarget (target : Target) : Script Value :=
  match target with
  | .variable place => readVariable place
  | .member object name => readMember (.ref object) name

/-- Writes a target and yields the value. -/
def writeTarget (target : Target) (v : Value) : Script Value :=
  match target with
  | .variable place => do
    let _ ← writeVariable place v
    return v
  | .member object name => writeMember object name v

/-- Assigns the value of an expression, combined with the old value by the operator if there is one. -/
def assign (op : Option BinaryOp) (target value : Expression) : Script Value := do
  let target ← findTarget target
  match op with
  | none => writeTarget target (← evaluate value)
  | some op =>
    let old ← readTarget target
    let v ← evaluate value
    writeTarget target (← applyBinary op old v)

/-- Changes a number by one. -/
def applyUpdate (op : UpdateOp) (n : Number) : Number :=
  match op with
  | .increment => n.add (.ofNat 1)
  | .decrement => n.sub (.ofNat 1)

/-- Changes a target by one, and yields the new number if the operator stands before it and else the
old one. -/
def update (op : UpdateOp) (before : Bool) (target : Expression) : Script Value := do
  let target ← findTarget target
  let old ← toNumber (← readTarget target)
  let new := applyUpdate op old
  let _ ← writeTarget target (.number new)
  return .number (if before then new else old)

/-- Deletes a member of the base of a member expression; a primitive has none to keep. -/
def deleteFrom (object : Expression) (key : Script String) : Script Bool := do
  let base ← evaluate object
  let name ← key
  match base.id? with
  | some id => deleteMember id name
  | none => return true

/-- Deletes what an expression names.  Anything that is no target is evaluated and counts as
deleted. -/
def delete (e : Expression) : Script Value := do
  match e with
  | .member object name => return .boolean (← deleteFrom object (return name))
  | .index object key => return .boolean (← deleteFrom object (evaluateKey key))
  | .identifier name =>
    match ← read (·.lookup name) with
    | some b => return .boolean (← deleteMember b.location.object b.location.name)
    | none => return .boolean true
  | e =>
    let _ ← evaluate e
    return .boolean true

end Script

end PageScript
