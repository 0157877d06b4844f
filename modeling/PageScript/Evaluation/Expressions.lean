import PageScript.Evaluation.Calls
import PageScript.Evaluation.Watch

/-! # Expressions

Operands are evaluated from left to right, each as a task of its own.
-/

set_option autoImplicit false

namespace PageScript

/-- The value of a literal. -/
def Literal.value : Literal → Value
  | .null => .null
  | .boolean b => .boolean b
  | .number n => .number n
  | .string s => .string s

/-- Whether the first operand of a logical operator decides its result. -/
def LogicalOp.isDecidedBy (op : LogicalOp) (first : Bool) : Bool :=
  match op with
  | .and => !first
  | .or => first

/-- The name that a key of an object literal stands for. -/
def PropertyKey.memberName : PropertyKey → String
  | .name s => s
  | .string s => s
  | .number n => n.text

namespace Script

/-- Makes an array of the values of its elements; holes stay empty. -/
def evaluateArray (elements : List (Option Expression)) : Script Value := do
  let array ← newArray elements.length
  fold (fun _ (element, i) => do
    if let some e := element then
      let _ ← writeMember array (ArrayIndex.name i) (← evaluate e)) elements.zipIdx ()
  return .ref array

/-- Makes an object of the values of its properties. -/
def evaluateObject (properties : List (PropertyKey × Expression)) : Script Value := do
  let object ← newObject
  fold (fun _ (key, e) => do
    let _ ← writeMember object key.memberName (← evaluate e)) properties ()
  return .ref object

/-- Makes the function of a function expression.  One with a name sees itself under that name, in a
scope of its own in front of the enclosing one. -/
def evaluateFunction (tree : FunctionTree) : Script Value := do
  let locals ← read (·.frame.locals)
  match tree.name with
  | none => return .ref (← newFunction tree locals)
  | some name =>
    let scope ← alloc (.empty (some locals))
    let f ← newFunction tree scope
    modifyObject scope (·.put name (.ref f))
    return .ref f

/-- The name of the type of an expression; a name that stands for nothing is undefined. -/
def evaluateTypeOf (operand : Expression) : Script Value := do
  let v ← match operand with
    | .identifier name =>
      match ← read (·.lookup name) with
      | some b => readVariable b.location
      | none => pure .undefined
    | e => evaluate e
  return .string (← typeName v)

/-- Evaluates an operator with one operand. -/
def evaluateUnary (op : UnaryOp) (operand : Expression) : Script Value := do
  match op with
  | .typeOf => evaluateTypeOf operand
  | .delete => delete operand
  | op => applyUnary op (← evaluate operand)

/-- Evaluates an expression by its form. -/
def expressionForm (e : Expression) : Script Value := do
  match e with
  | .literal l => return l.value
  | .identifier name => readVariable (← binding name).location
  | .this => read fun m => .ref (m.frame.this.getD Intrinsic.globalObject)
  | .array elements => evaluateArray elements
  | .object properties => evaluateObject properties
  | .function tree => evaluateFunction tree
  | .unary op operand => evaluateUnary op operand
  | .binary op left right =>
    let l ← evaluate left
    let r ← evaluate right
    applyBinary op l r
  | .logical op left right =>
    let l ← evaluate left
    if op.isDecidedBy l.isTruthy then return l else evaluate right
  | .update op before target => update op before target
  | .assign op target value => assign op target value
  | .conditional test yes no =>
    if (← evaluate test).isTruthy then evaluate yes else evaluate no
  | .call callee args => evaluateCall callee args
  | .construct callee args => evaluateNew callee args
  | .member object name =>
    let (base, name) ← evaluateMember object (return name)
    readMember base name
  | .index object key =>
    let (base, name) ← evaluateMember object (evaluateKey key)
    readMember base name
  | .sequence parts => fold (fun _ e => evaluate e) parts .undefined

/-- Runs an expression as the next element of the run. -/
def runExpression (e : Expression) : Script Value := do
  poll
  expressionForm e

end Script

end PageScript
