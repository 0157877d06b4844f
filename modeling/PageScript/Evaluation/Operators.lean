import PageScript.Conversion

/-! # Operators on values

What the operators do with operands that are already evaluated.  Conversions happen from left to
right.
-/

set_option autoImplicit false

namespace PageScript

/-- The result of a comparison, by the order of its operands. -/
def BinaryOp.holds (op : BinaryOp) (order : Option Ordering) : Bool :=
  match op, order with
  | .less, some .lt => true
  | .greater, some .gt => true
  | .lessEqual, some .lt | .lessEqual, some .eq => true
  | .greaterEqual, some .gt | .greaterEqual, some .eq => true
  | _, _ => false

/-- Arithmetic on two numbers. -/
def BinaryOp.arithmetic (op : BinaryOp) (x y : Number) : Number :=
  match op with
  | .sub => x.sub y
  | .mul => x.mul y
  | .div => x.div y
  | _ => x.rem y

/-- Operations on the bits of two numbers.  A shift goes by the low five bits of its second operand. -/
def BinaryOp.bits (op : BinaryOp) (x y : Number) : Number :=
  let count := y.toUInt32 &&& 31
  match op with
  | .shiftLeft => .ofInt32 (x.toInt32 <<< count.toInt32)
  | .shiftRight => .ofInt32 (x.toInt32 >>> count.toInt32)
  | .unsignedShiftRight => .ofUInt32 (x.toUInt32 >>> count)
  | .bitAnd => .ofInt32 (x.toInt32 &&& y.toInt32)
  | .bitOr => .ofInt32 (x.toInt32 ||| y.toInt32)
  | _ => .ofInt32 (x.toInt32 ^^^ y.toInt32)

namespace Script

/-- Applies an operator to its one operand; a deletion is not an operation on a value. -/
def applyUnary (op : UnaryOp) (v : Value) : Script Value := do
  match op with
  | .minus => return .number (← toNumber v).neg
  | .plus => return .number (← toNumber v)
  | .not => return .boolean (!v.isTruthy)
  | .complement => return .number (.ofInt32 (~~~(← toNumber v).toInt32))
  | .typeOf => return .string (← typeName v)
  | .void => return .undefined
  | .delete => return .boolean true

/-- Adds two values: as strings if either operand comes down to one, and else as numbers. -/
def addValues (l r : Value) : Script Value := do
  let a ← addend l
  let b ← addend r
  if a.isString || b.isString then
    let s ← toText a
    let t ← toText b
    return .string (s ++ t)
  else
    let x ← toNumber a
    let y ← toNumber b
    return .number (x.add y)

/-- Whether an object inherits from the prototype of a function. -/
def isInstance (v : Value) (function : ObjectId) : Script Bool :=
  match v with
  | .object id _ => do
    let proto ← prototypeOf function
    read (·.heap.inheritsFrom id proto)
  | _ => return false

/-- Two operands as numbers. -/
def toNumbers (l r : Value) : Script (Number × Number) := do
  let x ← toNumber l
  let y ← toNumber r
  return (x, y)

/-- Applies an operator to its two operands. -/
def applyBinary (op : BinaryOp) (l r : Value) : Script Value := do
  match op with
  | .add => addValues l r
  | .sub | .mul | .div | .mod =>
    let (x, y) ← toNumbers l r
    return .number (op.arithmetic x y)
  | .equal => return .boolean (← looselyEqual l r)
  | .notEqual => return .boolean (!(← looselyEqual l r))
  | .strictEqual => return .boolean (l.strictEquals r)
  | .strictNotEqual => return .boolean (!l.strictEquals r)
  | .less | .greater | .lessEqual | .greaterEqual => return .boolean (op.holds (← compare l r))
  | .shiftLeft | .shiftRight | .unsignedShiftRight | .bitAnd | .bitOr | .bitXor =>
    let (x, y) ← toNumbers l r
    return .number (op.bits x y)
  | .isIn =>
    match r.id? with
    | none => typeError "invalid 'in' operand"
    | some object =>
      let name ← toText l
      read fun m => .boolean (m.heap.hasProperty object name)
  | .instanceOf =>
    match ← callable? r with
    | none => typeError "invalid 'instanceof' operand"
    | some f => return .boolean (← isInstance l f)

end Script

end PageScript
