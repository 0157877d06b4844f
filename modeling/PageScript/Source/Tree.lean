import PageScript.Number.Basic

/-! # Syntax trees

Expressions, statements and functions as the parser builds them.  A statement knows the line on
which it starts, and a function the line of its `function` keyword.
-/

set_option autoImplicit false

namespace PageScript

/-! ## Operators -/

/-- Operators on one operand, written before it. -/
inductive UnaryOp where
  | minus | plus | not | complement | typeOf | void | delete
  deriving DecidableEq, Repr

/-- Operators that evaluate both operands. -/
inductive BinaryOp where
  | add | sub | mul | div | mod | equal | notEqual | strictEqual | strictNotEqual
  | less | greater | lessEqual | greaterEqual | shiftLeft | shiftRight | unsignedShiftRight
  | bitAnd | bitOr | bitXor | isIn | instanceOf
  deriving DecidableEq, Repr

/-- Operators that may leave their second operand alone. -/
inductive LogicalOp where
  | and | or
  deriving DecidableEq, Repr

/-- The operators that change a variable by one. -/
inductive UpdateOp where
  | increment | decrement
  deriving DecidableEq, Repr

/-- A literal value. -/
inductive Literal where
  | null
  | boolean (b : Bool)
  | number (n : Number)
  | string (s : String)

/-- The key of a property in an object literal, as it was written. -/
inductive PropertyKey where
  | name (s : String)
  | string (s : String)
  | number (n : Number)

/-! ## Trees -/

mutual

/-- Expressions.  An assignment carries the operator of a compound one; holes of an array literal
are `none`. -/
inductive Expression where
  | literal (l : Literal)
  | identifier (name : String)
  | this
  | array (elements : List (Option Expression))
  | object (properties : List (PropertyKey × Expression))
  | function (f : FunctionTree)
  | unary (op : UnaryOp) (operand : Expression)
  | binary (op : BinaryOp) (left right : Expression)
  | logical (op : LogicalOp) (left right : Expression)
  | update (op : UpdateOp) (before : Bool) (target : Expression)
  | assign (op : Option BinaryOp) (target value : Expression)
  | conditional (test yes no : Expression)
  | call (callee : Expression) (arguments : List Expression)
  | construct (callee : Expression) (arguments : List Expression)
  | member (object : Expression) (name : String)
  | index (object key : Expression)
  | sequence (parts : List Expression)

/-- A declared variable with its initial value. -/
inductive Declarator where
  | mk (name : String) (initial : Option Expression)

/-- A clause of a `switch` statement; the default clause has no test. -/
inductive SwitchClause where
  | mk (test : Option Expression) (body : List Statement)

/-- What a `for` statement does first. -/
inductive ForStart where
  | nothing
  | declare (declarators : List Declarator)
  | expression (e : Expression)

/-- A function literal or declaration. -/
inductive FunctionTree where
  | mk (name : Option String) (parameters : List String) (body : List Statement) (line : Nat)

/-- A statement and the line on which it starts. -/
inductive Statement where
  | mk (line : Nat) (form : StatementForm)

/-- The forms of statements. -/
inductive StatementForm where
  | empty
  | expression (e : Expression)
  | block (body : List Statement)
  | declare (declarators : List Declarator)
  | ifThen (test : Expression) (yes : Statement)
  | ifElse (test : Expression) (yes no : Statement)
  | whileLoop (test : Expression) (body : Statement)
  | doLoop (body : Statement) (test : Expression)
  | forLoop (start : ForStart) (test update : Option Expression) (body : Statement)
  | forVariable (declarator : Declarator) (object : Expression) (body : Statement)
  | forTarget (target object : Expression) (body : Statement)
  | returnValue (value : Option Expression)
  | breakTo (label : Option String)
  | continueTo (label : Option String)
  | throw (value : Expression)
  | tryCatch (body : List Statement) (parameter : String) (handler : List Statement)
  | tryFinally (body final : List Statement)
  | tryCatchFinally (body : List Statement) (parameter : String) (handler final : List Statement)
  | switch (value : Expression) (clauses : List SwitchClause)
  | labeled (label : String) (body : Statement)
  | withObject (object : Expression) (body : Statement)
  | function (f : FunctionTree)

end

instance : Inhabited Expression := ⟨.this⟩
instance : Inhabited Statement := ⟨.mk 0 .empty⟩
instance : Inhabited FunctionTree := ⟨.mk none [] [] 0⟩

/-! ## Parts -/

namespace Statement

/-- The line on which a statement starts. -/
def line : Statement → Nat
  | .mk line _ => line

/-- What a statement does. -/
def form : Statement → StatementForm
  | .mk _ form => form

/-- Whether a statement is a loop. -/
def isLoop (s : Statement) : Bool :=
  match s.form with
  | .whileLoop .. | .doLoop .. | .forLoop .. | .forVariable .. | .forTarget .. => true
  | _ => false

end Statement

namespace FunctionTree

/-- The name of a function, if it has one. -/
def name : FunctionTree → Option String
  | .mk name _ _ _ => name

/-- The names of a function's parameters. -/
def parameters : FunctionTree → List String
  | .mk _ parameters _ _ => parameters

/-- The statements of a function. -/
def body : FunctionTree → List Statement
  | .mk _ _ body _ => body

/-- The line of a function's keyword. -/
def line : FunctionTree → Nat
  | .mk _ _ _ line => line

end FunctionTree

/-- Whether an expression can be assigned to. -/
def Expression.isTarget : Expression → Bool
  | .identifier _ | .member _ _ | .index _ _ => true
  | _ => false

end PageScript
