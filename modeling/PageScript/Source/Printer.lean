import PageScript.Number.Text
import PageScript.Source.Tree

/-! # Source text of trees

`Expression.text`, `Statement.text` and `FunctionTree.text` write a tree back as source, with four
spaces for each level of blocks and parentheses around every operand that is not primary.
-/

set_option autoImplicit false

namespace PageScript

/-! ## Operators and leaves -/

/-- A unary operator as it is written before its operand. -/
def UnaryOp.symbol : UnaryOp → String
  | .minus => "-"
  | .plus => "+"
  | .not => "!"
  | .complement => "~"
  | .typeOf => "typeof "
  | .void => "void "
  | .delete => "delete "

/-- A binary operator as it is written. -/
def BinaryOp.symbol : BinaryOp → String
  | .add => "+"
  | .sub => "-"
  | .mul => "*"
  | .div => "/"
  | .mod => "%"
  | .equal => "=="
  | .notEqual => "!="
  | .strictEqual => "==="
  | .strictNotEqual => "!=="
  | .less => "<"
  | .greater => ">"
  | .lessEqual => "<="
  | .greaterEqual => ">="
  | .shiftLeft => "<<"
  | .shiftRight => ">>"
  | .unsignedShiftRight => ">>>"
  | .bitAnd => "&"
  | .bitOr => "|"
  | .bitXor => "^"
  | .isIn => "in"
  | .instanceOf => "instanceof"

/-- A logical operator as it is written. -/
def LogicalOp.symbol : LogicalOp → String
  | .and => "&&"
  | .or => "||"

/-- An update operator as it is written. -/
def UpdateOp.symbol : UpdateOp → String
  | .increment => "++"
  | .decrement => "--"

/-- An assignment operator as it is written. -/
def assignmentSymbol (op : Option BinaryOp) : String :=
  match op with
  | some op => op.symbol ++ "="
  | none => "="

namespace Printer

/-- The indentation of a level. -/
def indent (depth : Nat) : String := String.ofList (List.replicate (4 * depth) ' ')

/-- A character of a string literal. -/
def literalChar (c : Char) : List Char :=
  match c with
  | '"' => ['\\', '"']
  | '\\' => ['\\', '\\']
  | '\n' => ['\\', 'n']
  | '\r' => ['\\', 'r']
  | '\t' => ['\\', 't']
  | c => [c]

/-- A string literal. -/
def stringLiteral (s : String) : String :=
  "\"" ++ String.ofList (s.toList.flatMap literalChar) ++ "\""

/-- Items separated by commas. -/
def commas (items : List String) : String := ", ".intercalate items

end Printer

open Printer

/-- A literal as it is written. -/
def Literal.text : Literal → String
  | .null => "null"
  | .boolean b => if b then "true" else "false"
  | .number n => n.text
  | .string s => stringLiteral s

/-- The key of a property as it is written. -/
def PropertyKey.text : PropertyKey → String
  | .name s => s
  | .string s => stringLiteral s
  | .number n => n.text

/-- Operands that need no parentheses. -/
def Expression.isPrimary : Expression → Bool
  | .literal _ | .identifier _ | .this | .array _ | .object _ | .member _ _ | .index _ _
  | .call _ _ => true
  | _ => false

/-- The text of an operand, in parentheses unless it is primary. -/
def Printer.operand (e : Expression) (text : String) : String :=
  if e.isPrimary then text else "(" ++ text ++ ")"

/-- The statements of a block statement. -/
def Statement.block? (s : Statement) : Option (List Statement) :=
  match s.form with
  | .block body => some body
  | _ => none

/-- Lines of a block, each indented below `depth`, between braces. -/
def Printer.block (depth : Nat) (lines : List String) : String :=
  "\x7b\n" ++ String.join (lines.map fun l => indent (depth + 1) ++ l ++ "\n")
    ++ indent depth ++ "\x7d"

/-! ## Trees -/

mutual

/-- The source text of an expression within a statement at a level. -/
def Expression.textAt (depth : Nat) : Expression → String
  | .literal l => l.text
  | .identifier name => name
  | .this => "this"
  | .array elements => "[" ++ commas (Expression.elementTexts depth elements) ++ "]"
  | .object properties =>
    "\x7b" ++ commas (Expression.propertyTexts depth properties) ++ "\x7d"
  | .function f => f.textAt depth
  | .unary op e => op.symbol ++ operand e (e.textAt depth)
  | .binary op l r =>
    operand l (l.textAt depth) ++ " " ++ op.symbol ++ " " ++ operand r (r.textAt depth)
  | .logical op l r =>
    operand l (l.textAt depth) ++ " " ++ op.symbol ++ " " ++ operand r (r.textAt depth)
  | .update op before e =>
    if before then op.symbol ++ operand e (e.textAt depth)
    else operand e (e.textAt depth) ++ op.symbol
  | .assign op target value =>
    target.textAt depth ++ " " ++ assignmentSymbol op ++ " " ++ value.textAt depth
  | .conditional test yes no =>
    operand test (test.textAt depth) ++ " ? " ++ operand yes (yes.textAt depth) ++ " : "
      ++ operand no (no.textAt depth)
  | .call callee args =>
    operand callee (callee.textAt depth) ++ "(" ++ commas (Expression.texts depth args) ++ ")"
  | .construct callee args =>
    "new " ++ operand callee (callee.textAt depth) ++ "("
      ++ commas (Expression.texts depth args) ++ ")"
  | .member object name => operand object (object.textAt depth) ++ "." ++ name
  | .index object key => operand object (object.textAt depth) ++ "[" ++ key.textAt depth ++ "]"
  | .sequence parts => commas (Expression.texts depth parts)

/-- The source texts of expressions. -/
def Expression.texts (depth : Nat) : List Expression → List String
  | [] => []
  | e :: rest => e.textAt depth :: Expression.texts depth rest

/-- The source texts of the elements of an array literal; a hole is empty. -/
def Expression.elementTexts (depth : Nat) : List (Option Expression) → List String
  | [] => []
  | some e :: rest => e.textAt depth :: Expression.elementTexts depth rest
  | none :: rest => "" :: Expression.elementTexts depth rest

/-- The source texts of the properties of an object literal. -/
def Expression.propertyTexts (depth : Nat) : List (PropertyKey × Expression) → List String
  | [] => []
  | (key, e) :: rest =>
    (key.text ++ ": " ++ e.textAt depth) :: Expression.propertyTexts depth rest

/-- The source text of an optional expression. -/
def Expression.optionalText (depth : Nat) : Option Expression → String
  | some e => e.textAt depth
  | none => ""

/-- The source text of a declarator. -/
def Declarator.textAt (depth : Nat) : Declarator → String
  | .mk name none => name
  | .mk name (some e) => name ++ " = " ++ e.textAt depth

/-- The source texts of declarators. -/
def Declarator.texts (depth : Nat) : List Declarator → List String
  | [] => []
  | d :: rest => d.textAt depth :: Declarator.texts depth rest

/-- The source text of the start of a `for` statement. -/
def ForStart.textAt (depth : Nat) : ForStart → String
  | .nothing => ""
  | .declare ds => "var " ++ commas (Declarator.texts depth ds)
  | .expression e => e.textAt depth

/-- The source text of a function. -/
def FunctionTree.textAt (depth : Nat) : FunctionTree → String
  | .mk name parameters body _ =>
    "function " ++ name.getD "" ++ "(" ++ commas parameters ++ ") "
      ++ block depth (Statement.texts (depth + 1) body)

/-- The source text of a statement at a level. -/
def Statement.textAt (depth : Nat) : Statement → String
  | .mk _ form => form.textAt depth

/-- The source texts of statements at a level. -/
def Statement.texts (depth : Nat) : List Statement → List String
  | [] => []
  | s :: rest => s.textAt depth :: Statement.texts depth rest

/-- The body of a loop or branch: a block goes on behind a space, any other statement on a line of
its own, one level deeper. -/
def Statement.bodyText (depth : Nat) : Statement → String
  | .mk _ (.block body) => " " ++ block depth (Statement.texts (depth + 1) body)
  | .mk _ form => "\n" ++ indent (depth + 1) ++ form.textAt (depth + 1)

/-- The source text of a clause of a `switch` statement at a level. -/
def SwitchClause.textAt (depth : Nat) : SwitchClause → String
  | .mk test body =>
    indent (depth + 1) ++
      (match test with
        | some e => "case " ++ e.textAt (depth + 1) ++ ":\n"
        | none => "default:\n") ++
      String.join ((Statement.texts (depth + 2) body).map fun l => indent (depth + 2) ++ l ++ "\n")

/-- The source texts of the clauses of a `switch` statement. -/
def SwitchClause.texts (depth : Nat) : List SwitchClause → List String
  | [] => []
  | c :: rest => c.textAt depth :: SwitchClause.texts depth rest

/-- The source text of a form of statement at a level. -/
def StatementForm.textAt (depth : Nat) : StatementForm → String
  | .empty => ";"
  | .expression e => e.textAt depth ++ ";"
  | .block body => block depth (Statement.texts (depth + 1) body)
  | .declare ds => "var " ++ commas (Declarator.texts depth ds) ++ ";"
  | .ifThen test yes => "if (" ++ test.textAt depth ++ ")" ++ yes.bodyText depth
  | .ifElse test yes no =>
    "if (" ++ test.textAt depth ++ ")" ++ yes.bodyText depth ++ "\n" ++ indent depth ++ "else"
      ++ no.bodyText depth
  | .whileLoop test body => "while (" ++ test.textAt depth ++ ")" ++ body.bodyText depth
  | .doLoop body test =>
    "do" ++ body.bodyText depth
      ++ (if body.block?.isSome then " " else "\n" ++ indent depth)
      ++ "while (" ++ test.textAt depth ++ ");"
  | .forLoop start test update body =>
    "for (" ++ start.textAt depth ++ "; " ++ Expression.optionalText depth test ++ "; "
      ++ Expression.optionalText depth update ++ ")" ++ body.bodyText depth
  | .forVariable d object body =>
    "for (var " ++ d.textAt depth ++ " in " ++ object.textAt depth ++ ")" ++ body.bodyText depth
  | .forTarget target object body =>
    "for (" ++ target.textAt depth ++ " in " ++ object.textAt depth ++ ")" ++ body.bodyText depth
  | .returnValue none => "return;"
  | .returnValue (some e) => "return " ++ e.textAt depth ++ ";"
  | .breakTo none => "break;"
  | .breakTo (some label) => "break " ++ label ++ ";"
  | .continueTo none => "continue;"
  | .continueTo (some label) => "continue " ++ label ++ ";"
  | .throw e => "throw " ++ e.textAt depth ++ ";"
  | .tryCatch body parameter handler =>
    "try " ++ block depth (Statement.texts (depth + 1) body)
      ++ " catch (" ++ parameter ++ ") " ++ block depth (Statement.texts (depth + 1) handler)
  | .tryFinally body final =>
    "try " ++ block depth (Statement.texts (depth + 1) body)
      ++ " finally " ++ block depth (Statement.texts (depth + 1) final)
  | .tryCatchFinally body parameter handler final =>
    "try " ++ block depth (Statement.texts (depth + 1) body)
      ++ " catch (" ++ parameter ++ ") " ++ block depth (Statement.texts (depth + 1) handler)
      ++ " finally " ++ block depth (Statement.texts (depth + 1) final)
  | .switch value clauses =>
    "switch (" ++ value.textAt depth ++ ") \x7b\n" ++ String.join (SwitchClause.texts depth clauses)
      ++ indent depth ++ "\x7d"
  | .labeled label body => label ++ ": " ++ body.textAt depth
  | .withObject object body => "with (" ++ object.textAt depth ++ ")" ++ body.bodyText depth
  | .function f => f.textAt depth

end

/-- The source text of an expression. -/
def Expression.text (e : Expression) : String := e.textAt 0

/-- The source text of a statement. -/
def Statement.text (s : Statement) : String := s.textAt 0

/-- The source text of a function. -/
def FunctionTree.text (f : FunctionTree) : String := f.textAt 0

end PageScript
