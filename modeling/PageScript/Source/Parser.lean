import PageScript.Source.Lexer
import PageScript.Source.Tree

/-! # From lexemes to trees

A parser takes a list of lexemes and gives a tree with the unread ones, or the first error.

* `Goal` lists what is parsed one level of nesting deeper than its surroundings; `Goal.rule` gives
  the grammar of each goal in terms of the goals one level deeper, and `Goal.parse` ties the knot.
  The number of levels left is what the recursion runs on, so the nesting limit is also the reason
  why parsing ends.
* Every operator of a left-associative chain and every suffix opens a level of its own.
* `Surroundings` says what a statement stands in: labels, a function, a loop, a `switch`, and whether
  `in` is no operator there.
-/

set_option autoImplicit false

namespace PageScript

/-! ## Errors -/

/-- Why a text is no program. -/
inductive SyntaxCause where
  | lexical (cause : LexicalError)
  | tooDeep
  | expected (wanted found : Token)
  | expectedSemicolon (found : Token)
  | expectedIdentifier (found : Token)
  | expectedClause (found : Token)
  | expectedMember
  | unexpected (found : Token)
  | unexpectedKey (found : Token)
  | badAssignmentTarget
  | badPrefixTarget
  | badPostfixTarget
  | badLoopTarget
  | functionWithoutName
  | undefinedLabel (name : String)
  | returnOutside
  | breakOutside
  | continueOutside
  | brokenThrow
  | tryAlone
  | secondDefault

/-- The wording of a syntax error. -/
def SyntaxCause.message : SyntaxCause → String
  | .lexical cause => cause.message
  | .tooDeep => "Expression nested too deeply"
  | .expected wanted found => "Expected " ++ wanted.describe ++ ", got " ++ found.describe
  | .expectedSemicolon found => "Expected ';', got " ++ found.describe
  | .expectedIdentifier found => "Expected identifier, got " ++ found.describe
  | .expectedClause found => "Expected case or default, got " ++ found.describe
  | .expectedMember => "Expected identifier after '.'"
  | .unexpected found => "Unexpected token " ++ found.describe
  | .unexpectedKey found => "Unexpected token " ++ found.describe ++ " in object literal"
  | .badAssignmentTarget => "Invalid left-hand side in assignment"
  | .badPrefixTarget => "Invalid left-hand side in prefix operation"
  | .badPostfixTarget => "Invalid left-hand side in postfix operation"
  | .badLoopTarget => "Invalid left-hand side in for-in"
  | .functionWithoutName => "Function statement requires a name"
  | .undefinedLabel name => "Undefined label '" ++ name ++ "'"
  | .returnOutside => "'return' outside of function"
  | .breakOutside => "'break' outside of loop or switch"
  | .continueOutside => "'continue' outside of loop"
  | .brokenThrow => "Illegal newline after throw"
  | .tryAlone => "Missing catch or finally after try"
  | .secondDefault => "More than one default clause in switch"

/-- A syntax error and the line on which it was met. -/
structure SyntaxError where
  cause : SyntaxCause
  line : Nat

namespace SyntaxError

/-- The wording of a syntax error without its line. -/
def message (e : SyntaxError) : String := e.cause.message

/-- A syntax error as it is shown. -/
def display (e : SyntaxError) : String :=
  "SyntaxError: " ++ e.message ++ " (line " ++ toString e.line ++ ")"

end SyntaxError

/-! ## Parsers -/

/-- A reader of lexemes. -/
abbrev Parser (α : Type) := StateT (List Lexeme) (Except SyntaxError) α

namespace Parser

variable {α : Type}

/-- The first unread lexeme. -/
def head : List Lexeme → Lexeme
  | t :: _ => t
  | [] => ⟨.finish, 0, false⟩

/-- The first unread lexeme, which stays unread. -/
def peek : Parser Lexeme := fun ts => .ok (head ts, ts)

/-- The first unread token, which stays unread. -/
def current : Parser Token := fun ts => .ok ((head ts).token, ts)

/-- Fails at the first unread lexeme. -/
def fail (cause : SyntaxCause) : Parser α := fun ts => .error ⟨cause, (head ts).line⟩

/-- Fails if the first unread lexeme is no token. -/
def checked : Parser Unit := fun ts =>
  match (head ts).token with
  | .invalid cause => .error ⟨.lexical cause, (head ts).line⟩
  | _ => .ok ((), ts)

/-- Passes over one token. -/
def advance : Parser Unit := fun ts => checked ts.tail

/-- Passes over a given mark. -/
def expectMark (m : Mark) : Parser Unit := do
  let t ← current
  if t.isMark m then advance else fail (.expected (.mark m) t)

/-- Passes over a given reserved word. -/
def expectKeyword (k : Keyword) : Parser Unit := do
  let t ← current
  if t.isKeyword k then advance else fail (.expected (.keyword k) t)

/-- Passes over a mark if it comes next, and says whether it did. -/
def skipMark (m : Mark) : Parser Bool := do
  if (← current).isMark m then
    advance
    return true
  else return false

/-- Passes over an identifier. -/
def identifier : Parser String := do
  match ← current with
  | .identifier name =>
    advance
    return name
  | t => fail (.expectedIdentifier t)

/-- Passes over the end of a statement.  The semicolon may be left out before a line break, before a
closing brace and at the end of the text. -/
def endStatement : Parser Unit := do
  let t ← peek
  if t.token.isMark .semicolon then advance
  else if t.afterBreak || t.token.isMark .rightBrace || t.token.isFinish then return ()
  else fail (.expectedSemicolon t.token)

/-- Reads items up to a token that satisfies `stop`; each item sees those before it, last one first.
`limit` bounds their number. -/
def collect (stop : Token → Bool) (item : List α → Parser α) :
    Nat → List α → List Lexeme → Except SyntaxError (List α × List Lexeme)
  | 0, read, ts => .ok (read.reverse, ts)
  | limit + 1, read, ts =>
    if stop (head ts).token then .ok (read.reverse, ts)
    else
      match item read ts with
      | .ok (x, rest) => collect stop item limit (x :: read) rest
      | .error e => .error e

/-- Reads items up to a token that satisfies `stop`.  Every item takes at least one lexeme, so there
are no more items than lexemes. -/
def many (stop : Token → Bool) (item : List α → Parser α) : Parser (List α) :=
  fun ts => if stop (head ts).token then .ok ([], ts) else collect stop item ts.length [] ts

/-- Reads items up to a closing mark, each followed by a comma unless the mark comes next. -/
def commaItems (close : Mark) (item : Parser α) : Parser (List α) :=
  many (·.isMark close) fun _ => do
    let x ← item
    if !(← current).isMark close then expectMark .comma
    return x

/-- Reads one or more items with commas between them. -/
def commaSeparated (item : Parser α) : Parser (List α) := do
  let first ← item
  let rest ← many (!·.isMark .comma) fun _ => do
    advance
    item
  return first :: rest

end Parser

/-! ## Goals -/

/-- What a statement or expression stands in. -/
structure Surroundings where
  labels : List String
  inFunction : Bool
  inLoop : Bool
  inSwitch : Bool
  withoutIn : Bool

namespace Surroundings

/-- Around a whole program. -/
def program : Surroundings := ⟨[], false, false, false, false⟩

/-- Around the body of a function: nothing outside of it counts. -/
def functionBody : Surroundings := ⟨[], true, false, false, false⟩

/-- Between brackets `in` is an operator again. -/
def bracketed (s : Surroundings) : Surroundings := { s with withoutIn := false }

/-- In the head of a `for` statement `in` is no operator. -/
def loopHead (s : Surroundings) : Surroundings := { s with withoutIn := true }

/-- Inside the body of a loop. -/
def loopBody (s : Surroundings) : Surroundings := { s with inLoop := true }

/-- Inside the clauses of a `switch`. -/
def switchBody (s : Surroundings) : Surroundings := { s with inSwitch := true }

/-- Behind a label. -/
def labeled (name : String) (s : Surroundings) : Surroundings :=
  { s with labels := name :: s.labels }

end Surroundings

/-- The operators of one precedence. -/
inductive Tier where
  | logicalOr | logicalAnd | bitOr | bitXor | bitAnd | equality | relational | shift | additive
  | multiplicative
  deriving DecidableEq, Repr

/-- An operator between two operands. -/
inductive Infix where
  | binary (op : BinaryOp)
  | logical (op : LogicalOp)

/-- The expression of an operator on two operands. -/
def Infix.apply : Infix → Expression → Expression → Expression
  | .binary op => .binary op
  | .logical op => .logical op

namespace Tier

/-- All precedences, from the loosest to the tightest. -/
def all : List Tier :=
  [.logicalOr, .logicalAnd, .bitOr, .bitXor, .bitAnd, .equality, .relational, .shift, .additive,
    .multiplicative]

/-- The operator of a precedence that a token stands for. -/
def operator? (withoutIn : Bool) (tier : Tier) (t : Token) : Option Infix :=
  match t with
  | .mark m =>
    match tier, m with
    | .logicalOr, .logicalOr => some (.logical .or)
    | .logicalAnd, .logicalAnd => some (.logical .and)
    | .bitOr, .pipe => some (.binary .bitOr)
    | .bitXor, .caret => some (.binary .bitXor)
    | .bitAnd, .ampersand => some (.binary .bitAnd)
    | .equality, .equal => some (.binary .equal)
    | .equality, .notEqual => some (.binary .notEqual)
    | .equality, .strictEqual => some (.binary .strictEqual)
    | .equality, .strictNotEqual => some (.binary .strictNotEqual)
    | .relational, .less => some (.binary .less)
    | .relational, .greater => some (.binary .greater)
    | .relational, .lessEqual => some (.binary .lessEqual)
    | .relational, .greaterEqual => some (.binary .greaterEqual)
    | .shift, .shiftLeft => some (.binary .shiftLeft)
    | .shift, .shiftRight => some (.binary .shiftRight)
    | .shift, .unsignedShiftRight => some (.binary .unsignedShiftRight)
    | .additive, .plus => some (.binary .add)
    | .additive, .minus => some (.binary .sub)
    | .multiplicative, .star => some (.binary .mul)
    | .multiplicative, .slash => some (.binary .div)
    | .multiplicative, .percent => some (.binary .mod)
    | _, _ => none
  | .keyword .instanceofWord =>
    if tier = .relational then some (.binary .instanceOf) else none
  | .keyword .inWord =>
    if tier = .relational ∧ ¬withoutIn then some (.binary .isIn) else none
  | _ => none

end Tier

/-- The operator of a compound assignment, if a token stands for an assignment. -/
def assignment? : Token → Option (Option BinaryOp)
  | .mark .assign => some none
  | .mark .plusAssign => some (some .add)
  | .mark .minusAssign => some (some .sub)
  | .mark .starAssign => some (some .mul)
  | .mark .slashAssign => some (some .div)
  | .mark .percentAssign => some (some .mod)
  | .mark .shiftLeftAssign => some (some .shiftLeft)
  | .mark .shiftRightAssign => some (some .shiftRight)
  | .mark .unsignedShiftRightAssign => some (some .unsignedShiftRight)
  | .mark .ampersandAssign => some (some .bitAnd)
  | .mark .pipeAssign => some (some .bitOr)
  | .mark .caretAssign => some (some .bitXor)
  | _ => none

/-- The operator that a token stands for before its operand. -/
def unaryOperator? : Token → Option UnaryOp
  | .keyword .deleteWord => some .delete
  | .keyword .voidWord => some .void
  | .keyword .typeofWord => some .typeOf
  | .mark .minus => some .minus
  | .mark .plus => some .plus
  | .mark .bang => some .not
  | .mark .tilde => some .complement
  | _ => none

/-- The update operator that a token stands for. -/
def updateOperator? : Token → Option UpdateOp
  | .mark .increment => some .increment
  | .mark .decrement => some .decrement
  | _ => none

/-- What is parsed one level of nesting below its surroundings: statements, assignment expressions,
operands of prefix operators and of `new`, and whatever follows an operator or opens a suffix. -/
inductive Goal where
  | statement
  | assignment
  | unary
  | construct
  | operand (tier : Tier) (tighter : List Tier) (left : Expression) (op : Infix)
  | memberName (object : Expression) (calls : Bool)
  | memberKey (object : Expression) (calls : Bool)
  | arguments (callee : Expression)

namespace Goal

/-- What a goal yields. -/
abbrev Result : Goal → Type
  | .statement => Statement
  | _ => Expression

/-- Parsers for the goals one level deeper. -/
abbrev Deeper := (g : Goal) → Surroundings → Parser g.Result

section
variable (deeper : Deeper) (s : Surroundings)
open PageScript.Parser

/-! ## Expressions -/

/-- One assignment expression, or several in a sequence. -/
def expression : Parser Expression := do
  match ← commaSeparated (deeper .assignment s) with
  | [e] => return e
  | es => return .sequence es

/-- The statements of a block with its braces. -/
def block : Parser (List Statement) := do
  expectMark .leftBrace
  let body ← many (fun t => t.isMark .rightBrace || t.isFinish) fun _ => deeper .statement s
  expectMark .rightBrace
  return body

/-- A function from its keyword on. -/
def function (needsName : Bool) : Parser FunctionTree := do
  let line := (← peek).line
  expectKeyword .functionWord
  let name ← match ← current with
    | .identifier name => do
      advance
      pure (some name)
    | _ => if needsName then fail .functionWithoutName else pure none
  expectMark .leftParen
  let parameters ← commaItems .rightParen identifier
  expectMark .rightParen
  let body ← block deeper .functionBody
  return .mk name parameters body line

/-- The arguments of a call with their parentheses. -/
def argumentList : Parser (List Expression) := do
  expectMark .leftParen
  let args ← commaItems .rightParen (deeper .assignment s.bracketed)
  expectMark .rightParen
  return args

/-- One element of an array literal with the comma behind it. -/
def element : Parser (Option Expression) := do
  if ← skipMark .comma then return none
  let e ← deeper .assignment s
  if !(← current).isMark .rightBracket then expectMark .comma
  return some e

/-- The key of a property in an object literal. -/
def propertyKey : Parser PropertyKey := do
  let key ← match ← current with
    | .identifier name => pure (.name name)
    | .keyword k => pure (.name k.spelling)
    | .string text => pure (.string text)
    | .number n => pure (.number n)
    | t => fail (.unexpectedKey t)
  advance
  return key

/-- A property of an object literal. -/
def property : Parser (PropertyKey × Expression) := do
  let key ← propertyKey
  expectMark .colon
  let value ← deeper .assignment s
  return (key, value)

/-- Passes over a token that is an expression by itself. -/
def leaf (e : Expression) : Parser Expression := do
  advance
  return e

/-- Names, literals, functions and expressions in parentheses. -/
def primary : Parser Expression := do
  match ← current with
  | .keyword .thisWord => leaf .this
  | .identifier name => leaf (.identifier name)
  | .number n => leaf (.literal (.number n))
  | .string text => leaf (.literal (.string text))
  | .boolean b => leaf (.literal (.boolean b))
  | .null => leaf (.literal .null)
  | .keyword .functionWord => return .function (← function deeper false)
  | .mark .leftParen =>
    advance
    let e ← expression deeper s.bracketed
    expectMark .rightParen
    return e
  | .mark .leftBracket =>
    advance
    let elements ← many (·.isMark .rightBracket) fun _ => element deeper s
    expectMark .rightBracket
    return .array elements
  | .mark .leftBrace =>
    advance
    let properties ← commaItems .rightBrace (property deeper s)
    expectMark .rightBrace
    return .object properties
  | t => fail (.unexpected t)

/-- The member accesses, and the calls if they are allowed, that follow an expression. -/
def suffixes (calls : Bool) (e : Expression) : Parser Expression := do
  match ← current with
  | .mark .dot =>
    advance
    deeper (.memberName e calls) s
  | .mark .leftBracket =>
    advance
    deeper (.memberKey e calls) s
  | .mark .leftParen => if calls then deeper (.arguments e) s else return e
  | _ => return e

/-- A `new` expression from its keyword on, with the arguments that belong to it. -/
def newExpression : Parser Expression := do
  advance
  let callee ←
    if (← current).isKeyword .newWord then deeper .construct s
    else suffixes deeper s false (← primary deeper s)
  let args ←
    if (← current).isMark .leftParen then argumentList deeper s else pure []
  return .construct callee args

/-- An expression with its suffixes. -/
def leftHandSide : Parser Expression := do
  let e ←
    if (← current).isKeyword .newWord then newExpression deeper s else primary deeper s
  suffixes deeper s true e

/-- An expression, changed by one afterwards or not; the operator has to stand on its line. -/
def postfixed : Parser Expression := do
  let e ← leftHandSide deeper s
  let t ← peek
  if t.afterBreak then return e
  match updateOperator? t.token with
  | none => return e
  | some op =>
    if !e.isTarget then fail .badPostfixTarget
    advance
    return .update op false e

/-- An expression behind any number of prefix operators. -/
def prefixed : Parser Expression := do
  let t ← current
  match unaryOperator? t, updateOperator? t with
  | some op, _ =>
    advance
    return .unary op (← deeper .unary s)
  | none, some op =>
    advance
    let target ← deeper .unary s
    if !target.isTarget then fail .badPrefixTarget
    return .update op true target
  | none, none => postfixed deeper s

/-- Goes on with a chain of one precedence after its left part. -/
def chain (tier : Tier) (tighter : List Tier) (left : Expression) : Parser Expression := do
  match tier.operator? s.withoutIn (← current) with
  | some op =>
    advance
    deeper (.operand tier tighter left op) s
  | none => return left

/-- An expression of the given precedences, loosest first. -/
def tiers : List Tier → Parser Expression
  | [] => prefixed deeper s
  | tier :: tighter => do
    let left ← tiers tighter
    chain deeper s tier tighter left

/-- A conditional expression, or one without a condition. -/
def conditional : Parser Expression := do
  let test ← tiers deeper s Tier.all
  if ← skipMark .question then
    let yes ← deeper .assignment s.bracketed
    expectMark .colon
    let no ← deeper .assignment s
    return .conditional test yes no
  else return test

/-- An assignment, or an expression without one. -/
def assignmentExpression : Parser Expression := do
  let left ← conditional deeper s
  match assignment? (← current) with
  | none => return left
  | some op =>
    if !left.isTarget then fail .badAssignmentTarget
    advance
    return .assign op left (← deeper .assignment s)

/-- The name of a member behind a dot; reserved words are allowed. -/
def dotName : Parser String := do
  let name ← match ← current with
    | .identifier name => pure name
    | .keyword k => pure k.spelling
    | .boolean b => pure (if b then "true" else "false")
    | .null => pure "null"
    | _ => fail .expectedMember
  advance
  return name

/-! ## Statements -/

/-- An expression in parentheses. -/
def parenthesized : Parser Expression := do
  expectMark .leftParen
  let e ← expression deeper s
  expectMark .rightParen
  return e

/-- A declarator with its initial value, if any. -/
def declarator : Parser Declarator := do
  let name ← identifier
  if ← skipMark .assign then return .mk name (some (← deeper .assignment s))
  else return .mk name none

/-- An `if` statement. -/
def ifStatement : Parser StatementForm := do
  advance
  let test ← parenthesized deeper s
  let yes ← deeper .statement s
  if (← current).isKeyword .elseWord then
    advance
    return .ifElse test yes (← deeper .statement s)
  else return .ifThen test yes

/-- A `while` statement. -/
def whileStatement : Parser StatementForm := do
  advance
  let test ← parenthesized deeper s
  return .whileLoop test (← deeper .statement s.loopBody)

/-- A `do` statement; the semicolon behind it may always be left out. -/
def doStatement : Parser StatementForm := do
  advance
  let body ← deeper .statement s.loopBody
  expectKeyword .whileWord
  let test ← parenthesized deeper s
  let _ ← skipMark .semicolon
  return .doLoop body test

/-- An expression, unless the given mark comes next. -/
def expressionUnless (m : Mark) : Parser (Option Expression) := do
  if (← current).isMark m then return none
  return some (← expression deeper s)

/-- The rest of a `for` statement after its start. -/
def forRest (start : ForStart) : Parser StatementForm := do
  expectMark .semicolon
  let test ← expressionUnless deeper s .semicolon
  expectMark .semicolon
  let update ← expressionUnless deeper s .rightParen
  expectMark .rightParen
  return .forLoop start test update (← deeper .statement s.loopBody)

/-- The object and the body of a loop over property names, from `in` on. -/
def forInRest : Parser (Expression × Statement) := do
  advance
  let object ← expression deeper s
  expectMark .rightParen
  return (object, ← deeper .statement s.loopBody)

/-- A `for` statement of either kind. -/
def forStatement : Parser StatementForm := do
  advance
  expectMark .leftParen
  let t ← current
  if t.isMark .semicolon then forRest deeper s .nothing
  else if t.isKeyword .varWord then
    advance
    let ds ← commaSeparated (declarator deeper s.loopHead)
    match ds, (← current).isKeyword .inWord with
    | [d], true =>
      let (object, body) ← forInRest deeper s
      return .forVariable d object body
    | _, _ => forRest deeper s (.declare ds)
  else
    let e ← expression deeper s.loopHead
    if (← current).isKeyword .inWord then
      if !e.isTarget then fail .badLoopTarget
      let (object, body) ← forInRest deeper s
      return .forTarget e object body
    else forRest deeper s (.expression e)

/-- A `return` statement. -/
def returnStatement : Parser StatementForm := do
  if !s.inFunction then fail .returnOutside
  advance
  let t ← peek
  let value ←
    if t.token.isMark .semicolon || t.token.isMark .rightBrace || t.token.isFinish || t.afterBreak
    then pure none
    else some <$> expression deeper s
  endStatement
  return .returnValue value

/-- The label behind `break` or `continue`, if one stands on its line. -/
def optionalLabel : Parser (Option String) := do
  let t ← peek
  match t.afterBreak, t.token with
  | false, .identifier name =>
    if name ∉ s.labels then fail (.undefinedLabel name)
    advance
    return some name
  | _, _ => return none

/-- A `break` statement. -/
def breakStatement : Parser StatementForm := do
  advance
  let label ← optionalLabel s
  if label.isNone && !s.inLoop && !s.inSwitch then fail .breakOutside
  endStatement
  return .breakTo label

/-- A `continue` statement. -/
def continueStatement : Parser StatementForm := do
  advance
  if !s.inLoop then fail .continueOutside
  let label ← optionalLabel s
  endStatement
  return .continueTo label

/-- A `throw` statement; its value has to start on its line. -/
def throwStatement : Parser StatementForm := do
  advance
  if (← peek).afterBreak then fail .brokenThrow
  let e ← expression deeper s
  endStatement
  return .throw e

/-- The name and the block of a handler, if one comes next. -/
def handler : Parser (Option (String × List Statement)) := do
  if !(← current).isKeyword .catchWord then return none
  advance
  expectMark .leftParen
  let name ← identifier
  expectMark .rightParen
  return some (name, ← block deeper s)

/-- The final block of a `try` statement, if one comes next. -/
def finalBlock : Parser (Option (List Statement)) := do
  if !(← current).isKeyword .finallyWord then return none
  advance
  return some (← block deeper s)

/-- A `try` statement. -/
def tryStatement : Parser StatementForm := do
  advance
  let body ← block deeper s
  let caught ← handler deeper s
  let final ← finalBlock deeper s
  match caught, final with
  | some (name, handler), some final => return .tryCatchFinally body name handler final
  | some (name, handler), none => return .tryCatch body name handler
  | none, some final => return .tryFinally body final
  | none, none => fail .tryAlone

/-- Whether a clause of a `switch` is the default one. -/
def isDefault : SwitchClause → Bool
  | .mk test _ => test.isNone

/-- Whether the statements of a clause end before a token. -/
def endsClause (t : Token) : Bool :=
  t.isKeyword .caseWord || t.isKeyword .defaultWord || t.isMark .rightBrace || t.isFinish

/-- A clause of a `switch` after the clauses `before`. -/
def switchClause (before : List SwitchClause) : Parser SwitchClause := do
  let test ← match ← current with
    | .keyword .caseWord => do
      advance
      some <$> expression deeper s
    | .keyword .defaultWord => do
      if before.any isDefault then fail .secondDefault
      advance
      pure none
    | t => fail (.expectedClause t)
  expectMark .colon
  let body ← many endsClause fun _ => deeper .statement s
  return .mk test body

/-- A `switch` statement. -/
def switchStatement : Parser StatementForm := do
  advance
  let value ← parenthesized deeper s
  expectMark .leftBrace
  let clauses ← many (·.isMark .rightBrace) (switchClause deeper s.switchBody)
  expectMark .rightBrace
  return .switch value clauses

/-- A `with` statement. -/
def withStatement : Parser StatementForm := do
  advance
  let object ← parenthesized deeper s
  return .withObject object (← deeper .statement s)

/-- The label that starts a statement, if there is one: an identifier before a colon.  To tell, the
token behind the identifier has to be read. -/
def labelAhead : Parser (Option String) := fun ts =>
  match ts with
  | ⟨.identifier name, _, _⟩ :: rest =>
    match checked rest with
    | .ok _ => .ok (if (head rest).token.isMark .colon then some name else none, ts)
    | .error e => .error e
  | _ => .ok (none, ts)

/-- A labelled statement, or a statement made of an expression. -/
def otherStatement : Parser StatementForm := do
  match ← labelAhead with
  | some name =>
    advance
    advance
    return .labeled name (← deeper .statement (s.labeled name))
  | none =>
    let e ← expression deeper s
    endStatement
    return .expression e

/-- A form of statement. -/
def statementForm : Parser StatementForm := do
  match ← current with
  | .mark .leftBrace => return .block (← block deeper s)
  | .mark .semicolon =>
    advance
    return .empty
  | .keyword .varWord =>
    advance
    let ds ← commaSeparated (declarator deeper s)
    endStatement
    return .declare ds
  | .keyword .functionWord => return .function (← function deeper true)
  | .keyword .ifWord => ifStatement deeper s
  | .keyword .whileWord => whileStatement deeper s
  | .keyword .doWord => doStatement deeper s
  | .keyword .forWord => forStatement deeper s
  | .keyword .returnWord => returnStatement deeper s
  | .keyword .breakWord => breakStatement s
  | .keyword .continueWord => continueStatement s
  | .keyword .throwWord => throwStatement deeper s
  | .keyword .tryWord => tryStatement deeper s
  | .keyword .switchWord => switchStatement deeper s
  | .keyword .withWord => withStatement deeper s
  | _ => otherStatement deeper s

/-- A statement; its line is that of its first token. -/
def statementTree : Parser Statement := do
  let line := (← peek).line
  return .mk line (← statementForm deeper s)

end

/-! ## The knot -/

/-- The grammar of a goal in terms of the goals one level deeper. -/
def rule (deeper : Deeper) (g : Goal) (s : Surroundings) : Parser g.Result :=
  match g with
  | .statement => statementTree deeper s
  | .assignment => assignmentExpression deeper s
  | .unary => prefixed deeper s
  | .construct => newExpression deeper s
  | .operand tier tighter left op => do
    let right ← tiers deeper s tighter
    chain deeper s tier tighter (op.apply left right)
  | .memberName object calls => do
    let name ← dotName
    suffixes deeper s calls (.member object name)
  | .memberKey object calls => do
    let key ← expression deeper s.bracketed
    Parser.expectMark .rightBracket
    suffixes deeper s calls (.index object key)
  | .arguments callee => do
    let args ← argumentList deeper s
    suffixes deeper s true (.call callee args)

/-- Parses a goal with a number of levels of nesting left. -/
def parse : Nat → Deeper
  | 0, _, _ => Parser.fail .tooDeep
  | levels + 1, g, s => rule (parse levels) g s

/-- The deepest nesting of a program. -/
def nestingLimit : Nat := 1000

end Goal

/-! ## Programs -/

namespace Program

open PageScript.Parser in
/-- The statements of a list of lexemes. -/
def ofLexemes : Parser (List Statement) := do
  checked
  many (·.isFinish) fun _ => Goal.parse Goal.nestingLimit .statement .program

/-- The statements of a source text. -/
def parse (source : String) : Except SyntaxError (List Statement) :=
  (ofLexemes (Lexeme.ofText source)).map (·.1)

end Program

end PageScript
