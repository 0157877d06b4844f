import PageScript.Number.Text
import PageScript.Text.Quoted
import PageScript.Text.Blank

/-! # Tokens

The words and marks of the language.  A scanned text is a list of lexemes: each token with the line
on which it ends and whether a line break came before it.  `Token.describe` is how a message quotes
a token.
-/

set_option autoImplicit false

namespace PageScript

/-! ## Reserved words -/

/-- The reserved words, apart from the literals `true`, `false` and `null`. -/
inductive Keyword where
  | breakWord | caseWord | catchWord | continueWord | defaultWord | deleteWord | doWord | elseWord
  | finallyWord | forWord | functionWord | ifWord | inWord | instanceofWord | newWord | returnWord
  | switchWord | thisWord | throwWord | tryWord | typeofWord | varWord | voidWord | whileWord
  | withWord
  deriving DecidableEq, Repr

namespace Keyword

/-- All reserved words. -/
def all : List Keyword :=
  [.breakWord, .caseWord, .catchWord, .continueWord, .defaultWord, .deleteWord, .doWord,
  .elseWord, .finallyWord, .forWord, .functionWord, .ifWord, .inWord, .instanceofWord, .newWord,
  .returnWord, .switchWord, .thisWord, .throwWord, .tryWord, .typeofWord, .varWord, .voidWord,
  .whileWord, .withWord]

/-- A reserved word as it is written. -/
def spelling : Keyword → String
  | .breakWord => "break"
  | .caseWord => "case"
  | .catchWord => "catch"
  | .continueWord => "continue"
  | .defaultWord => "default"
  | .deleteWord => "delete"
  | .doWord => "do"
  | .elseWord => "else"
  | .finallyWord => "finally"
  | .forWord => "for"
  | .functionWord => "function"
  | .ifWord => "if"
  | .inWord => "in"
  | .instanceofWord => "instanceof"
  | .newWord => "new"
  | .returnWord => "return"
  | .switchWord => "switch"
  | .thisWord => "this"
  | .throwWord => "throw"
  | .tryWord => "try"
  | .typeofWord => "typeof"
  | .varWord => "var"
  | .voidWord => "void"
  | .whileWord => "while"
  | .withWord => "with"

/-- The reserved word with a spelling. -/
def ofSpelling? (s : String) : Option Keyword := all.find? (·.spelling == s)

end Keyword

/-! ## Marks -/

/-- Brackets, separators and operators. -/
inductive Mark where
  | leftBrace | rightBrace | leftParen | rightParen | leftBracket | rightBracket | dot | semicolon
  | comma | less | greater | lessEqual | greaterEqual | equal | notEqual | strictEqual
  | strictNotEqual | plus | minus | star | slash | percent | increment | decrement | shiftLeft
  | shiftRight | unsignedShiftRight | ampersand | pipe | caret | bang | tilde | logicalAnd
  | logicalOr | question | colon | assign | plusAssign | minusAssign | starAssign | slashAssign
  | percentAssign | shiftLeftAssign | shiftRightAssign | unsignedShiftRightAssign
  | ampersandAssign | pipeAssign | caretAssign
  deriving DecidableEq, Repr

namespace Mark

/-- A mark as it is written. -/
def spelling : Mark → String
  | .leftBrace => "\x7b"
  | .rightBrace => "\x7d"
  | .leftParen => "("
  | .rightParen => ")"
  | .leftBracket => "["
  | .rightBracket => "]"
  | .dot => "."
  | .semicolon => ";"
  | .comma => ","
  | .less => "<"
  | .greater => ">"
  | .lessEqual => "<="
  | .greaterEqual => ">="
  | .equal => "=="
  | .notEqual => "!="
  | .strictEqual => "==="
  | .strictNotEqual => "!=="
  | .plus => "+"
  | .minus => "-"
  | .star => "*"
  | .slash => "/"
  | .percent => "%"
  | .increment => "++"
  | .decrement => "--"
  | .shiftLeft => "<<"
  | .shiftRight => ">>"
  | .unsignedShiftRight => ">>>"
  | .ampersand => "&"
  | .pipe => "|"
  | .caret => "^"
  | .bang => "!"
  | .tilde => "~"
  | .logicalAnd => "&&"
  | .logicalOr => "||"
  | .question => "?"
  | .colon => ":"
  | .assign => "="
  | .plusAssign => "+="
  | .minusAssign => "-="
  | .starAssign => "*="
  | .slashAssign => "/="
  | .percentAssign => "%="
  | .shiftLeftAssign => "<<="
  | .shiftRightAssign => ">>="
  | .unsignedShiftRightAssign => ">>>="
  | .ampersandAssign => "&="
  | .pipeAssign => "|="
  | .caretAssign => "^="

/-- The name of a mark in messages. -/
def name : Mark → String
  | .leftBrace => "LeftBrace"
  | .rightBrace => "RightBrace"
  | .leftParen => "LeftParen"
  | .rightParen => "RightParen"
  | .leftBracket => "LeftBracket"
  | .rightBracket => "RightBracket"
  | .dot => "Dot"
  | .semicolon => "Semicolon"
  | .comma => "Comma"
  | .less => "LessThan"
  | .greater => "GreaterThan"
  | .lessEqual => "LessThanEqual"
  | .greaterEqual => "GreaterThanEqual"
  | .equal => "Equal"
  | .notEqual => "NotEqual"
  | .strictEqual => "StrictEqual"
  | .strictNotEqual => "StrictNotEqual"
  | .plus => "Plus"
  | .minus => "Minus"
  | .star => "Star"
  | .slash => "Slash"
  | .percent => "Percent"
  | .increment => "Increment"
  | .decrement => "Decrement"
  | .shiftLeft => "LeftShift"
  | .shiftRight => "RightShift"
  | .unsignedShiftRight => "UnsignedRightShift"
  | .ampersand => "Ampersand"
  | .pipe => "Pipe"
  | .caret => "Caret"
  | .bang => "Bang"
  | .tilde => "Tilde"
  | .logicalAnd => "LogicalAnd"
  | .logicalOr => "LogicalOr"
  | .question => "Question"
  | .colon => "Colon"
  | .assign => "Assign"
  | .plusAssign => "PlusAssign"
  | .minusAssign => "MinusAssign"
  | .starAssign => "StarAssign"
  | .slashAssign => "SlashAssign"
  | .percentAssign => "PercentAssign"
  | .shiftLeftAssign => "LeftShiftAssign"
  | .shiftRightAssign => "RightShiftAssign"
  | .unsignedShiftRightAssign => "UnsignedRightShiftAssign"
  | .ampersandAssign => "AmpersandAssign"
  | .pipeAssign => "PipeAssign"
  | .caretAssign => "CaretAssign"

/-- All marks, longer spellings first, so that the first one that fits a text is the longest. -/
def byLength : List Mark :=
  [.unsignedShiftRightAssign, .strictEqual, .strictNotEqual, .unsignedShiftRight,
  .shiftLeftAssign, .shiftRightAssign, .lessEqual, .greaterEqual, .equal, .notEqual, .increment,
  .decrement, .shiftLeft, .shiftRight, .logicalAnd, .logicalOr, .plusAssign, .minusAssign,
  .starAssign, .slashAssign, .percentAssign, .ampersandAssign, .pipeAssign, .caretAssign,
  .leftBrace, .rightBrace, .leftParen, .rightParen, .leftBracket, .rightBracket, .dot, .semicolon,
  .comma, .less, .greater, .plus, .minus, .star, .slash, .percent, .ampersand, .pipe, .caret,
  .bang, .tilde, .question, .colon, .assign]

/-- The spellings of the marks, longer ones first. -/
def spellings : List (List Char × Mark) := byLength.map fun m => (m.spelling.toList, m)

/-- The longest mark at the front of a text, and what follows it. -/
def read? (cs : List Char) : Option (Mark × List Char) :=
  spellings.findSome? fun (word, m) => (Text.after? word cs).map (m, ·)

end Mark

/-! ## Tokens -/

/-- Why a text cannot be split into tokens. -/
inductive LexicalError where
  | unterminatedComment
  | unterminatedString
  | unterminatedEscape
  | badHexEscape
  | badHexLiteral
  | badNumber
  | wordAfterNumber
  | unexpectedCharacter (c : Char)

/-- The wording of a lexical error. -/
def LexicalError.message : LexicalError → String
  | .unterminatedComment => "Unterminated block comment"
  | .unterminatedString => "Unterminated string literal"
  | .unterminatedEscape => "Unterminated escape sequence"
  | .badHexEscape => "Invalid hexadecimal escape sequence"
  | .badHexLiteral => "Invalid hexadecimal literal"
  | .badNumber => "Invalid numeric literal"
  | .wordAfterNumber => "Identifier starts immediately after numeric literal"
  | .unexpectedCharacter c => "Unexpected character: " ++ c.toString

/-- A token.  A text ends in `finish`, or in `invalid` where no token can be read. -/
inductive Token where
  | identifier (name : String)
  | keyword (k : Keyword)
  | number (n : Number)
  | string (s : String)
  | boolean (b : Bool)
  | null
  | mark (m : Mark)
  | finish
  | invalid (cause : LexicalError)

namespace Token

/-- Whether a token is a given mark. -/
def isMark (m : Mark) : Token → Bool
  | .mark m' => m' == m
  | _ => false

/-- Whether a token is a given reserved word. -/
def isKeyword (k : Keyword) : Token → Bool
  | .keyword k' => k' == k
  | _ => false

/-- Whether a token is the end of the text. -/
def isFinish : Token → Bool
  | .finish => true
  | _ => false

/-- How a message quotes a token. -/
def describe : Token → String
  | .identifier name => "Identifier(" ++ Text.quoted name ++ ")"
  | .keyword k => "Keyword(" ++ k.spelling.capitalize ++ ")"
  | .number n => "NumericLiteral(" ++ n.quoted ++ ")"
  | .string s => "StringLiteral(" ++ Text.quoted s ++ ")"
  | .boolean b => "BooleanLiteral(" ++ (if b then "true" else "false") ++ ")"
  | .null => "NullLiteral"
  | .mark m => m.name
  | .finish => "Eof"
  | .invalid cause => cause.message

end Token

/-- A token in its text: the line on which it ends, and whether a line break came before it. -/
structure Lexeme where
  token : Token
  line : Nat
  afterBreak : Bool

end PageScript
