import PageScript.Proofs.Grammar
import PageScript.Proofs.Printing.Numerals

/-! # The tokens of a printed expression

`Expression.tokens` follows the printer, with tokens where that writes texts.  `Expression.Printable` says of
which expressions the text can be read back: those of the operators, whose names are words, whose targets
can be assigned to, and whose literals are read back.
-/

set_option autoImplicit false

namespace PageScript

open Printer

/-! ## Operators -/

/-- The token of a unary operator. -/
def UnaryOp.token : UnaryOp → Token
  | .minus => .mark .minus
  | .plus => .mark .plus
  | .not => .mark .bang
  | .complement => .mark .tilde
  | .typeOf => .keyword .typeofWord
  | .void => .keyword .voidWord
  | .delete => .keyword .deleteWord

/-- The token of a binary operator. -/
def BinaryOp.token : BinaryOp → Token
  | .add => .mark .plus
  | .sub => .mark .minus
  | .mul => .mark .star
  | .div => .mark .slash
  | .mod => .mark .percent
  | .equal => .mark .equal
  | .notEqual => .mark .notEqual
  | .strictEqual => .mark .strictEqual
  | .strictNotEqual => .mark .strictNotEqual
  | .less => .mark .less
  | .greater => .mark .greater
  | .lessEqual => .mark .lessEqual
  | .greaterEqual => .mark .greaterEqual
  | .shiftLeft => .mark .shiftLeft
  | .shiftRight => .mark .shiftRight
  | .unsignedShiftRight => .mark .unsignedShiftRight
  | .bitAnd => .mark .ampersand
  | .bitOr => .mark .pipe
  | .bitXor => .mark .caret
  | .isIn => .keyword .inWord
  | .instanceOf => .keyword .instanceofWord

namespace Infix

/-- The token of an operator between two operands. -/
def token : Infix → Token
  | .binary op => op.token
  | .logical .and => .mark .logicalAnd
  | .logical .or => .mark .logicalOr

/-- An operator between two operands as it is written. -/
def symbol : Infix → String
  | .binary op => op.symbol
  | .logical op => op.symbol

/-- An operator between two operands is written as the mark or the reserved word that is its token. -/
theorem token_spelling (op : Infix) :
    (∃ m, op.token = .mark m ∧ op.symbol = m.spelling) ∨
      ∃ k, op.token = .keyword k ∧ op.symbol = k.spelling := by
  cases op with
  | binary op =>
    cases op
    case isIn => exact .inr ⟨.inWord, rfl, rfl⟩
    case instanceOf => exact .inr ⟨.instanceofWord, rfl, rfl⟩
    all_goals exact .inl ⟨_, rfl, rfl⟩
  | logical op => cases op <;> exact .inl ⟨_, rfl, rfl⟩

end Infix

/-- The mark of an update operator. -/
def UpdateOp.mark : UpdateOp → Mark
  | .increment => .increment
  | .decrement => .decrement

/-- The mark of an assignment operator; comparisons, `in` and `instanceof` have none. -/
def assignmentMark? : Option BinaryOp → Option Mark
  | none => some .assign
  | some .add => some .plusAssign
  | some .sub => some .minusAssign
  | some .mul => some .starAssign
  | some .div => some .slashAssign
  | some .mod => some .percentAssign
  | some .shiftLeft => some .shiftLeftAssign
  | some .shiftRight => some .shiftRightAssign
  | some .unsignedShiftRight => some .unsignedShiftRightAssign
  | some .bitAnd => some .ampersandAssign
  | some .bitOr => some .pipeAssign
  | some .bitXor => some .caretAssign
  | some _ => none

/-- The token of a literal. -/
def Literal.token : Literal → Token
  | .null => .null
  | .boolean b => .boolean b
  | .number n => .number n
  | .string s => .string s

/-! ## Expressions -/

namespace Printer

/-- The tokens of an operand, in parentheses unless it is primary. -/
def operandTokens (e : Expression) (ts : List Token) : List Token :=
  if e.isPrimary then ts else .mark .leftParen :: (ts ++ [.mark .rightParen])

/-- Lists of tokens separated by commas. -/
def commaTokens (items : List (List Token)) : List Token := [Token.mark .comma].intercalate items

theorem commaTokens_cons_cons (item next : List Token) (rest : List (List Token)) :
    commaTokens (item :: next :: rest) = item ++ Token.mark .comma :: commaTokens (next :: rest) := by
  rw [commaTokens, List.intercalate_cons_cons, List.append_assoc]
  rfl

theorem commaTokens_cons (item : List Token) (rest : List (List Token)) :
    ∃ more, commaTokens (item :: rest) = item ++ more := by
  cases rest with
  | nil => exact ⟨[], by rw [commaTokens, List.intercalate_singleton, List.append_nil]⟩
  | cons next rest => exact ⟨_, commaTokens_cons_cons item next rest⟩

theorem length_le_commaTokens (items : List (List Token)) : items.length ≤ (commaTokens items).length + 1 := by
  induction items with
  | nil => exact Nat.zero_le _
  | cons item rest ih =>
    cases rest with
    | nil => exact Nat.le_add_left 1 _
    | cons next rest =>
      rw [commaTokens_cons_cons]
      simp only [List.length_append, List.length_cons] at ih ⊢
      omega

theorem commas_cons_cons (item next : String) (rest : List String) :
    (commas (item :: next :: rest)).toList = item.toList ++ ',' :: ' ' :: (commas (next :: rest)).toList := by
  rw [commas, String.intercalate_cons_cons, String.toList_append, String.toList_append, List.append_assoc]
  rfl

end Printer

mutual

/-- The tokens of an expression; those of object literals, functions, `new` and sequences are left
out. -/
def Expression.tokens : Expression → List Token
  | .literal l => [l.token]
  | .identifier name => [.identifier name]
  | .this => [.keyword .thisWord]
  | .array elements =>
    .mark .leftBracket :: (commaTokens (Expression.elementTokens elements) ++ [.mark .rightBracket])
  | .unary op e => op.token :: operandTokens e e.tokens
  | .binary op l r => operandTokens l l.tokens ++ (Infix.binary op).token :: operandTokens r r.tokens
  | .logical op l r => operandTokens l l.tokens ++ (Infix.logical op).token :: operandTokens r r.tokens
  | .update op before e =>
    if before then .mark op.mark :: operandTokens e e.tokens
    else operandTokens e e.tokens ++ [.mark op.mark]
  | .assign op target value =>
    target.tokens ++ ((assignmentMark? op).toList.map Token.mark ++ value.tokens)
  | .conditional test yes no =>
    operandTokens test test.tokens ++ .mark .question ::
      (operandTokens yes yes.tokens ++ .mark .colon :: operandTokens no no.tokens)
  | .call callee args =>
    operandTokens callee callee.tokens ++ .mark .leftParen ::
      (commaTokens (Expression.tokenLists args) ++ [.mark .rightParen])
  | .member e name => operandTokens e e.tokens ++ [.mark .dot, Lexeme.ofWord name]
  | .index e key =>
    operandTokens e e.tokens ++ .mark .leftBracket :: (key.tokens ++ [.mark .rightBracket])
  | .object _ | .function _ | .construct _ _ | .sequence _ => []

/-- The tokens of expressions. -/
def Expression.tokenLists : List Expression → List (List Token)
  | [] => []
  | e :: rest => e.tokens :: Expression.tokenLists rest

/-- The tokens of the elements of an array literal; a hole has none. -/
def Expression.elementTokens : List (Option Expression) → List (List Token)
  | [] => []
  | some e :: rest => e.tokens :: Expression.elementTokens rest
  | none :: rest => [] :: Expression.elementTokens rest

end

namespace Lexeme

/-- Tokens as they are scanned from a text of one line. -/
def ofTokens (ts : List Token) : List Lexeme := ts.map (⟨·, 1, false⟩)

theorem ofTokens_append (ts us : List Token) : ofTokens (ts ++ us) = ofTokens ts ++ ofTokens us :=
  List.map_append

end Lexeme

/-- A word stands for itself behind a point. -/
theorem Token.memberName?_ofWord (name : String) : (Lexeme.ofWord name).memberName? = some name := by
  unfold Lexeme.ofWord
  split
  · rfl
  · rfl
  · rfl
  · split
    · rename_i k hk
      have hspelling := List.find?_some (p := fun k : Keyword => k.spelling == name) hk
      exact congrArg some (eq_of_beq hspelling)
    · rfl

/-! ## Printable expressions -/

/-- Whether a literal is printed so that it can be read back. -/
def Literal.Printable : Literal → Prop
  | .null | .boolean _ => True
  | .number n => n.ReadsBack
  | .string s => ∀ c ∈ s.toList, c ≠ '\u2028' ∧ c ≠ '\u2029'

namespace Expression

/-- Whether an expression is a number literal. -/
def isNumber : Expression → Bool
  | .literal (.number _) => true
  | _ => false

/-- The expressions without object literals, functions, `new`, sequences and holes whose names are words,
whose targets can be assigned to, and whose literals are read back. -/
inductive Printable : Expression → Prop
  | literal {l : Literal} (h : l.Printable) : Printable (.literal l)
  | identifier {name : String} (hword : Lexeme.IsWord name) (hname : Lexeme.ofWord name = .identifier name) :
    Printable (.identifier name)
  | this : Printable .this
  | array {es : List Expression} (hes : ∀ e ∈ es, Printable e) : Printable (.array (es.map some))
  | unary (op : UnaryOp) {e : Expression} (he : Printable e) : Printable (.unary op e)
  | operation (op : Infix) {l r : Expression} (hl : Printable l) (hr : Printable r) :
    Printable (op.apply l r)
  | update (op : UpdateOp) (before : Bool) {e : Expression} (he : Printable e) (htarget : e.isTarget = true) :
    Printable (.update op before e)
  | assign {op : Option BinaryOp} {m : Mark} {e value : Expression} (hop : assignmentMark? op = some m)
    (he : Printable e) (htarget : e.isTarget = true) (hvalue : Printable value) :
    Printable (.assign op e value)
  | conditional {test yes no : Expression} (htest : Printable test) (hyes : Printable yes)
    (hno : Printable no) : Printable (.conditional test yes no)
  | call {callee : Expression} {args : List Expression} (hcallee : Printable callee)
    (hargs : ∀ e ∈ args, Printable e) : Printable (.call callee args)
  | member {object : Expression} {name : String} (hobject : Printable object)
    (hnumber : object.isNumber = false) (hname : Lexeme.IsWord name) : Printable (.member object name)
  | index {object key : Expression} (hobject : Printable object) (hkey : Printable key) :
    Printable (.index object key)

theorem operandTokens_of_isPrimary {e : Expression} (h : e.isPrimary = true) (ts : List Token) :
    operandTokens e ts = ts := if_pos h

theorem operandTokens_of_not_isPrimary {e : Expression} (h : e.isPrimary = false) (ts : List Token) :
    operandTokens e ts = .mark .leftParen :: (ts ++ [.mark .rightParen]) :=
  if_neg (by rw [h]; exact Bool.false_ne_true)

theorem operandTokens_of_isTarget {e : Expression} (h : e.isTarget = true) (ts : List Token) :
    operandTokens e ts = ts := by
  cases e <;> first | exact if_pos rfl | cases h

theorem length_tokenLists (es : List Expression) : (tokenLists es).length = es.length := by
  induction es with
  | nil => rw [tokenLists]; rfl
  | cons e es ih => rw [tokenLists, List.length_cons, List.length_cons, ih]

theorem elementTokens_map_some (es : List Expression) : elementTokens (es.map some) = tokenLists es := by
  induction es with
  | nil => rw [List.map_nil, elementTokens, tokenLists]
  | cons e es ih => rw [List.map_cons, elementTokens, tokenLists, ih]

theorem elementTexts_map_some (depth : Nat) (es : List Expression) :
    elementTexts depth (es.map some) = texts depth es := by
  induction es with
  | nil => rw [List.map_nil, elementTexts, texts]
  | cons e es ih => rw [List.map_cons, elementTexts, texts, ih]

theorem tokens_apply (op : Infix) (l r : Expression) :
    (op.apply l r).tokens = operandTokens l l.tokens ++ op.token :: operandTokens r r.tokens := by
  cases op with
  | binary op => rw [Infix.apply, tokens]
  | logical op => rw [Infix.apply, tokens]

theorem textAt_apply (depth : Nat) (op : Infix) (l r : Expression) :
    (op.apply l r).textAt depth = operand l (l.textAt depth) ++ " " ++ op.symbol ++ " "
      ++ operand r (r.textAt depth) := by
  cases op with
  | binary op => rw [Infix.apply, textAt]; rfl
  | logical op => rw [Infix.apply, textAt]; rfl

theorem isPrimary_apply (op : Infix) (l r : Expression) : (op.apply l r).isPrimary = false := by
  cases op <;> rfl

end Expression

end PageScript
