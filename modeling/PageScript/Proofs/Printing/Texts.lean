import PageScript.Proofs.Printing.Tokens

/-! # The text of an expression in front of others

The text of a printable expression is scanned as the tokens of the expression, in front of whatever may come
behind it.  The printer leaves no room for a token to run into the next one: an operator between operands
stands between blanks, the operand of a prefix operator does not begin with a sign, and no point follows a
numeral.
-/

set_option autoImplicit false

namespace PageScript

open Printer

/-! ## Tokens in front of a text -/

namespace Printer

/-- The characters that come behind an expression. -/
def enders : List Char := [' ', ')', ']', ',', ';', '(', '[']

/-- The characters that come behind an operand which is no numeral. -/
def operandEnders : List Char := enders ++ ['.', '+', '-']

theorem enders_subset_operandEnders : enders ⊆ operandEnders := List.subset_append_left _ _

end Printer

namespace Lexeme

theorem EndsNumeral.of_enders {rest : List Char} (h : ∀ c ∈ rest.head?, c ∈ enders) : EndsNumeral rest := by
  have hall : ∀ c ∈ enders, Digit.value? 16 c = none ∧ Digit.isDecimal c = false ∧
      Text.isIdentifierStart c = false ∧ c ∉ ['.', '+', '-'] := by decide +kernel
  exact ⟨fun c hc => (hall c (h c hc)).1, fun c hc => (hall c (h c hc)).2.1,
    fun c hc => (hall c (h c hc)).2.2.1, fun c hc => (hall c (h c hc)).2.2.2⟩

/-- A word in front of what may come behind an operand. -/
theorem scan_name (name : String) {rest : List Char} (hname : IsWord name)
    (hrest : ∀ c ∈ rest.head?, c ∈ operandEnders) :
    scan 1 false (name.toList ++ rest) = ⟨ofWord name, 1, false⟩ :: scan 1 false rest := by
  have hnone : ∀ c ∈ operandEnders, Text.isIdentifierPart c = false := by decide +kernel
  exact scan_word hname fun c hc => hnone c (hrest c hc)

/-- A mark that is part of no longer one is scanned in front of any text. -/
theorem scan_closed {m : Mark} {line : Nat} {broken : Bool} (hm : m.continuations = []) (rest : List Char) :
    scan line broken (m.spelling.toList ++ rest) = ⟨.mark m, line, broken⟩ :: scan line false rest :=
  scan_mark fun c _ => by rw [hm]; exact List.not_mem_nil

theorem scan_leftParen (rest : List Char) :
    scan 1 false ('(' :: rest) = ⟨.mark .leftParen, 1, false⟩ :: scan 1 false rest :=
  scan_closed (m := .leftParen) (by decide) rest

theorem scan_rightParen (rest : List Char) :
    scan 1 false (')' :: rest) = ⟨.mark .rightParen, 1, false⟩ :: scan 1 false rest :=
  scan_closed (m := .rightParen) (by decide) rest

theorem scan_leftBracket (rest : List Char) :
    scan 1 false ('[' :: rest) = ⟨.mark .leftBracket, 1, false⟩ :: scan 1 false rest :=
  scan_closed (m := .leftBracket) (by decide) rest

theorem scan_rightBracket (rest : List Char) :
    scan 1 false (']' :: rest) = ⟨.mark .rightBracket, 1, false⟩ :: scan 1 false rest :=
  scan_closed (m := .rightBracket) (by decide) rest

theorem scan_comma (rest : List Char) :
    scan 1 false (',' :: rest) = ⟨.mark .comma, 1, false⟩ :: scan 1 false rest :=
  scan_closed (m := .comma) (by decide) rest

theorem isWord_spelling (k : Keyword) : IsWord k.spelling := by
  cases k <;> exact ⟨_, _, rfl, by decide, by decide⟩

theorem ofWord_spelling (k : Keyword) : ofWord k.spelling = .keyword k := by cases k <;> rfl

/-- A reserved word in front of what may come behind an operand. -/
theorem scan_keyword (k : Keyword) {rest : List Char} (hrest : ∀ c ∈ rest.head?, c ∈ operandEnders) :
    scan 1 false (k.spelling.toList ++ rest) = ⟨.keyword k, 1, false⟩ :: scan 1 false rest := by
  rw [scan_name _ (isWord_spelling k) hrest, ofWord_spelling]

theorem mem_operandEnders_of_space (rest : List Char) : ∀ c ∈ (' ' :: rest).head?, c ∈ operandEnders := by
  rintro c hc
  cases hc
  exact .head _

/-- A mark between blanks. -/
theorem scan_spacedMark (m : Mark) (rest : List Char) :
    scan 1 false (' ' :: (m.spelling.toList ++ ' ' :: rest)) = ⟨.mark m, 1, false⟩ :: scan 1 false rest := by
  have hspace : ∀ m ∈ Mark.byLength, ' ' ∉ m.continuations := by decide +kernel
  rw [scan_space, scan_mark, scan_space]
  rintro c hc
  cases hc
  exact hspace m (Mark.mem_byLength m)

/-- A reserved word between blanks. -/
theorem scan_spacedWord (k : Keyword) (rest : List Char) :
    scan 1 false (' ' :: (k.spelling.toList ++ ' ' :: rest))
      = ⟨.keyword k, 1, false⟩ :: scan 1 false rest := by
  rw [scan_space, scan_keyword k (mem_operandEnders_of_space rest), scan_space]

theorem scan_infix (op : Infix) (rest : List Char) :
    scan 1 false (' ' :: (op.symbol.toList ++ ' ' :: rest)) = ⟨op.token, 1, false⟩ :: scan 1 false rest := by
  obtain ⟨m, hm, hsymbol⟩ | ⟨k, hk, hsymbol⟩ := op.token_spelling
  · rw [hm, hsymbol]
    exact scan_spacedMark m rest
  · rw [hk, hsymbol]
    exact scan_spacedWord k rest

theorem scan_assignment {op : Option BinaryOp} {m : Mark} (hop : assignmentMark? op = some m)
    (rest : List Char) :
    scan 1 false (' ' :: ((assignmentSymbol op).toList ++ ' ' :: rest))
      = ⟨.mark m, 1, false⟩ :: scan 1 false rest := by
  have hsymbol : assignmentSymbol op = m.spelling := by
    cases op with
    | none => cases hop; rfl
    | some op => cases op <;> cases hop <;> rfl
  rw [hsymbol]
  exact scan_spacedMark m rest

/-- A prefix operator in front of an operand, which does not begin with a sign. -/
theorem scan_unary (op : UnaryOp) {rest : List Char} (hrest : ∀ c ∈ rest.head?, c ∉ ['+', '-', '=']) :
    scan 1 false (op.symbol.toList ++ rest) = ⟨op.token, 1, false⟩ :: scan 1 false rest := by
  have hmark : ∀ m : Mark, (∀ c ∈ m.continuations, c ∈ ['+', '-', '=']) →
      scan 1 false (m.spelling.toList ++ rest) = ⟨.mark m, 1, false⟩ :: scan 1 false rest :=
    fun m hm => scan_mark fun c hc hmem => hrest c hc (hm c hmem)
  have hword : ∀ k : Keyword,
      scan 1 false (k.spelling.toList ++ ' ' :: rest) = ⟨.keyword k, 1, false⟩ :: scan 1 false rest :=
    fun k => by rw [scan_keyword k (mem_operandEnders_of_space rest), scan_space]
  cases op with
  | minus => exact hmark .minus (by decide)
  | plus => exact hmark .plus (by decide)
  | not => exact hmark .bang (by decide)
  | complement => exact hmark .tilde (by decide)
  | typeOf => exact hword .typeofWord
  | void => exact hword .voidWord
  | delete => exact hword .deleteWord

end Lexeme

/-! ## Expressions in front of a text -/

namespace Expression

open Lexeme

/-- The characters that may come behind an operand. -/
def followers (e : Expression) : List Char := if e.isNumber then enders else operandEnders

/-- Whether the text of an expression is scanned as its tokens, in front of what may come behind it. -/
def Scans (depth : Nat) (e : Expression) : Prop :=
  ∀ rest : List Char, (∀ c ∈ rest.head?, c ∈ if e.isPrimary then e.followers else enders) →
    scan 1 false ((e.textAt depth).toList ++ rest) = ofTokens e.tokens ++ scan 1 false rest

variable {depth : Nat} {e : Expression} {rest : List Char}

theorem enders_subset_followers (e : Expression) : enders ⊆ e.followers := by
  unfold followers
  split
  · exact fun _ h => h
  · exact enders_subset_operandEnders

theorem Scans.before (h : e.Scans depth) (hrest : ∀ c ∈ rest.head?, c ∈ enders) :
    scan 1 false ((e.textAt depth).toList ++ rest) = ofTokens e.tokens ++ scan 1 false rest := by
  refine h rest fun c hc => ?_
  split
  · exact e.enders_subset_followers (hrest c hc)
  · exact hrest c hc

theorem mem_enders_of_cons {c : Char} (hc : c ∈ enders) (cs : List Char) :
    ∀ d ∈ (c :: cs).head?, d ∈ enders := by
  rintro d hd
  cases hd
  exact hc

/-- An operand is scanned in front of what may come behind it. -/
theorem Scans.operand (h : e.Scans depth) (hrest : ∀ c ∈ rest.head?, c ∈ e.followers) :
    scan 1 false ((operand e (e.textAt depth)).toList ++ rest)
      = ofTokens (operandTokens e e.tokens) ++ scan 1 false rest := by
  unfold Printer.operand operandTokens
  split
  · rename_i hprimary
    exact h rest fun c hc => by rw [if_pos hprimary]; exact hrest c hc
  · have htext : ("(" ++ e.textAt depth ++ ")").toList ++ rest
        = '(' :: ((e.textAt depth).toList ++ ')' :: rest) := by
      rw [String.toList_append, String.toList_append, List.append_assoc, List.append_assoc]
      rfl
    rw [htext, scan_leftParen, h.before (mem_enders_of_cons (by decide) rest), scan_rightParen, ofTokens,
      ofTokens, List.map_cons, List.map_append, List.cons_append, List.append_assoc]
    rfl

/-- Expressions separated by commas are scanned as their tokens with commas between them. -/
theorem scan_commas {es : List Expression} (hes : ∀ e ∈ es, e.Scans depth)
    (hrest : ∀ c ∈ rest.head?, c ∈ enders) :
    scan 1 false ((commas (texts depth es)).toList ++ rest)
      = ofTokens (commaTokens (tokenLists es)) ++ scan 1 false rest := by
  induction es with
  | nil => rfl
  | cons e es ih =>
    have he := hes e (.head _)
    have ih := ih fun f hf => hes f (.tail _ hf)
    cases es with
    | nil =>
      simp only [texts, tokenLists, commas, commaTokens, String.intercalate_singleton,
        List.intercalate_singleton]
      exact he.before hrest
    | cons f es =>
      simp only [texts, tokenLists] at ih ⊢
      rw [commas_cons_cons, commaTokens_cons_cons, List.append_assoc, ofTokens_append, List.append_assoc,
        List.cons_append, List.cons_append, he.before (mem_enders_of_cons (by decide) _), scan_comma,
        scan_space, ih]
      rfl

/-- An operand does not begin with a sign. -/
theorem Printable.operand_head (h : e.Printable) (depth : Nat) :
    ∃ c cs, (Printer.operand e (e.textAt depth)).toList = c :: cs ∧ c ∉ ['+', '-', '='] := by
  have hparens : ∀ e : Expression, e.isPrimary = false →
      ∃ c cs, (Printer.operand e (e.textAt depth)).toList = c :: cs ∧ c ∉ ['+', '-', '='] := fun e he => by
    rw [Printer.operand, if_neg (by rw [he]; exact Bool.false_ne_true), String.toList_append,
      String.toList_append]
    exact ⟨'(', _, rfl, by decide⟩
  have hprimary : ∀ e : Expression, e.isPrimary = true →
      (∃ c cs, (e.textAt depth).toList = c :: cs ∧ c ∉ ['+', '-', '=']) →
      ∃ c cs, (Printer.operand e (e.textAt depth)).toList = c :: cs ∧ c ∉ ['+', '-', '='] :=
    fun e he htext => by rw [Printer.operand, if_pos he]; exact htext
  have hmore : ∀ {text : String} (more : String),
      (∃ c cs, text.toList = c :: cs ∧ c ∉ ['+', '-', '=']) →
      ∃ c cs, (text ++ more).toList = c :: cs ∧ c ∉ ['+', '-', '='] := by
    rintro text more ⟨c, cs, hc, hsign⟩
    exact ⟨c, cs ++ more.toList, by rw [String.toList_append, hc]; rfl, hsign⟩
  induction h with
  | @literal l h =>
    refine hprimary _ rfl ?_
    rw [textAt]
    cases l with
    | null => exact ⟨'n', _, rfl, by decide⟩
    | boolean b => cases b <;> exact ⟨_, _, rfl, by decide⟩
    | number n =>
      obtain ⟨c, cs, htext, hread⟩ := h
      refine ⟨c, cs, htext, ?_⟩
      rcases (readNumber_of_readToken hread rfl).1 with hdigit | ⟨rfl, -⟩
      · have hnone : ∀ c ∈ Text.digits, c ∉ ['+', '-', '='] := by decide
        exact hnone c (Text.mem_digits_of_isDecimal hdigit)
      · decide
    | string s =>
      rw [Literal.text, stringLiteral, String.toList_append, String.toList_append]
      exact ⟨'"', _, rfl, by decide⟩
  | @identifier name hword _ =>
    obtain ⟨c, cs, hc, hstart, -⟩ := hword
    refine hprimary _ rfl ?_
    rw [textAt]
    refine ⟨c, cs, hc, fun hsign => ?_⟩
    have hnone : ∀ c ∈ ['+', '-', '='], Text.isIdentifierStart c = false := by decide
    rw [hnone c hsign] at hstart
    cases hstart
  | this =>
    refine hprimary _ rfl ?_
    rw [textAt]
    exact ⟨'t', _, rfl, by decide⟩
  | array hes ih =>
    refine hprimary _ rfl ?_
    rw [textAt, String.toList_append, String.toList_append]
    exact ⟨'[', _, rfl, by decide⟩
  | unary op he ih => exact hparens _ rfl
  | operation op hl hr ihl ihr => exact hparens _ (isPrimary_apply _ _ _)
  | update op before he htarget ih => exact hparens _ rfl
  | assign hop he htarget hvalue ih ihvalue => exact hparens _ rfl
  | conditional htest hyes hno ihtest ihyes ihno => exact hparens _ rfl
  | call hcallee hargs ih ihargs =>
    refine hprimary _ rfl ?_
    rw [textAt]
    exact hmore _ (hmore _ (hmore _ ih))
  | member hobject hnumber hname ih =>
    refine hprimary _ rfl ?_
    rw [textAt]
    exact hmore _ (hmore _ ih)
  | index hobject hkey ih ihkey =>
    refine hprimary _ rfl ?_
    rw [textAt]
    exact hmore _ (hmore _ (hmore _ ih))

theorem followers_of_isTarget (h : e.isTarget = true) : e.followers = operandEnders := by
  cases e <;> first | rfl | cases h

/-! ### One lemma for each form -/

section
variable {es : List Expression} {l r test yes no value object key callee : Expression} {name : String}

theorem scans_literal {l : Literal} (h : l.Printable) : (Expression.literal l).Scans depth := by
  intro rest hrest
  rw [textAt, tokens]
  cases l with
  | null => exact scan_name "null" ⟨_, _, rfl, by decide, by decide⟩ hrest
  | boolean b =>
    cases b with
    | true => exact scan_name "true" ⟨_, _, rfl, by decide, by decide⟩ hrest
    | false => exact scan_name "false" ⟨_, _, rfl, by decide, by decide⟩ hrest
  | number n => exact scan_number h (.of_enders hrest)
  | string s => exact scan_string h rest

theorem scans_array (hes : ∀ e ∈ es, e.Scans depth) : (array (es.map some)).Scans depth := by
  intro rest _
  rw [textAt, tokens, elementTexts_map_some, elementTokens_map_some]
  have htext : ("[" ++ commas (texts depth es) ++ "]").toList ++ rest
      = '[' :: ((commas (texts depth es)).toList ++ ']' :: rest) := by
    simp only [String.toList_append, List.append_assoc]
    rfl
  rw [htext, scan_leftBracket, scan_commas hes (mem_enders_of_cons (by decide) _), scan_rightBracket]
  simp [ofTokens]

theorem scans_unary {op : UnaryOp} (he : e.Scans depth)
    (hhead : ∃ c cs, (Printer.operand e (e.textAt depth)).toList = c :: cs ∧ c ∉ ['+', '-', '=']) :
    (unary op e).Scans depth := by
  intro rest hrest
  rw [textAt, tokens, String.toList_append, List.append_assoc, scan_unary, he.operand]
  · rfl
  · exact fun c hc => enders_subset_followers _ (hrest c hc)
  · obtain ⟨c, cs, htext, hsign⟩ := hhead
    rw [htext]
    rintro d hd
    cases hd
    exact hsign

theorem scans_apply {op : Infix} (hl : l.Scans depth) (hr : r.Scans depth) : (op.apply l r).Scans depth := by
  intro rest hrest
  rw [isPrimary_apply] at hrest
  rw [textAt_apply, tokens_apply]
  have htext : (Printer.operand l (l.textAt depth) ++ " " ++ op.symbol ++ " "
      ++ Printer.operand r (r.textAt depth)).toList ++ rest
      = (Printer.operand l (l.textAt depth)).toList ++ ' ' :: (op.symbol.toList ++
        ' ' :: ((Printer.operand r (r.textAt depth)).toList ++ rest)) := by
    simp only [String.toList_append, List.append_assoc]
    rfl
  rw [htext, hl.operand, scan_infix, hr.operand]
  · simp [ofTokens]
  · exact fun c hc => enders_subset_followers _ (hrest c hc)
  · exact fun c hc => enders_subset_followers _ (mem_enders_of_cons (by decide) _ c hc)

theorem scans_update {op : UpdateOp} {before : Bool} (he : e.Scans depth) (htarget : e.isTarget = true) :
    (update op before e).Scans depth := by
  intro rest hrest
  have hmark : ∀ cs, scan 1 false (op.symbol.toList ++ cs) = ⟨.mark op.mark, 1, false⟩ :: scan 1 false cs := by
    cases op with
    | increment => exact scan_closed (m := .increment) (by decide)
    | decrement => exact scan_closed (m := .decrement) (by decide)
  rw [textAt, tokens]
  cases before with
  | true =>
    rw [if_pos rfl, if_pos rfl, String.toList_append, List.append_assoc, hmark, he.operand]
    · rfl
    · exact fun c hc => enders_subset_followers _ (hrest c hc)
  | false =>
    rw [if_neg Bool.false_ne_true, if_neg Bool.false_ne_true, String.toList_append, List.append_assoc,
      he.operand, hmark]
    · simp [ofTokens]
    · rw [followers_of_isTarget htarget]
      cases op with
      | increment => exact fun c hc => by cases hc; decide
      | decrement => exact fun c hc => by cases hc; decide

theorem scans_assign {op : Option BinaryOp} {m : Mark} (hop : assignmentMark? op = some m)
    (he : e.Scans depth) (hvalue : value.Scans depth) : (assign op e value).Scans depth := by
  intro rest hrest
  rw [textAt, tokens, hop]
  have htext : (e.textAt depth ++ " " ++ assignmentSymbol op ++ " " ++ value.textAt depth).toList ++ rest
      = (e.textAt depth).toList ++ ' ' :: ((assignmentSymbol op).toList ++
        ' ' :: ((value.textAt depth).toList ++ rest)) := by
    simp only [String.toList_append, List.append_assoc]
    rfl
  rw [htext, he.before (mem_enders_of_cons (by decide) _), scan_assignment hop, hvalue.before hrest]
  simp [ofTokens]

theorem scans_conditional (htest : test.Scans depth) (hyes : yes.Scans depth) (hno : no.Scans depth) :
    (conditional test yes no).Scans depth := by
  intro rest hrest
  rw [textAt, tokens]
  have htext : (Printer.operand test (test.textAt depth) ++ " ? " ++ Printer.operand yes (yes.textAt depth)
      ++ " : " ++ Printer.operand no (no.textAt depth)).toList ++ rest
      = (Printer.operand test (test.textAt depth)).toList ++ ' ' :: (Mark.question.spelling.toList ++
        ' ' :: ((Printer.operand yes (yes.textAt depth)).toList ++ ' ' :: (Mark.colon.spelling.toList ++
        ' ' :: ((Printer.operand no (no.textAt depth)).toList ++ rest)))) := by
    simp only [String.toList_append, List.append_assoc]
    rfl
  rw [htext, htest.operand, scan_spacedMark, hyes.operand, scan_spacedMark, hno.operand]
  · simp [ofTokens]
  · exact fun c hc => enders_subset_followers _ (hrest c hc)
  · exact fun c hc => enders_subset_followers _ (mem_enders_of_cons (by decide) _ c hc)
  · exact fun c hc => enders_subset_followers _ (mem_enders_of_cons (by decide) _ c hc)

theorem scans_call (hcallee : callee.Scans depth) (hes : ∀ e ∈ es, e.Scans depth) :
    (call callee es).Scans depth := by
  intro rest _
  rw [textAt, tokens]
  have htext : (Printer.operand callee (callee.textAt depth) ++ "(" ++ commas (texts depth es) ++ ")").toList
      ++ rest = (Printer.operand callee (callee.textAt depth)).toList ++
        '(' :: ((commas (texts depth es)).toList ++ ')' :: rest) := by
    simp only [String.toList_append, List.append_assoc]
    rfl
  rw [htext, hcallee.operand, scan_leftParen, scan_commas hes (mem_enders_of_cons (by decide) _),
    scan_rightParen]
  · simp [ofTokens]
  · exact fun c hc => enders_subset_followers _ (mem_enders_of_cons (by decide) _ c hc)

theorem scans_member (hobject : object.Scans depth) (hnumber : object.isNumber = false)
    (hname : Lexeme.IsWord name) : (member object name).Scans depth := by
  intro rest hrest
  rw [textAt, tokens]
  have htext : (Printer.operand object (object.textAt depth) ++ "." ++ name).toList ++ rest
      = (Printer.operand object (object.textAt depth)).toList ++ (Mark.dot.spelling.toList ++
        (name.toList ++ rest)) := by
    simp only [String.toList_append, List.append_assoc]
    rfl
  have hdot : ∀ c ∈ (name.toList ++ rest).head?, c ∉ Mark.dot.continuations := by
    obtain ⟨c, cs, hc, hstart, -⟩ := hname
    have hnone : ∀ c ∈ Mark.dot.continuations, Text.isIdentifierStart c = false := by decide +kernel
    rw [hc]
    rintro d hd
    cases hd
    intro hmem
    rw [hnone c hmem] at hstart
    cases hstart
  rw [htext, hobject.operand, scan_mark hdot, scan_name name hname hrest]
  · simp [ofTokens]
  · rw [followers, if_neg (by rw [hnumber]; exact Bool.false_ne_true)]
    exact fun c hc => by cases hc; decide

theorem scans_index (hobject : object.Scans depth) (hkey : key.Scans depth) :
    (index object key).Scans depth := by
  intro rest _
  rw [textAt, tokens]
  have htext : (Printer.operand object (object.textAt depth) ++ "[" ++ key.textAt depth ++ "]").toList ++ rest
      = (Printer.operand object (object.textAt depth)).toList ++
        '[' :: ((key.textAt depth).toList ++ ']' :: rest) := by
    simp only [String.toList_append, List.append_assoc]
    rfl
  rw [htext, hobject.operand, scan_leftBracket, hkey.before (mem_enders_of_cons (by decide) _),
    scan_rightBracket]
  · simp [ofTokens]
  · exact fun c hc => enders_subset_followers _ (mem_enders_of_cons (by decide) _ c hc)

end

/-- The text of a printable expression is scanned as its tokens. -/
theorem Printable.scans (h : e.Printable) (depth : Nat) : e.Scans depth := by
  induction h with
  | literal h => exact scans_literal h
  | identifier hword hname =>
    intro rest hrest
    rw [textAt, tokens, ← hname]
    exact scan_name _ hword hrest
  | this =>
    intro rest hrest
    rw [textAt, tokens]
    exact scan_keyword .thisWord hrest
  | array hes ih => exact scans_array ih
  | unary op he ih => exact scans_unary ih (he.operand_head depth)
  | operation op hl hr ihl ihr => exact scans_apply ihl ihr
  | update op before he htarget ih => exact scans_update ih htarget
  | assign hop he htarget hvalue ih ihvalue => exact scans_assign hop ih ihvalue
  | conditional htest hyes hno ihtest ihyes ihno => exact scans_conditional ihtest ihyes ihno
  | call hcallee hargs ih ihargs => exact scans_call ih ihargs
  | member hobject hnumber hname ih => exact scans_member ih hnumber hname
  | index hobject hkey ih ihkey => exact scans_index ih ihkey

end Expression

end PageScript
