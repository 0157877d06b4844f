import PageScript.Proofs.Outcomes

/-! # What a statement begins with

A statement begins with one of a few tokens, and whether a line break came before that token does not matter
to it.
-/

set_option autoImplicit false

namespace PageScript

/-! ## Tokens that begin a tree -/

namespace Token

/-- Whether an operand may begin with a token. -/
def opensOperand : Token → Bool
  | .identifier _ | .number _ | .string _ | .boolean _ | .null | .keyword .thisWord | .keyword .functionWord
  | .keyword .newWord | .mark .leftParen | .mark .leftBracket | .mark .leftBrace => true
  | _ => false

/-- Whether an expression may begin with a token. -/
def opensExpression (t : Token) : Bool :=
  t.opensOperand || (unaryOperator? t).isSome || (updateOperator? t).isSome

/-- Whether a statement may begin with a token. -/
def opensStatement : Token → Bool
  | .mark .semicolon | .keyword .varWord | .keyword .ifWord | .keyword .whileWord | .keyword .doWord
  | .keyword .forWord | .keyword .returnWord | .keyword .breakWord | .keyword .continueWord
  | .keyword .throwWord | .keyword .tryWord | .keyword .switchWord | .keyword .withWord => true
  | t => t.opensExpression

end Token

namespace Goal

open PageScript.Parser

variable {α β : Type} {x : Parser α} {f : α → Parser β} {deeper : Deeper} {s : Surroundings} {ts : List Lexeme}

theorem labelAhead_identifier (name : String) (line : Nat) (b : Bool) (ts : List Lexeme) :
    labelAhead (⟨.identifier name, line, b⟩ :: ts) = (checked ts).map fun _ =>
      (if (head ts).token.isMark .colon then some name else none, ⟨.identifier name, line, b⟩ :: ts) := by
  simp only [labelAhead]
  cases checked ts <;> rfl

/-! ## Refusals -/

/-- Whether a reader reads nothing off a text. -/
def Refuses (x : Parser α) (ts : List Lexeme) : Prop := ∀ r, x ts ≠ .ok r

namespace Refuses

theorem bind (h : Refuses x ts) (f : α → Parser β) : Refuses (x >>= f) ts := by
  intro r hrun
  obtain ⟨a, us, hfirst, -⟩ := bind_eq_ok_iff.1 hrun
  exact h _ hfirst

theorem fail (cause : SyntaxCause) : Refuses (Parser.fail cause : Parser α) ts := nofun

theorem expectMark {m : Mark} (h : (head ts).token.isMark m = false) : Refuses (Parser.expectMark m) ts := by
  unfold Parser.expectMark Refuses
  rw [current_bind, h]
  exact fail _

theorem expectKeyword {w : Keyword} (h : (head ts).token.isKeyword w = false) :
    Refuses (Parser.expectKeyword w) ts := by
  unfold Parser.expectKeyword Refuses
  rw [current_bind, h]
  exact fail _

theorem primary (h : (head ts).token.opensOperand = false) : Refuses (Goal.primary deeper s) ts := by
  unfold Goal.primary Refuses
  rw [current_bind]
  cases ht : (head ts).token with
  | mark m =>
    rw [ht] at h
    cases m <;> first | exact fail _ | cases h
  | keyword k =>
    rw [ht] at h
    cases k <;> first | exact fail _ | cases h
  | finish => exact fail _
  | invalid => exact fail _
  | _ =>
    rw [ht] at h
    cases h

theorem prefixed (h : (head ts).token.opensExpression = false) : Refuses (Goal.prefixed deeper s) ts := by
  simp only [Token.opensExpression, Bool.or_eq_false_iff, Option.isSome_eq_false_iff,
    Option.isNone_iff_eq_none] at h
  obtain ⟨⟨hoperand, hunary⟩, hupdate⟩ := h
  have hnew : ¬(head ts).token.isKeyword .newWord = true := by
    intro hnew
    rw [Token.eq_of_isKeyword hnew] at hoperand
    cases hoperand
  have hleft : Refuses (leftHandSide deeper s) ts := by
    unfold leftHandSide
    change Refuses (Parser.current >>= fun t => _) ts
    unfold Refuses
    rw [current_bind, if_neg hnew]
    exact (primary hoperand).bind _
  unfold Goal.prefixed Refuses
  rw [current_bind, hunary, hupdate]
  exact hleft.bind _

theorem tiers (h : (head ts).token.opensExpression = false) (list : List Tier) :
    Refuses (Goal.tiers deeper s list) ts := by
  induction list with
  | nil => exact prefixed h
  | cons tier tighter ih => exact ih.bind _

theorem expression (h : (head ts).token.opensExpression = false) {levels : Nat} :
    Refuses (Goal.expression (Goal.parse levels) s) ts := by
  have hassignment : Refuses (Goal.parse levels .assignment s) ts := by
    cases levels with
    | zero => exact fail _
    | succ levels => exact ((tiers h Tier.all).bind _).bind _
  exact (hassignment.bind _).bind _

theorem statement (h : (head ts).token.opensStatement = false) {levels : Nat} :
    Refuses (Goal.parse levels .statement s) ts := by
  cases levels with
  | zero => exact fail _
  | succ levels =>
    have hexpression : (head ts).token.opensExpression = false := by
      cases ht : (head ts).token with
      | mark m =>
        rw [ht] at h
        cases m <;> first | rfl | cases h
      | keyword k =>
        rw [ht] at h
        cases k <;> first | rfl | cases h
      | _ =>
        rw [ht] at h
        first | rfl | cases h
    have hlabel : labelAhead ts = .ok (none, ts) := by
      unfold labelAhead
      split
      · cases hexpression
      · rfl
    have hother : Refuses (otherStatement (Goal.parse levels) s) ts := by
      intro r hrun
      change Except.bind (labelAhead ts) _ = .ok r at hrun
      rw [hlabel] at hrun
      exact (expression hexpression).bind _ r hrun
    have hform : Refuses (statementForm (Goal.parse levels) s) ts := by
      unfold statementForm Refuses
      rw [current_bind]
      cases ht : (head ts).token with
      | mark m =>
        rw [ht] at h
        cases m <;> first | exact hother | cases h
      | keyword k =>
        rw [ht] at h
        cases k <;> first | exact hother | cases h
      | _ => exact hother
    exact hform.bind fun form => (pure (Statement.mk (head ts).line form) : Parser Statement)

/-- What a statement is read from begins with a token for it. -/
theorem opensStatement_of_parse {levels : Nat} {r : Statement × List Lexeme}
    (h : Goal.parse levels .statement s ts = .ok r) : (head ts).token.opensStatement = true := by
  cases hopens : (head ts).token.opensStatement with
  | true => rfl
  | false => exact absurd h (statement hopens r)

end Refuses

/-! ## Line breaks before the first token -/

/-- Whether a reader does not see a line break before its first token. -/
def Blind (x : Parser α) : Prop :=
  ∀ (t : Token) (line : Nat) (b b' : Bool) (ts : List Lexeme), x (⟨t, line, b⟩ :: ts) = x (⟨t, line, b'⟩ :: ts)

namespace Blind

theorem fail (cause : SyntaxCause) : Blind (Parser.fail cause : Parser α) := fun _ _ _ _ _ => rfl

theorem advance : Blind Parser.advance := fun _ _ _ _ _ => rfl

/-- What comes behind a reader starts from the same text. -/
theorem bind (h : Blind x) (f : α → Parser β) : Blind (x >>= f) := by
  intro t line b b' ts
  change Except.bind (x _) (fun r => f r.1 r.2) = Except.bind (x _) fun r => f r.1 r.2
  rw [h t line b b' ts]

theorem current {f : Token → Parser β} (h : ∀ t, Blind (f t)) : Blind (Parser.current >>= f) :=
  fun t line b b' ts => h t t line b b' ts

theorem peek {f : Lexeme → Parser β} (hsame : ∀ t line b b', f ⟨t, line, b⟩ = f ⟨t, line, b'⟩)
    (h : ∀ l, Blind (f l)) : Blind (Parser.peek >>= f) := fun t line b b' ts =>
  (h _ t line b b' ts).trans (congrFun (hsame t line b b') _)

theorem expectMark (m : Mark) : Blind (Parser.expectMark m) := current fun _ => by
  split
  · exact advance
  · exact fail _

theorem expectKeyword (k : Keyword) : Blind (Parser.expectKeyword k) := current fun _ => by
  split
  · exact advance
  · exact fail _

theorem function (needsName : Bool) : Blind (Goal.function deeper needsName) :=
  peek (fun _ _ _ _ => rfl) fun _ => (expectKeyword _).bind _

theorem primary : Blind (Goal.primary deeper s) := current fun _ => by
  split
  case h_7 => exact (function false).bind _
  case h_11 => exact fail _
  all_goals exact advance.bind _

theorem prefixed : Blind (Goal.prefixed deeper s) := by
  have hleft : Blind (leftHandSide deeper s) := current fun _ => by
    split
    · exact (advance.bind _).bind _
    · exact primary.bind _
  refine current fun _ => ?_
  split
  · exact advance.bind _
  · exact advance.bind _
  · exact hleft.bind _

theorem tiers (list : List Tier) : Blind (Goal.tiers deeper s list) := by
  induction list with
  | nil => exact prefixed
  | cons tier tighter ih => exact ih.bind _

theorem expression {levels : Nat} : Blind (Goal.expression (Goal.parse levels) s) := by
  have hassignment : Blind (Goal.parse levels .assignment s) := by
    cases levels with
    | zero => exact fail _
    | succ levels => exact ((tiers Tier.all).bind _).bind _
  exact (hassignment.bind _).bind _

theorem otherStatement {levels : Nat} : Blind (Goal.otherStatement (Goal.parse levels) s) := by
  have hlabelled : ∀ name : String, Blind (do
      Parser.advance
      Parser.advance
      return StatementForm.labeled name (← Goal.parse levels .statement (s.labeled name))) := fun name => advance.bind _
  have hplain : Blind (do
      let e ← Goal.expression (Goal.parse levels) s
      endStatement
      return StatementForm.expression e) := expression.bind _
  intro t line b b' ts
  change Except.bind (labelAhead (⟨t, line, b⟩ :: ts)) _ = Except.bind (labelAhead (⟨t, line, b'⟩ :: ts)) _
  cases t with
  | identifier name =>
    rw [labelAhead_identifier, labelAhead_identifier]
    cases checked ts with
    | error e => rfl
    | ok r =>
      dsimp only [Except.map, Except.bind]
      split
      · exact hlabelled name _ line b b' ts
      · exact hplain _ line b b' ts
  | _ => exact hplain _ line b b' ts

/-- A line break before a statement does not matter to it. -/
theorem statement (levels : Nat) (s : Surroundings) : Blind (Goal.parse levels .statement s) := by
  cases levels with
  | zero => exact fail _
  | succ levels =>
    have hreturn : Blind (returnStatement (Goal.parse levels) s) := by
      unfold returnStatement
      cases s.inFunction with
      | false => exact fail _
      | true => exact advance.bind _
    have hform : Blind (statementForm (Goal.parse levels) s) := current fun _ => by
      split
      case h_1 => exact ((expectMark _).bind _).bind _
      case h_4 => exact (function true).bind _
      case h_9 => exact hreturn
      case h_16 => exact otherStatement
      all_goals exact advance.bind _
    exact peek (fun _ _ _ _ => rfl) fun _ => hform.bind _

end Blind

end Goal

end PageScript
