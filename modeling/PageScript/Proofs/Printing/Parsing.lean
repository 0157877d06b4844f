import PageScript.Proofs.Printing.Steps

/-! # Parsing the tokens of an expression

Each level of the grammar is one lemma on what it does when its operand has been read, and each form of
expression one lemma on how it is read from its tokens.  The parser sees more than a dozen precedences
where the printer sees two; but behind an operand in the printed text there is always a token that makes
every level up to the right one stop.
-/

set_option autoImplicit false

namespace PageScript

open Lexeme (ofTokens)

/-! ## Tokens between expressions -/

namespace Token

/-- Whether a token begins an operand. -/
def startsOperand : Token → Bool
  | .identifier _ | .number _ | .string _ | .boolean _ | .null | .keyword .thisWord | .mark .leftParen
  | .mark .leftBracket => true
  | _ => false

/-- Whether a token begins an expression. -/
def startsExpression : Token → Bool
  | .keyword .typeofWord | .keyword .voidWord | .keyword .deleteWord | .mark .plus | .mark .minus
  | .mark .bang | .mark .tilde | .mark .increment | .mark .decrement => true
  | t => t.startsOperand

/-- Whether an operand ends before a token. -/
def endsOperand : Token → Bool
  | .mark .dot | .mark .leftBracket | .mark .leftParen | .mark .increment | .mark .decrement
  | .invalid _ => false
  | _ => true

/-- Whether an expression ends before a token. -/
structure Closes (t : Token) : Prop where
  operand : t.endsOperand = true
  operation : ∀ tier : Tier, tier.operator? false t = none
  condition : t.isMark .question = false
  assignment : assignment? t = none

variable {t : Token} {m : Mark}

theorem startsExpression_of_startsOperand (h : t.startsOperand = true) : t.startsExpression = true := by
  unfold startsExpression
  split <;> first | rfl | exact h

theorem isValid_of_startsOperand (h : t.startsOperand = true) : t.isValid = true := by
  cases t <;> first | rfl | cases h

theorem isValid_of_startsExpression (h : t.startsExpression = true) : t.isValid = true := by
  cases t <;> first | rfl | cases h

/-- A mark that begins no expression is not the token that begins one. -/
theorem isMark_of_startsExpression (h : t.startsExpression = true)
    (hm : (Token.mark m).startsExpression = false) : t.isMark m = false := by
  cases hmark : t.isMark m with
  | false => rfl
  | true =>
    cases t with
    | mark m' =>
      rw [eq_of_beq (hmark : (m' == m) = true), hm] at h
      cases h
    | _ => cases hmark

theorem isValid_of_endsOperand (h : t.endsOperand = true) : t.isValid = true := by
  cases t <;> first | rfl | cases h

/-- The marks behind an expression in parentheses, in brackets, in a list, before the second branch of a
conditional one, and at the end of a statement. -/
theorem closes_of_mem (h : m ∈ [Mark.rightParen, .rightBracket, .comma, .colon, .semicolon]) :
    (Token.mark m).Closes := by
  simp only [List.mem_cons, List.not_mem_nil, or_false] at h
  rcases h with rfl | rfl | rfl | rfl | rfl <;> exact ⟨rfl, fun tier => by cases tier <;> rfl, rfl, rfl⟩

end Token

namespace Infix

/-- The precedence of an operator. -/
def tier : Infix → Tier
  | .binary .add | .binary .sub => .additive
  | .binary .mul | .binary .div | .binary .mod => .multiplicative
  | .binary .equal | .binary .notEqual | .binary .strictEqual | .binary .strictNotEqual => .equality
  | .binary .less | .binary .greater | .binary .lessEqual | .binary .greaterEqual | .binary .isIn
  | .binary .instanceOf => .relational
  | .binary .shiftLeft | .binary .shiftRight | .binary .unsignedShiftRight => .shift
  | .binary .bitAnd => .bitAnd
  | .binary .bitOr => .bitOr
  | .binary .bitXor => .bitXor
  | .logical .and => .logicalAnd
  | .logical .or => .logicalOr

/-- An operator belongs to one precedence only. -/
theorem operator?_token (op : Infix) (tier : Tier) :
    tier.operator? false op.token = if tier = op.tier then some op else none := by
  cases op with
  | binary op => cases op <;> cases tier <;> rfl
  | logical op => cases op <;> cases tier <;> rfl

theorem endsOperand_token (op : Infix) : op.token.endsOperand = true := by
  cases op with
  | binary op => cases op <;> rfl
  | logical op => cases op <;> rfl

/-- The precedences that bind tighter than an operator do not know it. -/
theorem exists_tighter (op : Infix) : ∃ looser tighter, Tier.all = looser ++ op.tier :: tighter ∧
    ∀ tier ∈ tighter, tier.operator? false op.token = none := by
  have hmem : op.tier ∈ Tier.all := by
    have hall : ∀ tier : Tier, tier ∈ Tier.all := fun tier => by cases tier <;> decide
    exact hall _
  obtain ⟨looser, tighter, hsplit⟩ := List.append_of_mem hmem
  have hnodup : Tier.all.Nodup := by decide
  rw [hsplit, List.nodup_append] at hnodup
  refine ⟨looser, tighter, hsplit, fun tier htier => ?_⟩
  rw [operator?_token, if_neg]
  rintro rfl
  exact (List.nodup_cons.1 hnodup.2.1).1 htier

end Infix

/-! ## Levels of the grammar -/

namespace Goal

open PageScript.Parser

variable {levels : Nat} {deeper : Deeper} {s : Surroundings} {e l r target value test yes no : Expression}
  {t u : Token} {ts us ls rs : List Token}

/-- A goal one level deeper leads where its rule leads from any level. -/
theorem parse_leadsTo {g : Goal} {y : Parser g.Result}
    (h : ∀ levels, LeadsTo (rule (parse levels) g s) ts y us) : LeadsTo (parse levels g s) ts y us := by
  cases levels with
  | zero => exact .tooDeep
  | succ levels => exact h levels

theorem expression_leadsTo (h : LeadsTo (deeper .assignment s) ts (pure e) (u :: us))
    (hu : u.isMark .comma = false) : LeadsTo (expression deeper s) ts (pure e) (u :: us) := by
  have hstop : (!u.isMark .comma) = true := by rw [hu]; rfl
  have hone : LeadsTo (commaSeparated (deeper .assignment s)) ts (pure [e]) (u :: us) :=
    h.andThen ((LeadsTo.many_stop hstop).andThen (.refl _ _))
  exact hone.andThen (.refl _ _)

theorem suffixes_leadsTo {calls : Bool} (hu : u.endsOperand = true) :
    LeadsTo (suffixes deeper s calls e) (u :: us) (pure e) (u :: us) := by
  refine .current ?_
  split
  · cases hu
  · cases hu
  · cases hu
  · exact .refl _ _

theorem leftHandSide_leadsTo (ht : t.startsOperand = true)
    (h : LeadsTo (primary deeper s) (t :: ts) (pure e) us) :
    LeadsTo (leftHandSide deeper s) (t :: ts) (suffixes deeper s true e) us := by
  have hnew : t.isKeyword .newWord = false := by
    cases t with
    | keyword k => cases k <;> first | rfl | cases ht
    | _ => rfl
  refine .current ?_
  dsimp only
  rw [hnew, if_neg Bool.false_ne_true]
  exact h.andThen (.refl _ _)

theorem prefixed_leadsTo (ht : t.startsOperand = true) :
    LeadsTo (prefixed deeper s) (t :: ts) (postfixed deeper s) (t :: ts) := by
  refine .current ?_
  have hunary : unaryOperator? t = none := by
    cases t with
    | keyword k => cases k <;> first | rfl | cases ht
    | mark m => cases m <;> first | rfl | cases ht
    | _ => rfl
  have hupdate : updateOperator? t = none := by
    cases t with
    | mark m => cases m <;> first | rfl | cases ht
    | _ => rfl
  rw [hunary, hupdate]
  exact .refl _ _

theorem chain_leadsTo {tier : Tier} {tighter : List Tier} (hu : tier.operator? s.withoutIn u = none) :
    LeadsTo (chain deeper s tier tighter e) (u :: us) (pure e) (u :: us) := by
  refine .current ?_
  rw [hu]
  exact .refl _ _

/-- Looser precedences pass on what is read, if none has the operator that comes next. -/
theorem tiers_leadsTo {list : List Tier} (h : LeadsTo (tiers deeper s list) ts (pure e) (u :: us))
    (looser : List Tier) (hu : ∀ tier ∈ looser, tier.operator? s.withoutIn u = none) :
    LeadsTo (tiers deeper s (looser ++ list)) ts (pure e) (u :: us) := by
  induction looser with
  | nil => exact h
  | cons tier looser ih =>
    exact (ih fun t ht => hu t (.tail _ ht)).andThen (chain_leadsTo (hu tier (.head _)))

end Goal

/-! ## Reading expressions -/

namespace Expression

open PageScript.Parser Goal Printer

/-- Whether an expression is read off tokens as the operand of a prefix operator. -/
def ReadsUnary (e : Expression) (ts : List Token) : Prop :=
  ∀ levels u us, u.endsOperand = true →
    LeadsTo (prefixed (parse levels) .program) (ts ++ u :: us) (pure e) (u :: us)

/-- Whether an expression is read off tokens as an assignment expression. -/
def ReadsWhole (e : Expression) (ts : List Token) : Prop :=
  ∀ levels u us, u.Closes →
    LeadsTo (parse levels .assignment .program) (ts ++ u :: us) (pure e) (u :: us)

/-- Whether an expression is read off tokens in front of further suffixes. -/
def ReadsOperand (e : Expression) (ts : List Token) : Prop :=
  ∀ levels u us, u.isValid = true → ∃ deeper,
    LeadsTo (leftHandSide (parse levels) .program) (ts ++ u :: us) (suffixes (parse deeper) .program true e)
      (u :: us)

/-- Whether an expression is read off its tokens, as an operand and as a whole. -/
structure Reads (e : Expression) : Prop where
  operand : e.ReadsOperand (operandTokens e e.tokens)
  operandFirst : ∃ t ts, operandTokens e e.tokens = t :: ts ∧ t.startsOperand = true
  whole : e.ReadsWhole e.tokens
  first : ∃ t ts, e.tokens = t :: ts ∧ t.startsExpression = true

variable {e l r target value test yes no object key callee : Expression} {ts ls rs us : List Token}
  {t u : Token} {name : String} {args : List Expression}

/-! ### From operands to whole expressions -/

theorem ReadsOperand.unary (h : e.ReadsOperand (t :: ts)) (ht : t.startsOperand = true) :
    e.ReadsUnary (t :: ts) := by
  intro levels u us hu
  obtain ⟨deeper, hleads⟩ := h levels u us (Token.isValid_of_endsOperand hu)
  have hnone : updateOperator? u = none := by
    cases u with
    | mark m => cases m <;> first | rfl | cases hu
    | _ => rfl
  refine (prefixed_leadsTo ht).trans ?_
  refine (hleads.trans (suffixes_leadsTo hu)).andThen (.peek ?_)
  dsimp only
  rw [if_neg Bool.false_ne_true, hnone]
  exact .refl _ _

theorem readsWhole_of_tiers
    (h : ∀ levels u us, u.Closes →
      LeadsTo (tiers (parse levels) .program Tier.all) (ts ++ u :: us) (pure e) (u :: us)) :
    e.ReadsWhole ts := by
  intro levels u us hu
  refine parse_leadsTo fun levels => ?_
  have hconditional : LeadsTo (Goal.conditional (parse levels) .program) (ts ++ u :: us) (pure e) (u :: us) :=
    (h levels u us hu).andThen ((LeadsTo.skipMark_of_ne hu.condition).andThen (.refl _ _))
  refine hconditional.andThen (.current ?_)
  rw [hu.assignment]
  exact .refl _ _

theorem ReadsUnary.tiers (h : e.ReadsUnary ts) {levels : Nat} {list : List Tier} (hu : u.endsOperand = true)
    (hlist : ∀ tier ∈ list, tier.operator? false u = none) :
    LeadsTo (Goal.tiers (parse levels) .program list) (ts ++ u :: us) (pure e) (u :: us) := by
  have hnone : LeadsTo (Goal.tiers (parse levels) .program []) (ts ++ u :: us) (pure e) (u :: us) :=
    h levels u us hu
  exact List.append_nil list ▸ tiers_leadsTo hnone list hlist

theorem ReadsUnary.whole (h : e.ReadsUnary ts) : e.ReadsWhole ts :=
  readsWhole_of_tiers fun _ _ _ hu => h.tiers hu.operand fun tier _ => hu.operation tier

theorem readsOperand_parens (h : e.ReadsWhole (t :: ts)) (ht : t.isValid = true) :
    e.ReadsOperand (.mark .leftParen :: (t :: ts ++ [.mark .rightParen])) := by
  intro levels u us hu
  have htokens : Token.mark .leftParen :: (t :: ts ++ [.mark .rightParen]) ++ u :: us
      = .mark .leftParen :: (t :: ts ++ .mark .rightParen :: u :: us) := by
    simp only [List.append_assoc, List.cons_append, List.nil_append]
  rw [htokens]
  refine ⟨levels, leftHandSide_leadsTo rfl (.current ?_)⟩
  have hwhole := h levels (.mark .rightParen) (u :: us) (Token.closes_of_mem (by decide))
  refine (LeadsTo.advance ht).andThen ?_
  refine (expression_leadsTo hwhole rfl).andThen ?_
  exact (LeadsTo.expectMark (.advance hu)).andThen (.refl _ _)

theorem Reads.of_primary (he : e.isPrimary = true) (h : e.ReadsOperand e.tokens)
    (hfirst : ∃ t ts, e.tokens = t :: ts ∧ t.startsOperand = true) : e.Reads := by
  have htokens := operandTokens_of_isPrimary he e.tokens
  obtain ⟨t, ts, hts, ht⟩ := hfirst
  refine ⟨by rw [htokens]; exact h, ⟨t, ts, by rw [htokens]; exact hts, ht⟩, ?_, t, ts, hts,
    Token.startsExpression_of_startsOperand ht⟩
  rw [hts] at h ⊢
  exact (h.unary ht).whole

theorem Reads.of_whole (he : e.isPrimary = false) (h : e.ReadsWhole e.tokens)
    (hfirst : ∃ t ts, e.tokens = t :: ts ∧ t.startsExpression = true) : e.Reads := by
  have htokens := operandTokens_of_not_isPrimary he e.tokens
  refine ⟨?_, ⟨_, _, htokens, rfl⟩, h, hfirst⟩
  obtain ⟨t, ts, hts, ht⟩ := hfirst
  rw [htokens]
  rw [hts] at h ⊢
  exact readsOperand_parens h (Token.isValid_of_startsExpression ht)

theorem Reads.unary (h : e.Reads) : e.ReadsUnary (operandTokens e e.tokens) := by
  obtain ⟨t, ts, hts, ht⟩ := h.operandFirst
  have hoperand := h.operand
  rw [hts] at hoperand ⊢
  exact hoperand.unary ht

/-- The reader comes to the first token of an operand, and of whatever stands behind it. -/
theorem Reads.advance_operand (h : e.Reads) (us : List Token) :
    LeadsTo Parser.advance (t :: (operandTokens e e.tokens ++ us)) (pure ()) (operandTokens e e.tokens ++ us) := by
  obtain ⟨u, ts, hts, hu⟩ := h.operandFirst
  rw [hts]
  exact .advance (Token.isValid_of_startsOperand hu)

theorem Reads.advance_whole (h : e.Reads) (us : List Token) :
    LeadsTo Parser.advance (t :: (e.tokens ++ us)) (pure ()) (e.tokens ++ us) := by
  obtain ⟨u, ts, hts, hu⟩ := h.first
  rw [hts]
  exact .advance (Token.isValid_of_startsExpression hu)

/-! ### Operators -/

theorem readsUnary_unary {op : UnaryOp} (h : e.Reads) : (Expression.unary op e).ReadsUnary (unary op e).tokens := by
  intro levels u us hu
  have hop : unaryOperator? op.token = some op := by cases op <;> rfl
  have hoperand : LeadsTo (parse levels .unary .program) (operandTokens e e.tokens ++ u :: us) (pure e)
      (u :: us) := parse_leadsTo fun levels => h.unary levels u us hu
  rw [tokens]
  refine .current ?_
  rw [hop]
  exact (h.advance_operand (u :: us)).andThen (hoperand.andThen (.refl _ _))

theorem readsUnary_update {op : UpdateOp} {before : Bool} (h : e.Reads) (htarget : e.isTarget = true) :
    (update op before e).ReadsUnary (update op before e).tokens := by
  intro levels u us hu
  have hop : updateOperator? (.mark op.mark) = some op := by cases op <;> rfl
  rw [tokens]
  cases before with
  | true =>
    have hunary : unaryOperator? (.mark op.mark) = none := by cases op <;> rfl
    have hoperand : LeadsTo (parse levels .unary .program) (operandTokens e e.tokens ++ u :: us) (pure e)
        (u :: us) := parse_leadsTo fun levels => h.unary levels u us hu
    refine .current ?_
    rw [hunary, hop]
    refine (h.advance_operand (u :: us)).andThen (hoperand.andThen ?_)
    rw [htarget]
    exact .refl _ _
  | false =>
    have hnone : ∀ deeper, LeadsTo (suffixes (parse deeper) .program true e) (.mark op.mark :: u :: us)
        (pure e) (.mark op.mark :: u :: us) := fun deeper => by
      cases op <;> exact .refl _ _
    obtain ⟨deeper, hleads⟩ := h.operand levels (.mark op.mark) (u :: us) (by cases op <;> rfl)
    have hprefixed : LeadsTo (prefixed (parse levels) .program)
        (operandTokens e e.tokens ++ .mark op.mark :: u :: us) (postfixed (parse levels) .program)
        (operandTokens e e.tokens ++ .mark op.mark :: u :: us) := by
      obtain ⟨t, ts, hts, ht⟩ := h.operandFirst
      rw [hts]
      exact prefixed_leadsTo ht
    rw [if_neg Bool.false_ne_true, List.append_assoc]
    refine hprefixed.trans ((hleads.trans (hnone deeper)).andThen (.peek ?_))
    dsimp only
    rw [if_neg Bool.false_ne_true, hop, htarget]
    exact (LeadsTo.advance (Token.isValid_of_endsOperand hu)).andThen (.refl _ _)

theorem readsWhole_apply {op : Infix} (hl : l.Reads) (hr : r.Reads) :
    (op.apply l r).ReadsWhole (op.apply l r).tokens := by
  obtain ⟨looser, tighter, hall, htighter⟩ := op.exists_tighter
  refine readsWhole_of_tiers fun levels u us hu => ?_
  rw [tokens_apply, hall, List.append_assoc]
  refine tiers_leadsTo ?_ looser fun tier _ => hu.operation tier
  refine (hl.unary.tiers op.endsOperand_token htighter).andThen (.current ?_)
  have hop : op.tier.operator? Surroundings.program.withoutIn op.token = some op := by
    show op.tier.operator? false op.token = some op
    rw [op.operator?_token, if_pos rfl]
  rw [hop]
  refine (hr.advance_operand (u :: us)).andThen (parse_leadsTo fun levels => ?_)
  refine (hr.unary.tiers hu.operand fun tier _ => hu.operation tier).andThen ?_
  exact chain_leadsTo (hu.operation op.tier)

theorem readsWhole_conditional (htest : test.Reads) (hyes : yes.Reads) (hno : no.Reads) :
    (conditional test yes no).ReadsWhole (conditional test yes no).tokens := by
  intro levels u us hu
  rw [tokens, List.append_assoc, List.cons_append, List.append_assoc, List.cons_append]
  refine parse_leadsTo fun levels => ?_
  have hquestion : ∀ tier : Tier, tier.operator? false (.mark .question) = none := fun tier => by
    cases tier <;> rfl
  have hconditional : LeadsTo (Goal.conditional (parse levels) .program)
      (operandTokens test test.tokens ++ .mark .question :: (operandTokens yes yes.tokens ++
        .mark .colon :: (operandTokens no no.tokens ++ u :: us)))
      (pure (conditional test yes no)) (u :: us) := by
    refine (htest.unary.tiers rfl fun tier _ => hquestion tier).andThen ?_
    refine (LeadsTo.skipMark (hyes.advance_operand _)).andThen ?_
    rw [if_pos rfl]
    refine (hyes.unary.whole levels (.mark .colon) _ (Token.closes_of_mem (by decide))).andThen ?_
    refine (LeadsTo.expectMark (hno.advance_operand _)).andThen ?_
    exact (hno.unary.whole levels u us hu).andThen (.refl _ _)
  refine hconditional.andThen (.current ?_)
  rw [hu.assignment]
  exact .refl _ _

theorem readsWhole_assign {op : Option BinaryOp} {m : Mark} (hop : assignmentMark? op = some m)
    (h : target.Reads) (htarget : target.isTarget = true) (hvalue : value.Reads) :
    (assign op target value).ReadsWhole (assign op target value).tokens := by
  have hmark : assignment? (.mark m) = some op ∧ (Token.mark m).endsOperand = true ∧
      (Token.mark m).isMark .question = false ∧ ∀ tier : Tier, tier.operator? false (.mark m) = none := by
    cases op with
    | none => cases hop; exact ⟨rfl, rfl, rfl, fun tier => by cases tier <;> rfl⟩
    | some op => cases op <;> cases hop <;> exact ⟨rfl, rfl, rfl, fun tier => by cases tier <;> rfl⟩
  obtain ⟨hassign, hends, hcondition, htier⟩ := hmark
  have hleft := h.unary
  rw [operandTokens_of_isTarget htarget] at hleft
  intro levels u us hu
  rw [tokens, hop, List.append_assoc, List.append_assoc]
  refine parse_leadsTo fun levels => ?_
  have hconditional : LeadsTo (Goal.conditional (parse levels) .program)
      (target.tokens ++ .mark m :: (value.tokens ++ u :: us)) (pure target)
      (.mark m :: (value.tokens ++ u :: us)) :=
    (hleft.tiers hends fun tier _ => htier tier).andThen
      ((LeadsTo.skipMark_of_ne hcondition).andThen (.refl _ _))
  refine hconditional.andThen (.current ?_)
  rw [hassign, htarget]
  exact (hvalue.advance_whole (u :: us)).andThen ((hvalue.whole levels u us hu).andThen (.refl _ _))

/-! ### Operands -/

theorem readsOperand_leaf (htokens : e.tokens = [t]) (ht : t.startsOperand = true)
    (h : ∀ (deeper : Deeper) us, LeadsTo (primary deeper .program) (t :: us) (leaf e) (t :: us)) :
    e.ReadsOperand e.tokens := by
  intro levels u us hu
  rw [htokens]
  refine ⟨levels, leftHandSide_leadsTo ht ((h _ _).trans ?_)⟩
  exact (LeadsTo.advance hu).andThen (.refl _ _)

/-- The reader comes to the first of several expressions, or to the mark behind none. -/
theorem advance_commas {close : Mark} (hargs : ∀ e ∈ args, e.Reads) (us : List Token) :
    LeadsTo Parser.advance (t :: (commaTokens (tokenLists args) ++ .mark close :: us)) (pure ())
      (commaTokens (tokenLists args) ++ .mark close :: us) := by
  cases args with
  | nil => exact .advance rfl
  | cons e args =>
    obtain ⟨more, hmore⟩ := commaTokens_cons e.tokens (tokenLists args)
    rw [tokenLists, hmore, List.append_assoc]
    exact (hargs e (.head _)).advance_whole _

theorem Reads.element (h : e.Reads) (levels : Nat) :
    ReadsItem .rightBracket (fun _ => Goal.element (parse levels) .program) e.tokens (some e) := by
  obtain ⟨t, ts, htokens, ht⟩ := h.first
  have hcomma : t.isMark .comma = false := Token.isMark_of_startsExpression ht rfl
  refine ⟨⟨t, ts, htokens, Token.isValid_of_startsExpression ht, Token.isMark_of_startsExpression ht rfl⟩,
    fun before us => ?_, fun before v us hv => ?_⟩
  · have hread := h.whole levels (.mark .rightBracket) us (Token.closes_of_mem (by decide))
    rw [htokens] at hread ⊢
    refine (LeadsTo.skipMark_of_ne hcomma).andThen ?_
    exact hread.andThen (.current (.refl _ _))
  · have hread := h.whole levels (.mark .comma) (v :: us) (Token.closes_of_mem (by decide))
    rw [htokens] at hread ⊢
    refine (LeadsTo.skipMark_of_ne hcomma).andThen ?_
    exact hread.andThen (.current ((LeadsTo.expectMark (.advance hv)).andThen (.refl _ _)))

theorem readsOperand_array (hargs : ∀ e ∈ args, e.Reads) :
    (array (args.map some)).ReadsOperand (array (args.map some)).tokens := by
  intro levels u us hu
  have hmany := LeadsTo.many_commas (f := some) (fun e he => (hargs e he).element levels) (u :: us)
  rw [tokens, elementTokens_map_some, List.cons_append, List.append_assoc, List.singleton_append]
  refine ⟨levels, leftHandSide_leadsTo rfl (.current ?_)⟩
  refine (advance_commas hargs (u :: us)).andThen (hmany.andThen ?_)
  exact (LeadsTo.expectMark (.advance hu)).andThen (.refl _ _)

theorem Reads.argument (h : e.Reads) (levels : Nat) :
    ReadsItem .rightParen (fun _ => do
      let e ← parse levels .assignment .program
      if !(← Parser.current).isMark .rightParen then Parser.expectMark .comma
      return e) e.tokens (id e) := by
  obtain ⟨t, ts, htokens, ht⟩ := h.first
  refine ⟨⟨t, ts, htokens, Token.isValid_of_startsExpression ht, Token.isMark_of_startsExpression ht rfl⟩,
    fun before us => ?_, fun before v us hv => ?_⟩
  · have hread := h.whole levels (.mark .rightParen) us (Token.closes_of_mem (by decide))
    exact hread.andThen (.current (.refl _ _))
  · have hread := h.whole levels (.mark .comma) (v :: us) (Token.closes_of_mem (by decide))
    exact hread.andThen (.current ((LeadsTo.expectMark (.advance hv)).andThen (.refl _ _)))

/-- A suffix goes on from what was read before it. -/
theorem Reads.suffix (h : object.Reads) (ht : t.isValid = true) {suffix : List Token}
    (hsuffix : ∀ levels u us, u.isValid = true → ∃ deeper,
      LeadsTo (suffixes (parse levels) .program true object) (t :: (suffix ++ u :: us))
        (suffixes (parse deeper) .program true e) (u :: us)) :
    e.ReadsOperand (operandTokens object object.tokens ++ t :: suffix) := by
  intro levels u us hu
  rw [List.append_assoc]
  obtain ⟨deeper, hleads⟩ := h.operand levels t (suffix ++ u :: us) ht
  obtain ⟨deeper', hleads'⟩ := hsuffix deeper u us hu
  exact ⟨deeper', hleads.trans hleads'⟩

theorem readsOperand_call (hcallee : callee.Reads) (hargs : ∀ e ∈ args, e.Reads) :
    (call callee args).ReadsOperand (call callee args).tokens := by
  rw [tokens]
  refine hcallee.suffix rfl fun levels u us hu => ?_
  rw [List.append_assoc, List.singleton_append]
  cases levels with
  | zero => exact ⟨0, .current .tooDeep⟩
  | succ levels =>
    have hmany := LeadsTo.many_commas (f := id) (fun e he => (hargs e he).argument levels) (u :: us)
    rw [List.map_id] at hmany
    have hlist : LeadsTo (argumentList (parse levels) .program)
        (.mark .leftParen :: (commaTokens (tokenLists args) ++ .mark .rightParen :: u :: us)) (pure args)
        (u :: us) := by
      refine (LeadsTo.expectMark (advance_commas hargs (u :: us))).andThen (hmany.andThen ?_)
      exact (LeadsTo.expectMark (.advance hu)).andThen (.refl _ _)
    exact ⟨levels, .current (hlist.andThen (.refl _ _))⟩

theorem dotName_leadsTo (ht : t.memberName? = some name) (hu : u.isValid = true) :
    LeadsTo dotName (t :: u :: us) (pure name) (u :: us) := by
  have hname : ∀ t : Token, LeadsTo (do
      advance
      return name) (t :: u :: us) (pure name) (u :: us) := fun t => (LeadsTo.advance hu).andThen (.refl _ _)
  refine .current ?_
  cases t <;> cases ht <;> exact (LeadsTo.refl _ _).andThen (hname _)

theorem readsOperand_member (hobject : object.Reads) (name : String) :
    (member object name).ReadsOperand (member object name).tokens := by
  have hname := Token.memberName?_ofWord name
  have hvalid : (Lexeme.ofWord name).isValid = true := by
    cases hword : Lexeme.ofWord name with
    | invalid => rw [hword] at hname; cases hname
    | _ => rfl
  rw [tokens]
  refine hobject.suffix rfl fun levels u us hu => ?_
  cases levels with
  | zero => exact ⟨0, .current ((LeadsTo.advance hvalid).andThen .tooDeep)⟩
  | succ levels =>
    refine ⟨levels, .current ((LeadsTo.advance hvalid).andThen ?_)⟩
    exact (dotName_leadsTo hname hu).andThen (.refl _ _)

theorem readsOperand_index (hobject : object.Reads) (hkey : key.Reads) :
    (index object key).ReadsOperand (index object key).tokens := by
  rw [tokens]
  refine hobject.suffix rfl fun levels u us hu => ?_
  rw [List.append_assoc, List.singleton_append]
  cases levels with
  | zero => exact ⟨0, .current ((hkey.advance_whole _).andThen .tooDeep)⟩
  | succ levels =>
    refine ⟨levels, .current ((hkey.advance_whole _).andThen ?_)⟩
    have hwhole := hkey.whole levels (.mark .rightBracket) (u :: us) (Token.closes_of_mem (by decide))
    refine (expression_leadsTo hwhole rfl).andThen ?_
    exact (LeadsTo.expectMark (.advance hu)).andThen (.refl _ _)

/-! ### All expressions -/

/-- What begins with an operand begins with the first token of that. -/
theorem Reads.first_append (h : e.Reads) (us : List Token) :
    ∃ t ts, operandTokens e e.tokens ++ us = t :: ts ∧ t.startsOperand = true := by
  obtain ⟨t, ts, hts, ht⟩ := h.operandFirst
  exact ⟨t, ts ++ us, by rw [hts]; rfl, ht⟩

theorem startsExpression_of_operand (h : ∃ t ts, us = t :: ts ∧ t.startsOperand = true) :
    ∃ t ts, us = t :: ts ∧ t.startsExpression = true := by
  obtain ⟨t, ts, hts, ht⟩ := h
  exact ⟨t, ts, hts, Token.startsExpression_of_startsOperand ht⟩

theorem Printable.reads (h : e.Printable) : e.Reads := by
  induction h with
  | @literal l h =>
    have htokens : (Expression.literal l).tokens = [l.token] := by rw [tokens]
    refine .of_primary rfl (readsOperand_leaf htokens ?_ ?_) ⟨_, [], htokens, ?_⟩
    all_goals cases l <;> first | rfl | exact fun _ _ => .refl _ _
  | @identifier name hword hname =>
    have htokens : (Expression.identifier name).tokens = [.identifier name] := by rw [tokens]
    exact .of_primary rfl (readsOperand_leaf htokens rfl fun _ _ => .refl _ _) ⟨_, [], htokens, rfl⟩
  | this =>
    have htokens : Expression.this.tokens = [.keyword .thisWord] := by rw [tokens]
    exact .of_primary rfl (readsOperand_leaf htokens rfl fun _ _ => .refl _ _) ⟨_, [], htokens, rfl⟩
  | array hes ih => exact .of_primary rfl (readsOperand_array ih) (by rw [tokens]; exact ⟨_, _, rfl, rfl⟩)
  | unary op he ih =>
    refine .of_whole rfl (readsUnary_unary ih).whole ?_
    rw [tokens]
    exact ⟨_, _, rfl, by cases op <;> rfl⟩
  | operation op hl hr ihl ihr =>
    refine .of_whole (isPrimary_apply _ _ _) (readsWhole_apply ihl ihr) ?_
    rw [tokens_apply]
    exact startsExpression_of_operand (ihl.first_append _)
  | update op before he htarget ih =>
    refine .of_whole rfl (readsUnary_update ih htarget).whole ?_
    rw [tokens]
    cases before with
    | true => exact ⟨_, _, rfl, by cases op <;> rfl⟩
    | false => exact startsExpression_of_operand (ih.first_append _)
  | assign hop he htarget hvalue ih ihvalue =>
    refine .of_whole rfl (readsWhole_assign hop ih htarget ihvalue) ?_
    rw [tokens, ← operandTokens_of_isTarget htarget (tokens _)]
    exact startsExpression_of_operand (ih.first_append _)
  | conditional htest hyes hno ihtest ihyes ihno =>
    refine .of_whole rfl (readsWhole_conditional ihtest ihyes ihno) ?_
    rw [tokens]
    exact startsExpression_of_operand (ihtest.first_append _)
  | call hcallee hargs ih ihargs =>
    refine .of_primary rfl (readsOperand_call ih ihargs) ?_
    rw [tokens]
    exact ih.first_append _
  | @member object name hobject hnumber hname ih =>
    refine .of_primary rfl (readsOperand_member ih name) ?_
    rw [tokens]
    exact ih.first_append _
  | index hobject hkey ih ihkey =>
    refine .of_primary rfl (readsOperand_index ih ihkey) ?_
    rw [tokens]
    exact ih.first_append _

end Expression

end PageScript
