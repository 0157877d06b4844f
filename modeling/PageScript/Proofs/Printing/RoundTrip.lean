import PageScript.Proofs.Printing.Parsing
import PageScript.Proofs.Printing.Parts
import PageScript.Proofs.Printing.Texts

/-! # Printed expressions are read back

The text of a statement that is a printable expression is scanned as the tokens of the expression, and from
these the parser reads the expression again, with the grouping that it had; or it gives up since the
parentheses of the text nest too deeply.  Every plain expression of a program is printable.
-/

set_option autoImplicit false

namespace PageScript

open Lexeme (ofTokens)

namespace Token

/-- Whether tokens do not begin with a label, so that an identifier in front is not followed by a colon. -/
def Unlabelled (ts : List Token) : Prop :=
  ∀ name u us, ts = .identifier name :: u :: us → u.isValid = true ∧ u.isMark .colon = false

theorem unlabelled_cons {t : Token} {us : List Token} (h : ∀ name, t ≠ .identifier name) : Unlabelled (t :: us) := by
  intro name u vs heq
  exact absurd (List.cons.inj heq).1 (h name)

end Token

namespace Expression

open PageScript.Parser Goal Printer

variable {e : Expression} {u : Token} {us : List Token}

theorem Printable.operand_unlabelled (h : e.Printable) (hu : u.isValid = true ∧ u.isMark .colon = false)
    (us : List Token) : Token.Unlabelled (operandTokens e e.tokens ++ u :: us) := by
  have hprimary : ∀ {e : Expression} {us : List Token}, e.isPrimary = true → Token.Unlabelled (e.tokens ++ us) →
      Token.Unlabelled (operandTokens e e.tokens ++ us) := fun he h => by
    rw [operandTokens_of_isPrimary he]
    exact h
  have hparens : ∀ {e : Expression} {us : List Token}, e.isPrimary = false →
      Token.Unlabelled (operandTokens e e.tokens ++ us) := fun he => by
    rw [operandTokens_of_not_isPrimary he]
    exact Token.unlabelled_cons fun _ => Token.noConfusion
  induction h generalizing u us with
  | @literal l h =>
    refine hprimary rfl ?_
    rw [tokens]
    exact Token.unlabelled_cons fun _ => by cases l <;> exact Token.noConfusion
  | identifier hword hname =>
    refine hprimary rfl ?_
    rw [tokens]
    intro name v vs heq
    cases heq
    exact hu
  | this =>
    refine hprimary rfl ?_
    rw [tokens]
    exact Token.unlabelled_cons fun _ => Token.noConfusion
  | array hes ih =>
    refine hprimary rfl ?_
    rw [tokens]
    exact Token.unlabelled_cons fun _ => Token.noConfusion
  | unary op he ih => exact hparens rfl
  | operation op hl hr ihl ihr => exact hparens (isPrimary_apply _ _ _)
  | update op before he htarget ih => exact hparens rfl
  | assign hop he htarget hvalue ih ihvalue => exact hparens rfl
  | conditional htest hyes hno ihtest ihyes ihno => exact hparens rfl
  | call hcallee hargs ih ihargs =>
    refine hprimary rfl ?_
    rw [tokens, List.append_assoc]
    exact ih ⟨rfl, rfl⟩ _
  | member hobject hnumber hname ih =>
    refine hprimary rfl ?_
    rw [tokens, List.append_assoc]
    exact ih ⟨rfl, rfl⟩ _
  | index hobject hkey ih ihkey =>
    refine hprimary rfl ?_
    rw [tokens, List.append_assoc]
    exact ih ⟨rfl, rfl⟩ _

/-- A printed expression in front of the end of its statement does not begin with a label. -/
theorem Printable.unlabelled (h : e.Printable) (us : List Token) :
    Token.Unlabelled (e.tokens ++ .mark .semicolon :: us) := by
  have hprimary : ∀ {e : Expression}, e.Printable → e.isPrimary = true →
      Token.Unlabelled (e.tokens ++ .mark .semicolon :: us) := fun h he => by
    have hoperand := h.operand_unlabelled (u := .mark .semicolon) ⟨rfl, rfl⟩ us
    rw [operandTokens_of_isPrimary he] at hoperand
    exact hoperand
  cases h with
  | literal h => exact hprimary (.literal h) rfl
  | identifier hword hname => exact hprimary (.identifier hword hname) rfl
  | this => exact hprimary .this rfl
  | array hes => exact hprimary (.array hes) rfl
  | call hcallee hargs => exact hprimary (.call hcallee hargs) rfl
  | member hobject hnumber hname => exact hprimary (.member hobject hnumber hname) rfl
  | index hobject hkey => exact hprimary (.index hobject hkey) rfl
  | unary op he =>
    rw [tokens]
    exact Token.unlabelled_cons fun _ => by cases op <;> exact Token.noConfusion
  | operation op hl hr =>
    rw [tokens_apply, List.append_assoc]
    refine hl.operand_unlabelled ⟨Token.isValid_of_endsOperand op.endsOperand_token, ?_⟩ _
    cases op with
    | binary op => cases op <;> rfl
    | logical op => cases op <;> rfl
  | update op before he htarget =>
    rw [tokens]
    cases before with
    | true => exact Token.unlabelled_cons fun _ => Token.noConfusion
    | false =>
      rw [if_neg Bool.false_ne_true, List.append_assoc]
      exact he.operand_unlabelled (by cases op <;> exact ⟨rfl, rfl⟩) _
  | @assign op m target value hop he htarget hvalue =>
    rw [tokens, hop, ← operandTokens_of_isTarget htarget target.tokens, List.append_assoc]
    refine he.operand_unlabelled ⟨rfl, ?_⟩ _
    cases op with
    | none => cases hop; rfl
    | some op => cases op <;> cases hop <;> rfl
  | conditional htest hyes hno =>
    rw [tokens, List.append_assoc]
    exact htest.operand_unlabelled ⟨rfl, rfl⟩ _

end Expression

/-! ## Statements -/

namespace Goal

open PageScript.Parser

variable {levels : Nat} {deeper : Deeper} {s : Surroundings} {e : Expression} {t u : Token} {ts us : List Token}

theorem labelAhead_leadsTo (h : Token.Unlabelled (t :: u :: us)) :
    LeadsTo labelAhead (t :: u :: us) (pure none) (t :: u :: us) := by
  left
  cases t with
  | identifier name =>
    obtain ⟨hu, hcolon⟩ := h name u us rfl
    cases u with
    | invalid => cases hu
    | mark m =>
      show Except.ok (if (Token.mark m).isMark .colon = true then some name else none, _) = _
      rw [hcolon]
      rfl
    | _ => rfl
  | _ => rfl

theorem statementForm_leadsTo (ht : t.startsExpression = true) :
    LeadsTo (statementForm deeper s) (t :: ts) (otherStatement deeper s) (t :: ts) := by
  refine .current ?_
  cases t with
  | mark m => cases m <;> first | exact .refl _ _ | cases ht
  | keyword k => cases k <;> first | exact .refl _ _ | cases ht
  | _ => exact .refl _ _

end Goal

open PageScript.Parser Goal

/-- The statement of a printable expression is read off its tokens. -/
theorem Expression.Printable.statement_leadsTo {e : Expression} (h : e.Printable) (levels : Nat) :
    LeadsTo (Goal.parse levels .statement .program) (e.tokens ++ [.mark .semicolon, .finish])
      (pure (.mk 1 (.expression e))) [.finish] := by
  have hunlabelled := h.unlabelled [.finish]
  have hwhole := h.reads.whole
  obtain ⟨t, ts, hts, ht⟩ := h.reads.first
  have hother : ∀ levels, LeadsTo (otherStatement (Goal.parse levels) .program)
      (e.tokens ++ [.mark .semicolon, .finish]) (pure (.expression e)) [.finish] := fun levels => by
    have hlabel : LeadsTo labelAhead (e.tokens ++ [.mark .semicolon, .finish]) (pure none)
        (e.tokens ++ [.mark .semicolon, .finish]) := by
      rw [hts] at hunlabelled ⊢
      cases ts <;> exact labelAhead_leadsTo hunlabelled
    refine hlabel.andThen ?_
    refine (expression_leadsTo (hwhole levels (.mark .semicolon) [.finish] (Token.closes_of_mem (by decide)))
      rfl).andThen ?_
    have hend : LeadsTo endStatement [.mark .semicolon, .finish] (pure ()) [.finish] :=
      .peek (.advance rfl)
    exact hend.andThen (.refl _ _)
  refine parse_leadsTo fun levels => ?_
  have hother := hother levels
  rw [hts] at hother ⊢
  exact .peek (((statementForm_leadsTo ht).trans hother).andThen (.refl _ _))

/-- The text of a printable expression as a statement is read as that statement, unless it is nested too
deeply. -/
theorem Expression.Printable.parse {e : Expression} (h : e.Printable) (line : Nat) :
    Program.parse (Statement.text (.mk line (.expression e))) = .ok [.mk 1 (.expression e)] ∨
      ∃ l, Program.parse (Statement.text (.mk line (.expression e))) = .error ⟨.tooDeep, l⟩ := by
  have hscan : Lexeme.ofText (Statement.text (.mk line (.expression e)))
      = ofTokens (e.tokens ++ [.mark .semicolon, .finish]) := by
    have hbefore := (h.scans 0).before (Expression.mem_enders_of_cons (c := ';') (by decide) [])
    have hend : Lexeme.scan 1 false [';'] = ⟨.mark .semicolon, 1, false⟩ :: Lexeme.scan 1 false [] :=
      Lexeme.scan_closed (m := .semicolon) (by decide) []
    rw [hend, Lexeme.scan_nil] at hbefore
    rw [Lexeme.ofTokens_append]
    have htext : Statement.text (.mk line (.expression e)) = e.textAt 0 ++ ";" := rfl
    rw [Lexeme.ofText, htext, String.toList_append]
    exact hbefore
  have hprogram : LeadsTo Program.ofLexemes (e.tokens ++ [.mark .semicolon, .finish])
      (pure [.mk 1 (.expression e)]) [.finish] := by
    have hstatement := h.statement_leadsTo Goal.nestingLimit
    obtain ⟨t, ts, hts, ht⟩ := h.reads.first
    have hstop : t.isFinish = false := by cases t <;> first | rfl | cases ht
    have hchecked : LeadsTo checked (t :: (ts ++ [.mark .semicolon, .finish])) (pure ())
        (t :: (ts ++ [.mark .semicolon, .finish])) := by
      cases t <;> first | exact .inl rfl | cases ht
    rw [hts] at hstatement ⊢
    refine hchecked.andThen ?_
    refine (LeadsTo.many_collect hstop).trans ?_
    exact (LeadsTo.collect_item hstop hstatement).trans (LeadsTo.collect_stop rfl)
  unfold Program.parse
  rw [hscan]
  rcases hprogram with hok | ⟨l, herror⟩
  · rw [hok]
    exact .inl rfl
  · rw [herror]
    exact .inr ⟨l, rfl⟩

/-! ## Programs -/

namespace Program

theorem parse_faithful {source : String} {body : List Statement} (h : parse source = .ok body) :
    AllFaithful (Statement.partsOf body) :=
  .statements (Hereditary.faithful.of_parse (Lexeme.namesItself_of_mem_scan 1 false _) h)

/-- A plain expression that occurs in a program is read back from its text with its grouping, unless that
text nests too deeply. -/
theorem parse_printed {source : String} {body : List Statement} {e : Expression}
    (h : parse source = .ok body) (he : e ∈ Statement.partsOf body) (hplain : e.Plain)
    (hnumbers : ∀ n, .literal (.number n) ∈ e.parts → n.ReadsBack) (line : Nat) :
    parse (Statement.text (.mk line (.expression e))) = .ok [.mk 1 (.expression e)] ∨
      ∃ l, parse (Statement.text (.mk line (.expression e))) = .error ⟨.tooDeep, l⟩ :=
  (parse_faithful h e he hplain hnumbers).parse line

/-- An assignment of a product of a sum. -/
def grouped : Expression :=
  .assign none (.identifier "x")
    (.binary .mul (.binary .add (.identifier "a") (.literal (.string "q\""))) (.member .this "c"))

theorem parse_grouped : parse "x = (a + \"q\\\"\") * this.c;" = .ok [.mk 1 (.expression grouped)] := by
  have hword : ∀ c : Char, Text.isIdentifierStart c = true → Lexeme.IsWord (String.singleton c) :=
    fun c hc => ⟨c, [], String.toList_singleton c, hc, nofun⟩
  have hprintable : grouped.Printable :=
    .assign rfl (.identifier (hword 'x' (by decide)) rfl) rfl
      (.operation (.binary .mul)
        (.operation (.binary .add) (.identifier (hword 'a' (by decide)) rfl)
          (.literal (by simp [Literal.Printable])))
        (.member .this rfl (hword 'c' (by decide))))
  have htext : Statement.text (.mk 1 (.expression grouped)) = "x = (a + \"q\\\"\") * this.c;" := by
    decide +kernel
  have hok : (match parse "x = (a + \"q\\\"\") * this.c;" with
      | .ok _ => true
      | .error _ => false) = true := by decide +kernel
  rcases hprintable.parse 1 with h | ⟨l, h⟩
  · rw [htext] at h
    exact h
  · rw [htext] at h
    rw [h] at hok
    cases hok

theorem parse_printed_grouped :
    parse "x = (a + \"q\\\"\") * this.c;" = .ok [.mk 1 (.expression grouped)] ∧
      (parse (Statement.text (.mk 1 (.expression grouped))) = .ok [.mk 1 (.expression grouped)] ∨
        ∃ l, parse (Statement.text (.mk 1 (.expression grouped))) = .error ⟨.tooDeep, l⟩) := by
  have hplain : grouped.Plain :=
    .assign none (.identifier "x")
      (.binary .mul (.binary .add (.identifier "a") (.literal (by simp [Literal.Plain])))
        (.member "c" .this rfl))
  refine ⟨parse_grouped, parse_printed parse_grouped ?_ hplain ?_ 1⟩
  · rw [Statement.partsOf, Statement.parts, StatementForm.parts]
    exact List.mem_append_left _ grouped.mem_parts
  · simp [grouped, Expression.parts]

end Program

end PageScript
