import PageScript.Proofs.ControlFlow.Jumps
import PageScript.Proofs.FirstTokens
import PageScript.Proofs.Grammar
import PageScript.Proofs.Hoisting
import PageScript.Proofs.Scanning.Passages

/-! # Where statements stand

Every statement of a parsed program, however deep, was read where some token of its source begins.  Its line
is the one on which that token ends.  That is the line on which the statement begins, unless it begins with a
string literal that goes on over several lines.
-/

set_option autoImplicit false

namespace PageScript

/-! ## Statements that were read -/

/-- Whether a statement was read from some place of a text on. -/
def Statement.ReadIn (all : List Lexeme) (t : Statement) : Prop :=
  ∃ levels s ts rest, ts <:+ all ∧ Goal.parse levels .statement s ts = .ok (t, rest)

/-- Whether the statements of a function were all read from some place of a text on. -/
def FunctionTree.ReadIn (all : List Lexeme) (f : FunctionTree) : Prop :=
  ∀ t ∈ Statement.substatementsOf f.body, t.ReadIn all

/-- A part of a program whose statements, and those of its functions, were read from a text. -/
structure Placed (all : List Lexeme) (statements : List Statement) (trees : List FunctionTree) : Prop where
  statements : ∀ t ∈ statements, t.ReadIn all
  trees : FunctionTree.All (·.ReadIn all) trees

namespace Placed

variable {all : List Lexeme} {ss us : List Statement} {fs gs : List FunctionTree}

theorem append (h : Placed all ss fs) (h' : Placed all us gs) : Placed all (ss ++ us) (fs ++ gs) where
  statements t ht := (List.mem_append.1 ht).elim (h.statements t) (h'.statements t)
  trees := h.trees.append h'.trees

/-- Expressions beside a part add functions, but no statements. -/
theorem beside (h : Placed all ss fs) (hgs : FunctionTree.All (·.ReadIn all) gs) : Placed all ss (gs ++ fs) :=
  ⟨h.statements, hgs.append h.trees⟩

theorem plain (hfs : FunctionTree.All (·.ReadIn all) fs) : Placed all [] fs := ⟨nofun, hfs⟩

theorem list {body : List Statement} (h : ∀ t ∈ body, Placed all t.substatements t.trees) :
    Placed all (Statement.substatementsOf body) (Statement.treesOf body) := by
  induction body with
  | nil => exact .plain .nil
  | cons t rest ih =>
    rw [Statement.substatementsOf, Statement.treesOf]
    exact (h t (.head _)).append (ih fun u hu => h u (.tail _ hu))

theorem clauses {clauses : List SwitchClause}
    (h : ∀ test body, .mk test body ∈ clauses →
      (∀ e, test = some e → FunctionTree.All (·.ReadIn all) e.trees) ∧
        ∀ t ∈ body, Placed all t.substatements t.trees) :
    Placed all (SwitchClause.substatementsOf clauses) (SwitchClause.treesOf clauses) := by
  induction clauses with
  | nil => exact .plain .nil
  | cons c rest ih =>
    obtain ⟨test, body⟩ := c
    obtain ⟨htest, hbody⟩ := h test body (.head _)
    rw [SwitchClause.substatementsOf, SwitchClause.treesOf, List.append_assoc]
    exact ((list hbody).append (ih fun test body hc => h test body (.tail _ hc))).beside (.treesOfOption htest)

end Placed

/-- The statements of a tree were all read from its text. -/
def Hereditary.placed (all : List Lexeme) : Hereditary where
  text ts := ts <:+ all
  expression e := FunctionTree.All (·.ReadIn all) e.trees
  function f := FunctionTree.All (·.ReadIn all) f.trees
  statement _ t := Placed all t.substatements t.trees
  form _ f := Placed all f.substatements f.trees
  ends hrest hts := hrest.trans hts
  literal _ := by rw [Expression.trees]; exact .nil
  identifier _ _ := by rw [Expression.trees]; exact .nil
  this := by rw [Expression.trees]; exact .nil
  array h := by rw [Expression.trees]; exact .treesOfElements h
  object h := by rw [Expression.trees]; exact .treesOfProperties h
  functionLiteral h := by rw [Expression.trees]; exact h
  unary _ _ h := by rw [Expression.trees]; exact h
  operation op _ _ hl hr := by
    cases op <;> rw [Infix.apply, Expression.trees] <;> exact hl.append hr
  update _ _ _ h _ := by rw [Expression.trees]; exact h
  assign _ h _ hvalue := by rw [Expression.trees]; exact h.append hvalue
  conditional htest hyes hno := by rw [Expression.trees]; exact (htest.append hyes).append hno
  call h hargs := by rw [Expression.trees]; exact h.append (.treesOf hargs)
  construct h hargs := by rw [Expression.trees]; exact h.append (.treesOf hargs)
  member h _ _ := by rw [Expression.trees]; exact h
  index h hkey := by rw [Expression.trees]; exact h.append hkey
  sequence h := by rw [Expression.trees]; exact .treesOf h
  functionTree hbody := by
    rw [FunctionTree.trees]
    intro f hf
    rcases List.mem_cons.1 hf with rfl | hf
    · exact (Placed.list hbody).statements
    · exact (Placed.list hbody).trees f hf
  tree {levels s ts t rest} hts hrun h := by
    obtain ⟨line, form⟩ := t
    rw [Statement.substatements, Statement.trees]
    refine ⟨fun t ht => ?_, h.trees⟩
    rcases List.mem_cons.1 ht with rfl | ht
    · exact ⟨levels, s, ts, rest, hts, hrun⟩
    · exact h.statements t ht
  empty := .plain (by rw [StatementForm.trees]; exact .nil)
  evaluate h := .plain (by rw [StatementForm.trees]; exact h)
  block h := by rw [StatementForm.substatements, StatementForm.trees]; exact .list h
  declare h := .plain (by rw [StatementForm.trees]; exact .treesOfDeclarators h)
  ifThen htest hyes := by rw [StatementForm.substatements, StatementForm.trees]; exact hyes.beside htest
  ifElse htest hyes hno := by
    rw [StatementForm.substatements, StatementForm.trees, List.append_assoc]
    exact (hyes.append hno).beside htest
  whileLoop htest hbody := by
    rw [StatementForm.substatements, StatementForm.trees]
    exact hbody.beside htest
  doLoop hbody htest := by
    rw [StatementForm.substatements, StatementForm.trees]
    exact ⟨hbody.statements, hbody.trees.append htest⟩
  forLoop hdeclare hstart htest hupdate hbody := by
    rw [StatementForm.substatements, StatementForm.trees]
    exact hbody.beside (((FunctionTree.All.forStart hdeclare hstart).append (.treesOfOption htest)).append
      (.treesOfOption hupdate))
  forVariable hd hobject hbody := by
    rw [StatementForm.substatements, StatementForm.trees]
    exact hbody.beside ((FunctionTree.All.declarator hd).append hobject)
  forTarget h hobject hbody := by
    rw [StatementForm.substatements, StatementForm.trees]
    exact hbody.beside (h.append hobject)
  returnValue _ hvalue := .plain (by rw [StatementForm.trees]; exact .treesOfOption hvalue)
  breakTo _ _ := .plain (by rw [StatementForm.trees]; exact .nil)
  continueTo _ := .plain (by rw [StatementForm.trees]; exact .nil)
  throw h := .plain (by rw [StatementForm.trees]; exact h)
  tryCatch hbody hhandler := by
    rw [StatementForm.substatements, StatementForm.trees]
    exact (Placed.list hbody).append (.list hhandler)
  tryFinally hbody hfinal := by
    rw [StatementForm.substatements, StatementForm.trees]
    exact (Placed.list hbody).append (.list hfinal)
  tryCatchFinally hbody hhandler hfinal := by
    rw [StatementForm.substatements, StatementForm.trees]
    exact ((Placed.list hbody).append (.list hhandler)).append (.list hfinal)
  switch hvalue hclauses := by
    rw [StatementForm.substatements, StatementForm.trees]
    exact (Placed.clauses hclauses).beside hvalue
  labeled hbody := by rw [StatementForm.substatements, StatementForm.trees]; exact hbody
  withObject hobject hbody := by
    rw [StatementForm.substatements, StatementForm.trees]
    exact hbody.beside hobject
  functionStatement h := .plain (by rw [StatementForm.trees]; exact h)

/-! ## Places in a source text -/

/-- The statements of a program at any depth, with those of the functions in it. -/
def Statement.everywhere (body : List Statement) : List Statement :=
  Statement.substatementsOf body ++ (Statement.treesOf body).flatMap fun f => Statement.substatementsOf f.body

/-- Whether a statement is read from a source text where the scan takes `word` as a token, between `before` and
`after`. -/
structure Statement.StandsAt (t : Statement) (source : String) (before word after : List Char) : Prop where
  text : source.toList = before ++ (word ++ after)
  read : ∃ us broken l levels s rest,
    Lexeme.Scan.Passes ⟨1, false, source.toList⟩ us ⟨1 + Text.lineBreaks before, broken, word ++ after⟩ ∧
    Lexeme.Scan.Step ⟨1 + Text.lineBreaks before, broken, word ++ after⟩ (some l) ⟨l.line, false, after⟩ ∧
    Goal.parse levels .statement s (Lexeme.scan (1 + Text.lineBreaks before) broken (word ++ after)) =
      .ok (t, rest)

/-- A statement has the line of the token from which on it is read. -/
theorem Goal.line_of_parse {levels : Nat} {s : Surroundings} {ts rest : List Lexeme} {t : Statement}
    (h : Goal.parse levels .statement s ts = .ok (t, rest)) : t.line = (Parser.head ts).line := by
  cases levels with
  | zero => cases h
  | succ levels =>
    obtain ⟨form, -, rfl⟩ := parse_statement_eq_ok_iff.1 h
    rfl

/-- What was read from a source text stands at a token of it, on the line on which the token ends. -/
theorem Statement.ReadIn.standsAt {source : String} {t : Statement} (h : t.ReadIn (Lexeme.ofText source)) :
    ∃ before word after, t.StandsAt source before word after ∧
      t.line = 1 + Text.lineBreaks before + Text.lineBreaks word ∧
      (Text.lineBreaks word = 0 ∨ ∃ quote more, word = quote :: more ∧ (quote = '\'' ∨ quote = '"')) := by
  obtain ⟨levels, s, ts, rest, hts, hrun⟩ := h
  have hopens := Goal.Refuses.opensStatement_of_parse hrun
  have hlast : (Parser.head ts).token.isLast = false := by
    cases htoken : (Parser.head ts).token with
    | finish =>
      rw [htoken] at hopens
      cases hopens
    | invalid =>
      rw [htoken] at hopens
      cases hopens
    | _ => rfl
  obtain ⟨us, r, l, next, hpasses, rfl, hstep⟩ :=
    Lexeme.Scan.exists_step_of_suffix (q := ⟨1, false, source.toList⟩) hts hlast
  have hline := Goal.line_of_parse hrun
  rw [hstep.lexemes_eq] at hline
  obtain ⟨before, hbefore⟩ := hpasses.suffix
  have hlines := hpasses.lines
  cases hstep with
  | @token line broken c cs p hblank hcomment hblock hread =>
    have hc := Lexeme.Scan.isLineBreak_eq_false hblank
    obtain ⟨word, hword, hp, hquote⟩ := Lexeme.readToken_word hc hread
    have hcut : Text.lineBreaks (before ++ c :: cs) = Text.lineBreaks before + Text.lineBreaks (c :: cs) := by
      refine Text.lineBreaks_append ?_ before
      rintro d hd rfl
      cases hd
      cases hc
    have hstart : line = 1 + Text.lineBreaks before := by
      dsimp only at hbefore hlines
      rw [← hbefore, hcut] at hlines
      omega
    subst hstart
    have htoken : Lexeme.Scan.Step ⟨1 + Text.lineBreaks before, broken, c :: cs⟩ (some ⟨p.token, p.line, broken⟩)
        ⟨p.line, false, p.rest⟩ := .token hblank hcomment hblock hread
    rw [hword] at htoken hpasses hrun
    refine ⟨before, word, p.rest, ⟨hbefore.symm.trans (congrArg _ hword), ?_⟩, hline.trans hp, ?_⟩
    · exact ⟨us, broken, _, levels, s, rest, hpasses, htoken, hrun⟩
    · exact hquote.imp_right fun ⟨more, hmore, hquote⟩ => ⟨c, more, hmore, hquote⟩

namespace Program

/-- Every statement of a program, at any depth, stands at a token of its source and knows the line on which that
token ends; only a string literal may have begun on an earlier line. -/
theorem parse_lines {source : String} {body : List Statement} (h : parse source = .ok body) :
    ∀ t ∈ Statement.everywhere body, ∃ before word after, t.StandsAt source before word after ∧
      t.line = 1 + Text.lineBreaks before + Text.lineBreaks word ∧
      (Text.lineBreaks word = 0 ∨ ∃ quote more, word = quote :: more ∧ (quote = '\'' ∨ quote = '"')) := by
  have hplaced : Placed (Lexeme.ofText source) (Statement.substatementsOf body) (Statement.treesOf body) :=
    .list ((Hereditary.placed (Lexeme.ofText source)).of_parse (List.suffix_refl _) h)
  intro t ht
  rcases List.mem_append.1 ht with ht | ht
  · exact (hplaced.statements t ht).standsAt
  · obtain ⟨f, hf, ht⟩ := List.mem_flatMap.1 ht
    exact (hplaced.trees f hf t ht).standsAt

theorem readsContinued : (match parse "'a\\\nb';" with
    | .ok [.mk 2 (.expression (.literal (.string "ab")))] => true
    | _ => false) = true := by decide +kernel

theorem parse_lines_continued :
    parse "'a\\\nb';" = .ok [.mk 2 (.expression (.literal (.string "ab")))] ∧
      ∃ before word after,
        (Statement.mk 2 (.expression (.literal (.string "ab")))).StandsAt "'a\\\nb';" before word after ∧
        2 = 1 + Text.lineBreaks before + Text.lineBreaks word ∧
        (Text.lineBreaks word = 0 ∨ ∃ quote more, word = quote :: more ∧ (quote = '\'' ∨ quote = '"')) := by
  have hparse : parse "'a\\\nb';" = .ok [.mk 2 (.expression (.literal (.string "ab")))] := by
    have hok := readsContinued
    split at hok
    · assumption
    · cases hok
  exact ⟨hparse, parse_lines hparse _ (List.mem_append_left _ (.head _))⟩

end Program

end PageScript
