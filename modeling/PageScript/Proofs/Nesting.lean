import Mathlib.Tactic.Ring
import PageScript.Proofs.Readers

/-! # The height of a parsed program

The parser counts how deep it is nested, and refuses a text that is nested too deeply.  Each operator of
a chain and each suffix counts as a level, but only up to the end of its chain; the next chain, of another
precedence, starts anew on top of the tree that was built so far.  So a tree can be higher than the limit,
though not higher than six times its square.
-/

set_option autoImplicit false

namespace PageScript

/-! ## Heights -/

mutual

/-- The number of expressions and statements on the longest way down an expression. -/
@[simp] def Expression.height : Expression → Nat
  | .literal _ | .identifier _ | .this => 1
  | .array elements => Expression.heightOfElements elements + 1
  | .object properties => Expression.heightOfProperties properties + 1
  | .function f => f.height + 1
  | .unary _ e | .update _ _ e | .member e _ => e.height + 1
  | .binary _ e f | .logical _ e f | .assign _ e f | .index e f => max e.height f.height + 1
  | .conditional e f g => max (max e.height f.height) g.height + 1
  | .call e es | .construct e es => max e.height (Expression.heightOf es) + 1
  | .sequence es => Expression.heightOf es + 1

/-- The height of the highest of some expressions. -/
@[simp] def Expression.heightOf : List Expression → Nat
  | [] => 0
  | e :: rest => max e.height (Expression.heightOf rest)

/-- The height of an expression that may be missing. -/
@[simp] def Expression.heightOfOption : Option Expression → Nat
  | none => 0
  | some e => e.height

/-- The height of the highest element of an array literal. -/
@[simp] def Expression.heightOfElements : List (Option Expression) → Nat
  | [] => 0
  | e :: rest => max (Expression.heightOfOption e) (Expression.heightOfElements rest)

/-- The height of the highest value in an object literal. -/
@[simp] def Expression.heightOfProperties : List (PropertyKey × Expression) → Nat
  | [] => 0
  | (_, e) :: rest => max e.height (Expression.heightOfProperties rest)

/-- The height of the initial value of a declared variable. -/
@[simp] def Declarator.height : Declarator → Nat
  | .mk _ initial => Expression.heightOfOption initial

/-- The height of the highest of some declarators. -/
@[simp] def Declarator.heightOf : List Declarator → Nat
  | [] => 0
  | d :: rest => max d.height (Declarator.heightOf rest)

/-- The height of the highest clause of a `switch` statement. -/
@[simp] def SwitchClause.heightOf : List SwitchClause → Nat
  | [] => 0
  | .mk test body :: rest =>
    max (max (Expression.heightOfOption test) (Statement.heightOf body)) (SwitchClause.heightOf rest)

/-- The height of what a `for` statement does first. -/
@[simp] def ForStart.height : ForStart → Nat
  | .nothing => 0
  | .declare ds => Declarator.heightOf ds
  | .expression e => e.height

/-- The height of the body of a function. -/
@[simp] def FunctionTree.height : FunctionTree → Nat
  | .mk _ _ body _ => Statement.heightOf body

/-- The number of expressions and statements on the longest way down a statement. -/
@[simp] def Statement.height : Statement → Nat
  | .mk _ form => form.height + 1

/-- The height of the highest of some statements. -/
@[simp] def Statement.heightOf : List Statement → Nat
  | [] => 0
  | s :: rest => max s.height (Statement.heightOf rest)

/-- The height of the highest part of a form of statement. -/
@[simp] def StatementForm.height : StatementForm → Nat
  | .empty | .breakTo _ | .continueTo _ => 0
  | .expression e | .throw e => e.height
  | .block body => Statement.heightOf body
  | .declare ds => Declarator.heightOf ds
  | .ifThen e s | .whileLoop e s | .doLoop s e | .withObject e s => max e.height s.height
  | .ifElse e s t => max (max e.height s.height) t.height
  | .forLoop start test update body =>
    max (max (max start.height (Expression.heightOfOption test)) (Expression.heightOfOption update))
      body.height
  | .forVariable d e body => max (max d.height e.height) body.height
  | .forTarget e f body => max (max e.height f.height) body.height
  | .returnValue e => Expression.heightOfOption e
  | .tryCatch body _ handler => max (Statement.heightOf body) (Statement.heightOf handler)
  | .tryFinally body final => max (Statement.heightOf body) (Statement.heightOf final)
  | .tryCatchFinally body _ handler final =>
    max (max (Statement.heightOf body) (Statement.heightOf handler)) (Statement.heightOf final)
  | .switch e clauses => max e.height (SwitchClause.heightOf clauses)
  | .labeled _ body => body.height
  | .function f => f.height

end

section

variable {n : Nat}

theorem Expression.heightOf_le {es : List Expression} (h : ∀ e ∈ es, e.height ≤ n) :
    heightOf es ≤ n := by
  induction es with
  | nil => exact Nat.zero_le n
  | cons e rest ih =>
    rw [heightOf]
    exact Nat.max_le.2 ⟨h e (.head _), ih fun f hf => h f (.tail _ hf)⟩

theorem Expression.heightOfElements_le {es : List (Option Expression)}
    (h : ∀ e ∈ es, heightOfOption e ≤ n) : heightOfElements es ≤ n := by
  induction es with
  | nil => exact Nat.zero_le n
  | cons e rest ih =>
    rw [heightOfElements]
    exact Nat.max_le.2 ⟨h e (.head _), ih fun f hf => h f (.tail _ hf)⟩

theorem Expression.heightOfProperties_le {xs : List (PropertyKey × Expression)}
    (h : ∀ x ∈ xs, x.2.height ≤ n) : heightOfProperties xs ≤ n := by
  induction xs with
  | nil => exact Nat.zero_le n
  | cons x rest ih =>
    obtain ⟨key, e⟩ := x
    rw [heightOfProperties]
    exact Nat.max_le.2 ⟨h (key, e) (.head _), ih fun y hy => h y (.tail _ hy)⟩

theorem Declarator.heightOf_le {ds : List Declarator} (h : ∀ d ∈ ds, d.height ≤ n) :
    heightOf ds ≤ n := by
  induction ds with
  | nil => exact Nat.zero_le n
  | cons d rest ih =>
    rw [heightOf]
    exact Nat.max_le.2 ⟨h d (.head _), ih fun c hc => h c (.tail _ hc)⟩

theorem Statement.heightOf_le {body : List Statement} (h : ∀ t ∈ body, t.height ≤ n) :
    heightOf body ≤ n := by
  induction body with
  | nil => exact Nat.zero_le n
  | cons t rest ih =>
    rw [heightOf]
    exact Nat.max_le.2 ⟨h t (.head _), ih fun u hu => h u (.tail _ hu)⟩

/-- Whether the parts of a clause of a `switch` are no higher than a number. -/
def SwitchClause.Within (n : Nat) : SwitchClause → Prop
  | .mk test body => Expression.heightOfOption test ≤ n ∧ Statement.heightOf body ≤ n

theorem SwitchClause.heightOf_le {clauses : List SwitchClause} (h : ∀ c ∈ clauses, c.Within n) :
    heightOf clauses ≤ n := by
  induction clauses with
  | nil => exact Nat.zero_le n
  | cons c rest ih =>
    obtain ⟨test, body⟩ := c
    obtain ⟨htest, hbody⟩ := h (.mk test body) (.head _)
    rw [heightOf]
    exact Nat.max_le.2 ⟨Nat.max_le.2 ⟨htest, hbody⟩, ih fun c hc => h c (.tail _ hc)⟩

end

/-! ## Goals -/

namespace Goal

open PageScript.Parser

/-- How high a whole expression or statement may be, with a number of levels left. -/
def wholeBound (levels : Nat) : Nat := 6 * levels ^ 2

theorem wholeBound_succ (levels : Nat) :
    wholeBound (levels + 1) = wholeBound levels + 12 * levels + 6 := by
  unfold wholeBound
  ring

/-- How high the operands of chains may be, with a number of levels left below them: each chain may add as
much as there are levels. -/
def tiersBound (levels : Nat) (tiers : List Tier) : Nat :=
  wholeBound levels + 2 * levels + 3 + tiers.length * levels

theorem tiersBound_cons (levels : Nat) (tier : Tier) (tiers : List Tier) :
    tiersBound levels (tier :: tiers) = tiersBound levels tiers + levels := by
  unfold tiersBound
  rw [List.length_cons]
  ring

theorem tiersBound_all (levels : Nat) :
    tiersBound levels Tier.all + 3 = wholeBound (levels + 1) := by
  rw [wholeBound_succ]
  unfold tiersBound
  have hall : Tier.all.length = 10 := rfl
  rw [hall]
  ring

theorem tiersBound_mono (levels : Nat) (tiers : List Tier) :
    tiersBound levels tiers ≤ tiersBound (levels + 1) tiers := by
  unfold tiersBound
  have hstep := wholeBound_succ levels
  have hmul : tiers.length * levels ≤ tiers.length * (levels + 1) :=
    Nat.mul_le_mul_left _ (Nat.le_succ levels)
  omega

/-- How high the tree of a goal may be, with a number of levels left.  A goal that goes on from an
expression may add as much to it as there are levels. -/
def bound (levels : Nat) : Goal → Nat
  | .statement | .assignment | .unary | .construct => wholeBound levels
  | .operand _ tighter left _ => max left.height (tiersBound levels tighter) + levels
  | .memberName e _ | .memberKey e _ | .arguments e => max e.height (wholeBound levels + 1) + levels

/-- The height of what a goal yields. -/
def heightOf : (g : Goal) → g.Result → Nat
  | .statement, t => t.height
  | .assignment, e | .unary, e | .construct, e => e.height
  | .operand .., e | .memberName .., e | .memberKey .., e | .arguments .., e => e.height

/-- Whether the parsers for the goals one level deeper yield trees that are no higher than they may be
with a number of levels left. -/
def Deeper.Within (deeper : Deeper) (levels : Nat) : Prop :=
  ∀ (g : Goal) (s : Surroundings), Yields (fun r => g.heightOf r ≤ g.bound levels) (deeper g s)

variable {deeper : Deeper} {s : Surroundings} {levels : Nat}

/-! ### Parts of expressions -/

theorem expression_height (h : deeper.Within levels) :
    Yields (fun e => e.height ≤ wholeBound levels + 1) (expression deeper s) := by
  refine (Yields.commaSeparated (h .assignment s)).bind fun es hes => ?_
  split
  · exact .pure (Nat.le_succ_of_le (hes _ (.head _)))
  · refine .pure ?_
    rw [Expression.height]
    exact Nat.succ_le_succ (Expression.heightOf_le hes)

theorem block_height (h : deeper.Within levels) :
    Yields (fun body => Statement.heightOf body ≤ wholeBound levels) (block deeper s) := by
  refine .after fun _ => (Yields.many fun _ => h .statement s).bind fun body hbody => ?_
  exact .after fun _ => .pure (Statement.heightOf_le hbody)

theorem function_height (h : deeper.Within levels) (needsName : Bool) :
    Yields (fun f => f.height ≤ wholeBound levels) (function deeper needsName) := by
  have hrest : ∀ (name : Option String) (line : Nat), Yields (fun f => f.height ≤ wholeBound levels) (do
      expectMark .leftParen
      let parameters ← commaItems .rightParen identifier
      expectMark .rightParen
      let body ← block deeper .functionBody
      return FunctionTree.mk name parameters body line) := fun name line => by
    refine .after fun _ => .after fun _ => .after fun _ => (block_height h).bind fun body hbody => ?_
    refine .pure ?_
    rw [FunctionTree.height]
    exact hbody
  refine .after fun first => .after fun _ => .after fun t => ?_
  dsimp only
  split
  · exact .after fun _ => .after fun name => hrest name _
  · split
    · exact .after fun name => hrest name _
    · exact .after fun name => hrest name _

theorem argumentList_height (h : deeper.Within levels) :
    Yields (fun es => Expression.heightOf es ≤ wholeBound levels) (argumentList deeper s) := by
  refine .after fun _ => (Yields.commaItems (h .assignment s.bracketed)).bind fun es hes => ?_
  exact .after fun _ => .pure (Expression.heightOf_le hes)

theorem element_height (h : deeper.Within levels) :
    Yields (fun e => Expression.heightOfOption e ≤ wholeBound levels) (element deeper s) := by
  refine .after fun skipped => ?_
  split
  · exact .pure (Nat.zero_le _)
  · refine (h .assignment s).bind fun e he => .after fun _ => ?_
    dsimp only
    split
    · exact .after fun _ => .pure he
    · exact .pure he

theorem property_height (h : deeper.Within levels) :
    Yields (fun x => x.2.height ≤ wholeBound levels) (property deeper s) :=
  .after fun _ => .after fun _ => (h .assignment s).bind fun _ he => .pure he

theorem primary_height (h : deeper.Within levels) :
    Yields (fun e => e.height ≤ wholeBound levels + 1) (primary deeper s) := by
  have hleaf : ∀ e : Expression, e.height = 1 →
      Yields (fun e => e.height ≤ wholeBound levels + 1) (leaf e) := fun e he =>
    .after fun _ => .pure (by omega)
  refine .after fun t => ?_
  split
  · exact hleaf _ (by rw [Expression.height])
  · exact hleaf _ (by rw [Expression.height])
  · exact hleaf _ (by rw [Expression.height])
  · exact hleaf _ (by rw [Expression.height])
  · exact hleaf _ (by rw [Expression.height])
  · exact hleaf _ (by rw [Expression.height])
  · refine (function_height h false).bind fun f hf => .pure ?_
    rw [Expression.height]
    exact Nat.succ_le_succ hf
  · refine .after fun _ => (expression_height h).bind fun e he => ?_
    exact .after fun _ => .pure he
  · refine .after fun _ => (Yields.many fun _ => element_height h).bind fun es hes => ?_
    refine .after fun _ => .pure ?_
    rw [Expression.height]
    exact Nat.succ_le_succ (Expression.heightOfElements_le hes)
  · refine .after fun _ => (Yields.commaItems (property_height h)).bind fun xs hxs => ?_
    refine .after fun _ => .pure ?_
    rw [Expression.height]
    exact Nat.succ_le_succ (Expression.heightOfProperties_le hxs)
  · exact .fail _

/-- Suffixes add as much to an expression as there are levels. -/
theorem suffixes_height (h : deeper.Within levels) (calls : Bool) (e : Expression) :
    Yields (fun f => f.height ≤ max e.height (wholeBound levels + 1) + levels)
      (suffixes deeper s calls e) := by
  have hnone : e.height ≤ max e.height (wholeBound levels + 1) + levels := by omega
  refine .after fun t => ?_
  split
  · exact .after fun _ => h (.memberName e calls) s
  · exact .after fun _ => h (.memberKey e calls) s
  · split
    · exact h (.arguments e) s
    · exact .pure hnone
  · exact .pure hnone

theorem newExpression_height (h : deeper.Within levels) :
    Yields (fun e => e.height ≤ wholeBound levels + levels + 2) (newExpression deeper s) := by
  have hargs : ∀ callee : Expression, callee.height ≤ wholeBound levels + 1 + levels →
      Yields (fun e => e.height ≤ wholeBound levels + levels + 2) (do
        let args ← if (← current).isMark .leftParen then argumentList deeper s else pure []
        return Expression.construct callee args) := fun callee hcallee => by
    have hnew : ∀ args, Expression.heightOf args ≤ wholeBound levels →
        Yields (fun e => e.height ≤ wholeBound levels + levels + 2)
          (pure (Expression.construct callee args)) := fun args ha => by
      refine .pure ?_
      rw [Expression.height]
      omega
    refine .after fun t => ?_
    dsimp only
    split
    · exact (argumentList_height h).bind hnew
    · exact hnew [] (Nat.zero_le _)
  refine .after fun _ => .after fun t => ?_
  dsimp only
  split
  · refine (h .construct s).bind fun e he => hargs e ?_
    change e.height ≤ wholeBound levels at he
    omega
  · refine (primary_height h).bind fun e he => (suffixes_height h false e).bind fun f hf => hargs f ?_
    rwa [Nat.max_eq_right he] at hf

theorem leftHandSide_height (h : deeper.Within levels) :
    Yields (fun e => e.height ≤ wholeBound levels + 2 * levels + 2) (leftHandSide deeper s) := by
  have hsuffixes : ∀ e : Expression, e.height ≤ wholeBound levels + levels + 2 →
      Yields (fun e => e.height ≤ wholeBound levels + 2 * levels + 2) (suffixes deeper s true e) :=
    fun e he ts f rest hrun => by
      have hf := suffixes_height h true e ts f rest hrun
      omega
  refine .after fun t => ?_
  dsimp only
  split
  · exact (newExpression_height h).bind hsuffixes
  · refine (primary_height h).bind fun e he => hsuffixes e ?_
    omega

theorem postfixed_height (h : deeper.Within levels) :
    Yields (fun e => e.height ≤ tiersBound levels []) (postfixed deeper s) := by
  refine (leftHandSide_height h).bind fun e he => .after fun t => ?_
  have hplain : e.height ≤ tiersBound levels [] := by
    unfold tiersBound
    omega
  have hupdate : ∀ op, Yields (fun e => e.height ≤ tiersBound levels []) (do
      advance
      return Expression.update op false e) := fun op => by
    refine .after fun _ => .pure ?_
    rw [Expression.height]
    unfold tiersBound
    omega
  dsimp only
  split
  · exact .pure hplain
  · split
    · exact .pure hplain
    · split
      · exact .after fun _ => hupdate _
      · exact hupdate _

theorem prefixed_height (h : deeper.Within levels) :
    Yields (fun e => e.height ≤ tiersBound levels []) (prefixed deeper s) := by
  have hnode : ∀ e f : Expression, e.height ≤ wholeBound levels → f.height = e.height + 1 →
      f.height ≤ tiersBound levels [] := fun e f he hf => by
    unfold tiersBound
    omega
  refine .after fun t => ?_
  split
  · refine .after fun _ => (h .unary s).bind fun e he => .pure (hnode e _ he ?_)
    rw [Expression.height]
  · rename_i op _ _
    refine .after fun _ => (h .unary s).bind fun e he => ?_
    have hupdate : Yields (fun e => e.height ≤ tiersBound levels [])
        (pure (Expression.update op true e)) := .pure (hnode e _ he (by rw [Expression.height]))
    dsimp only
    split
    · exact .after fun _ => hupdate
    · exact hupdate
  · exact postfixed_height h

/-- A chain adds as much to its left part as there are levels. -/
theorem chain_height (h : deeper.Within levels) (tier : Tier) (tighter : List Tier) (e : Expression) :
    Yields (fun f => f.height ≤ max e.height (tiersBound levels tighter) + levels)
      (chain deeper s tier tighter e) := by
  refine .after fun t => ?_
  split
  · exact .after fun _ => h (.operand tier tighter e _) s
  · refine .pure ?_
    omega

theorem tiers_height (h : deeper.Within levels) (list : List Tier) :
    Yields (fun e => e.height ≤ tiersBound levels list) (tiers deeper s list) := by
  induction list with
  | nil => exact prefixed_height h
  | cons tier tighter ih =>
    -- The first operand is of the tighter tiers too, so the maximum is the bound of those.
    refine ih.bind fun e he ts f rest hrun => ?_
    have hf := chain_height h tier tighter e ts f rest hrun
    rwa [Nat.max_eq_right he, ← tiersBound_cons] at hf

theorem conditional_height (h : deeper.Within levels) :
    Yields (fun e => e.height + 2 ≤ wholeBound (levels + 1)) (conditional deeper s) := by
  have hall := tiersBound_all levels
  have hstep := wholeBound_succ levels
  refine (tiers_height h Tier.all).bind fun test htest => .after fun asked => ?_
  split
  · refine (h .assignment s.bracketed).bind fun yes hyes => .after fun _ => ?_
    refine (h .assignment s).bind fun no hno => .pure ?_
    change yes.height ≤ wholeBound levels at hyes
    change no.height ≤ wholeBound levels at hno
    rw [Expression.height]
    omega
  · refine .pure ?_
    omega

theorem assignmentExpression_height (h : deeper.Within levels) :
    Yields (fun e => e.height ≤ wholeBound (levels + 1)) (assignmentExpression deeper s) := by
  have hstep := wholeBound_succ levels
  refine (conditional_height h).bind fun left hleft => .after fun t => ?_
  have hassign : ∀ op, Yields (fun e => e.height ≤ wholeBound (levels + 1)) (do
      advance
      return Expression.assign op left (← deeper .assignment s)) := fun op => by
    refine .after fun _ => (h .assignment s).bind fun e he => .pure ?_
    change e.height ≤ wholeBound levels at he
    rw [Expression.height]
    omega
  split
  · refine .pure ?_
    omega
  · dsimp only
    split
    · exact .after fun _ => hassign _
    · exact hassign _

/-! ### Parts of statements -/

theorem statement_height (h : deeper.Within levels) (s : Surroundings) :
    Yields (fun t => t.height ≤ wholeBound levels) (deeper .statement s) := h .statement s

theorem parenthesized_height (h : deeper.Within levels) :
    Yields (fun e => e.height ≤ wholeBound levels + 1) (parenthesized deeper s) :=
  .after fun _ => (expression_height h).bind fun _ he => .after fun _ => .pure he

theorem declarator_height (h : deeper.Within levels) :
    Yields (fun d => d.height ≤ wholeBound levels) (declarator deeper s) := by
  refine .after fun name => .after fun given => ?_
  split
  · refine (h .assignment s).bind fun e he => .pure ?_
    rw [Declarator.height]
    exact he
  · refine .pure ?_
    rw [Declarator.height]
    exact Nat.zero_le _

theorem expressionUnless_height (h : deeper.Within levels) (m : Mark) :
    Yields (fun e => Expression.heightOfOption e ≤ wholeBound levels + 1)
      (expressionUnless deeper s m) := by
  refine .after fun t => ?_
  split
  · exact .pure (Nat.zero_le _)
  · exact (expression_height h).bind fun e he => .pure he

theorem someExpression_height (h : deeper.Within levels) :
    Yields (fun e => Expression.heightOfOption e ≤ wholeBound levels + 1)
      (some <$> expression deeper s) := (expression_height h).map fun _ he => he

/-! ### Forms of statements -/

theorem ifStatement_height (h : deeper.Within levels) :
    Yields (fun form => form.height ≤ wholeBound levels + 1) (ifStatement deeper s) := by
  refine .after fun _ => (parenthesized_height h).bind fun test htest => ?_
  refine (statement_height h s).bind fun yes hyes => .after fun t => ?_
  split
  · refine .after fun _ => (statement_height h s).bind fun no hno => .pure ?_
    rw [StatementForm.height]
    omega
  · refine .pure ?_
    rw [StatementForm.height]
    omega

theorem whileStatement_height (h : deeper.Within levels) :
    Yields (fun form => form.height ≤ wholeBound levels + 1) (whileStatement deeper s) := by
  refine .after fun _ => (parenthesized_height h).bind fun test htest => ?_
  refine (statement_height h s.loopBody).bind fun body hbody => .pure ?_
  rw [StatementForm.height]
  omega

theorem doStatement_height (h : deeper.Within levels) :
    Yields (fun form => form.height ≤ wholeBound levels + 1) (doStatement deeper s) := by
  refine .after fun _ => (statement_height h s.loopBody).bind fun body hbody => .after fun _ => ?_
  refine (parenthesized_height h).bind fun test htest => .after fun _ => .pure ?_
  rw [StatementForm.height]
  omega

theorem forRest_height (h : deeper.Within levels) {start : ForStart}
    (hstart : start.height ≤ wholeBound levels + 1) :
    Yields (fun form => form.height ≤ wholeBound levels + 1) (forRest deeper s start) := by
  refine .after fun _ => (expressionUnless_height h _).bind fun test htest => .after fun _ => ?_
  refine (expressionUnless_height h _).bind fun update hupdate => .after fun _ => ?_
  refine (statement_height h s.loopBody).bind fun body hbody => .pure ?_
  rw [StatementForm.height]
  omega

theorem forInRest_height (h : deeper.Within levels) :
    Yields (fun x => x.1.height ≤ wholeBound levels + 1 ∧ x.2.height ≤ wholeBound levels)
      (forInRest deeper s) := by
  refine .after fun _ => (expression_height h).bind fun object hobject => .after fun _ => ?_
  exact (statement_height h s.loopBody).bind fun body hbody => .pure ⟨hobject, hbody⟩

theorem forStatement_height (h : deeper.Within levels) :
    Yields (fun form => form.height ≤ wholeBound levels + 1) (forStatement deeper s) := by
  refine .after fun _ => .after fun _ => .after fun t => ?_
  dsimp only
  split
  · exact forRest_height h (by rw [ForStart.height]; exact Nat.zero_le _)
  · split
    · refine .after fun _ => ?_
      refine (Yields.commaSeparated (declarator_height h)).bind fun ds hds => .after fun u => ?_
      split
      · rename_i d _
        have hd := hds d (.head _)
        refine (forInRest_height h).bind fun x hx => .pure ?_
        rw [StatementForm.height]
        omega
      · refine forRest_height h ?_
        rw [ForStart.height]
        exact Nat.le_succ_of_le (Declarator.heightOf_le hds)
    · refine (expression_height h).bind fun e he => .after fun u => ?_
      have hin : Yields (fun form => form.height ≤ wholeBound levels + 1) (do
          let x ← forInRest deeper s
          return StatementForm.forTarget e x.1 x.2) := by
        refine (forInRest_height h).bind fun x hx => .pure ?_
        rw [StatementForm.height]
        omega
      split
      · split
        · exact .after fun _ => hin
        · exact hin
      · exact forRest_height h (by rw [ForStart.height]; exact he)

theorem returnStatement_height (h : deeper.Within levels) :
    Yields (fun form => form.height ≤ wholeBound levels + 1) (returnStatement deeper s) := by
  unfold returnStatement
  split
  · exact .failed _
  · have hreturn : ∀ value, Expression.heightOfOption value ≤ wholeBound levels + 1 →
        Yields (fun form => form.height ≤ wholeBound levels + 1) (do
          endStatement
          return StatementForm.returnValue value) := fun value hvalue => by
      refine .after fun _ => .pure ?_
      rw [StatementForm.height]
      exact hvalue
    refine .after fun _ => .after fun t => ?_
    dsimp only
    split
    · exact hreturn none (Nat.zero_le _)
    · exact (someExpression_height h).bind hreturn

theorem breakStatement_height :
    Yields (fun form => form.height ≤ wholeBound levels + 1) (breakStatement s) := by
  refine .after fun _ => .after fun label => ?_
  have hbreak : Yields (fun form => form.height ≤ wholeBound levels + 1) (do
      endStatement
      return StatementForm.breakTo label) := by
    refine .after fun _ => .pure ?_
    rw [StatementForm.height]
    exact Nat.zero_le _
  dsimp only
  split
  · exact .failed _
  · exact hbreak

theorem continueStatement_height :
    Yields (fun form => form.height ≤ wholeBound levels + 1) (continueStatement s) := by
  refine .after fun _ => ?_
  dsimp only
  split
  · exact .failed _
  · refine .after fun label => .after fun _ => .pure ?_
    rw [StatementForm.height]
    exact Nat.zero_le _

theorem throwStatement_height (h : deeper.Within levels) :
    Yields (fun form => form.height ≤ wholeBound levels + 1) (throwStatement deeper s) := by
  refine .after fun _ => .after fun t => ?_
  have hthrow : Yields (fun form => form.height ≤ wholeBound levels + 1) (do
      let e ← expression deeper s
      endStatement
      return StatementForm.throw e) := by
    refine (expression_height h).bind fun e he => .after fun _ => .pure ?_
    rw [StatementForm.height]
    exact he
  dsimp only
  split
  · exact .failed _
  · exact hthrow

theorem handler_height (h : deeper.Within levels) :
    Yields (fun caught => ∀ name body, caught = some (name, body) →
      Statement.heightOf body ≤ wholeBound levels) (handler deeper s) := by
  refine .after fun t => ?_
  split
  · exact .pure nofun
  · refine .after fun _ => .after fun _ => .after fun name => .after fun _ => ?_
    refine (block_height h).bind fun body hbody => .pure fun _ _ hx => ?_
    cases hx
    exact hbody

theorem finalBlock_height (h : deeper.Within levels) :
    Yields (fun final => ∀ body, final = some body → Statement.heightOf body ≤ wholeBound levels)
      (finalBlock deeper s) := by
  refine .after fun t => ?_
  split
  · exact .pure nofun
  · refine .after fun _ => (block_height h).bind fun body hbody => .pure fun x hx => ?_
    cases hx
    exact hbody

theorem tryStatement_height (h : deeper.Within levels) :
    Yields (fun form => form.height ≤ wholeBound levels + 1) (tryStatement deeper s) := by
  refine .after fun _ => (block_height h).bind fun body hbody => ?_
  refine (handler_height h).bind fun caught hcaught => ?_
  refine (finalBlock_height h).bind fun final hfinal => ?_
  split
  · have hhandler := hcaught _ _ rfl
    have hlast := hfinal _ rfl
    refine .pure ?_
    rw [StatementForm.height]
    omega
  · have hhandler := hcaught _ _ rfl
    refine .pure ?_
    rw [StatementForm.height]
    omega
  · have hlast := hfinal _ rfl
    refine .pure ?_
    rw [StatementForm.height]
    omega
  · exact .fail _

theorem switchClause_height (h : deeper.Within levels) (before : List SwitchClause) :
    Yields (SwitchClause.Within (wholeBound levels + 1)) (switchClause deeper s before) := by
  have hclause : ∀ test, Expression.heightOfOption test ≤ wholeBound levels + 1 →
      Yields (SwitchClause.Within (wholeBound levels + 1)) (do
        expectMark .colon
        let body ← many endsClause fun _ => deeper .statement s
        return SwitchClause.mk test body) := fun test htest => by
    refine .after fun _ => (Yields.many fun _ => statement_height h s).bind fun body hbody => ?_
    exact .pure ⟨htest, Nat.le_succ_of_le (Statement.heightOf_le hbody)⟩
  refine .after fun t => ?_
  dsimp only
  split
  · exact .after fun _ => (someExpression_height h).bind hclause
  · split
    · exact .failed _
    · exact .after fun _ => hclause none (Nat.zero_le _)
  · exact .failed _

theorem switchStatement_height (h : deeper.Within levels) :
    Yields (fun form => form.height ≤ wholeBound levels + 1) (switchStatement deeper s) := by
  refine .after fun _ => (parenthesized_height h).bind fun value hvalue => .after fun _ => ?_
  refine (Yields.many (switchClause_height h)).bind fun clauses hclauses => .after fun _ => ?_
  have hparts := SwitchClause.heightOf_le hclauses
  refine .pure ?_
  rw [StatementForm.height]
  omega

theorem withStatement_height (h : deeper.Within levels) :
    Yields (fun form => form.height ≤ wholeBound levels + 1) (withStatement deeper s) := by
  refine .after fun _ => (parenthesized_height h).bind fun object hobject => ?_
  refine (statement_height h s).bind fun body hbody => .pure ?_
  rw [StatementForm.height]
  omega

theorem otherStatement_height (h : deeper.Within levels) :
    Yields (fun form => form.height ≤ wholeBound levels + 1) (otherStatement deeper s) := by
  refine .after fun label => ?_
  split
  · rename_i name
    refine .after fun _ => .after fun _ => ?_
    refine (statement_height h (s.labeled name)).bind fun body hbody => .pure ?_
    rw [StatementForm.height]
    exact Nat.le_succ_of_le hbody
  · refine (expression_height h).bind fun e he => .after fun _ => .pure ?_
    rw [StatementForm.height]
    exact he

theorem blockStatement_height (h : deeper.Within levels) :
    Yields (fun form => form.height ≤ wholeBound levels + 1)
      (do return StatementForm.block (← block deeper s)) := by
  refine (block_height h).bind fun body hbody => .pure ?_
  rw [StatementForm.height]
  exact Nat.le_succ_of_le hbody

theorem emptyStatement_height : Yields (fun form => form.height ≤ wholeBound levels + 1) (do
    advance
    return StatementForm.empty) := by
  refine .after fun _ => .pure ?_
  rw [StatementForm.height]
  exact Nat.zero_le _

theorem variableStatement_height (h : deeper.Within levels) :
    Yields (fun form => form.height ≤ wholeBound levels + 1) (do
      advance
      let ds ← commaSeparated (declarator deeper s)
      endStatement
      return StatementForm.declare ds) := by
  refine .after fun _ => (Yields.commaSeparated (declarator_height h)).bind fun ds hds => ?_
  refine .after fun _ => .pure ?_
  rw [StatementForm.height]
  exact Nat.le_succ_of_le (Declarator.heightOf_le hds)

theorem functionStatement_height (h : deeper.Within levels) :
    Yields (fun form => form.height ≤ wholeBound levels + 1)
      (do return StatementForm.function (← function deeper true)) := by
  refine (function_height h true).bind fun f hf => .pure ?_
  rw [StatementForm.height]
  exact Nat.le_succ_of_le hf

theorem statementForm_height (h : deeper.Within levels) :
    Yields (fun form => form.height ≤ wholeBound levels + 1) (statementForm deeper s) := by
  refine .after fun t => ?_
  have hother := otherStatement_height (s := s) h
  cases t
  case mark m =>
    cases m
    case leftBrace => exact blockStatement_height h
    case semicolon => exact emptyStatement_height
    all_goals exact hother
  case keyword k =>
    cases k
    case varWord => exact variableStatement_height h
    case functionWord => exact functionStatement_height h
    case ifWord => exact ifStatement_height h
    case whileWord => exact whileStatement_height h
    case doWord => exact doStatement_height h
    case forWord => exact forStatement_height h
    case returnWord => exact returnStatement_height h
    case breakWord => exact breakStatement_height
    case continueWord => exact continueStatement_height
    case throwWord => exact throwStatement_height h
    case tryWord => exact tryStatement_height h
    case switchWord => exact switchStatement_height h
    case withWord => exact withStatement_height h
    all_goals exact hother
  all_goals exact hother

/-! ### The knot -/

/-- A suffix adds one node to an expression, and leaves one level less for the suffixes behind it. -/
theorem suffixed_height (h : deeper.Within levels) (calls : Bool) (e f : Expression)
    (hf : f.height ≤ max e.height (wholeBound levels + 1) + 1) :
    Yields (fun f => f.height ≤ max e.height (wholeBound (levels + 1) + 1) + (levels + 1))
      (suffixes deeper s calls f) := fun ts r rest hrun => by
  have hr := suffixes_height h calls f ts r rest hrun
  have hstep := wholeBound_succ levels
  omega

theorem rule_height (h : deeper.Within levels) (g : Goal) :
    Yields (fun r => g.heightOf r ≤ g.bound (levels + 1)) (rule deeper g s) := by
  have hstep := wholeBound_succ levels
  cases g with
  | statement =>
    refine .after fun t => (statementForm_height h).bind fun form hform => .pure ?_
    show Statement.height _ ≤ wholeBound (levels + 1)
    rw [Statement.height]
    omega
  | assignment => exact assignmentExpression_height h
  | unary =>
    refine fun ts e rest hrun => ?_
    have he := prefixed_height h ts e rest hrun
    show e.height ≤ wholeBound (levels + 1)
    unfold tiersBound at he
    rw [List.length_nil] at he
    omega
  | construct =>
    refine fun ts e rest hrun => ?_
    have he := newExpression_height h ts e rest hrun
    show e.height ≤ wholeBound (levels + 1)
    omega
  | operand tier tighter left op =>
    -- The node of this operator takes the level by which the chain behind it has one less.
    refine (tiers_height h tighter).bind fun right hright ts e rest hrun => ?_
    have he := chain_height h tier tighter (op.apply left right) ts e rest hrun
    have happly : (op.apply left right).height = max left.height right.height + 1 := by
      cases op <;> rw [Infix.apply, Expression.height]
    have hmono := tiersBound_mono levels tighter
    show e.height ≤ max left.height (tiersBound (levels + 1) tighter) + (levels + 1)
    omega
  | memberName object calls =>
    refine .after fun name => suffixed_height h calls object _ ?_
    rw [Expression.height]
    omega
  | memberKey object calls =>
    refine (expression_height h).bind fun key hkey => .after fun _ => ?_
    refine suffixed_height h calls object _ ?_
    rw [Expression.height]
    omega
  | arguments callee =>
    refine (argumentList_height h).bind fun args hargs => suffixed_height h true callee _ ?_
    rw [Expression.height]
    omega

theorem parse_within (levels : Nat) : (Goal.parse levels).Within levels := by
  induction levels with
  | zero => exact fun g s => .fail _
  | succ levels ih => exact fun g s => rule_height ih g

end Goal

/-! ## Programs -/

namespace Program

/-- Each statement of a program is at most six times as high as the square of the nesting limit. -/
theorem parse_height {source : String} {body : List Statement} (h : parse source = .ok body) :
    ∀ s ∈ body, s.height ≤ 6 * Goal.nestingLimit ^ 2 := by
  have hyields : Parser.Yields (fun body => ∀ s ∈ body, s.height ≤ Goal.wholeBound Goal.nestingLimit)
      ofLexemes := .after fun _ => .many fun _ => Goal.parse_within Goal.nestingLimit .statement .program
  unfold parse at h
  cases hrun : ofLexemes (Lexeme.ofText source) with
  | error e =>
    rw [hrun] at h
    cases h
  | ok r =>
    rw [hrun] at h
    cases h
    exact hyields _ _ _ hrun

theorem parse_height_call : ∃ body, parse "f(a * (b + 1));" = .ok body ∧ body.length = 1 ∧
    ∀ s ∈ body, s.height ≤ 6 * Goal.nestingLimit ^ 2 := by
  have hok : (match parse "f(a * (b + 1));" with
      | .ok body => body.length == 1
      | .error _ => false) = true := by decide +kernel
  cases h : parse "f(a * (b + 1));" with
  | ok body =>
    rw [h] at hok
    exact ⟨body, rfl, beq_iff_eq.1 hok, parse_height h⟩
  | error e =>
    rw [h] at hok
    cases hok

end Program

end PageScript
