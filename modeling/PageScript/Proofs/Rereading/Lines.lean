import PageScript.Source.Parser

/-! # Trees on other lines

`renumber f` puts the statements and functions of a tree, or a lexeme, on other lines: what stood on line `n`
comes to stand on line `f n`.  Nothing else changes.
-/

set_option autoImplicit false

namespace PageScript

/-- A lexeme on another line. -/
def Lexeme.renumber (f : Nat → Nat) (l : Lexeme) : Lexeme := { l with line := f l.line }

mutual

/-- An expression whose functions stand on other lines. -/
def Expression.renumber (f : Nat → Nat) : Expression → Expression
  | .literal l => .literal l
  | .identifier name => .identifier name
  | .this => .this
  | .array elements => .array (Expression.renumberElements f elements)
  | .object properties => .object (Expression.renumberProperties f properties)
  | .function g => .function (g.renumber f)
  | .unary op e => .unary op (e.renumber f)
  | .binary op l r => .binary op (l.renumber f) (r.renumber f)
  | .logical op l r => .logical op (l.renumber f) (r.renumber f)
  | .update op before e => .update op before (e.renumber f)
  | .assign op target value => .assign op (target.renumber f) (value.renumber f)
  | .conditional test yes no => .conditional (test.renumber f) (yes.renumber f) (no.renumber f)
  | .call callee args => .call (callee.renumber f) (Expression.renumberAll f args)
  | .construct callee args => .construct (callee.renumber f) (Expression.renumberAll f args)
  | .member object name => .member (object.renumber f) name
  | .index object key => .index (object.renumber f) (key.renumber f)
  | .sequence parts => .sequence (Expression.renumberAll f parts)

/-- Expressions whose functions stand on other lines. -/
def Expression.renumberAll (f : Nat → Nat) : List Expression → List Expression
  | [] => []
  | e :: rest => e.renumber f :: Expression.renumberAll f rest

/-- An expression, if there is one, whose functions stand on other lines. -/
def Expression.renumberOption (f : Nat → Nat) : Option Expression → Option Expression
  | none => none
  | some e => some (e.renumber f)

/-- Elements of an array literal whose functions stand on other lines. -/
def Expression.renumberElements (f : Nat → Nat) : List (Option Expression) → List (Option Expression)
  | [] => []
  | e :: rest => Expression.renumberOption f e :: Expression.renumberElements f rest

/-- Properties of an object literal whose functions stand on other lines. -/
def Expression.renumberProperties (f : Nat → Nat) :
    List (PropertyKey × Expression) → List (PropertyKey × Expression)
  | [] => []
  | (key, e) :: rest => (key, e.renumber f) :: Expression.renumberProperties f rest

/-- A declarator whose functions stand on other lines. -/
def Declarator.renumber (f : Nat → Nat) : Declarator → Declarator
  | .mk name initial => .mk name (Expression.renumberOption f initial)

/-- Declarators whose functions stand on other lines. -/
def Declarator.renumberAll (f : Nat → Nat) : List Declarator → List Declarator
  | [] => []
  | d :: rest => d.renumber f :: Declarator.renumberAll f rest

/-- The start of a `for` statement whose functions stand on other lines. -/
def ForStart.renumber (f : Nat → Nat) : ForStart → ForStart
  | .nothing => .nothing
  | .declare ds => .declare (Declarator.renumberAll f ds)
  | .expression e => .expression (e.renumber f)

/-- A function on other lines. -/
def FunctionTree.renumber (f : Nat → Nat) : FunctionTree → FunctionTree
  | .mk name parameters body line => .mk name parameters (Statement.renumberAll f body) (f line)

/-- A statement on other lines. -/
def Statement.renumber (f : Nat → Nat) : Statement → Statement
  | .mk line form => .mk (f line) (form.renumber f)

/-- Statements on other lines. -/
def Statement.renumberAll (f : Nat → Nat) : List Statement → List Statement
  | [] => []
  | t :: rest => t.renumber f :: Statement.renumberAll f rest

/-- A clause of a `switch` statement on other lines. -/
def SwitchClause.renumber (f : Nat → Nat) : SwitchClause → SwitchClause
  | .mk test body => .mk (Expression.renumberOption f test) (Statement.renumberAll f body)

/-- Clauses of a `switch` statement on other lines. -/
def SwitchClause.renumberAll (f : Nat → Nat) : List SwitchClause → List SwitchClause
  | [] => []
  | c :: rest => c.renumber f :: SwitchClause.renumberAll f rest

/-- A form of statement on other lines. -/
def StatementForm.renumber (f : Nat → Nat) : StatementForm → StatementForm
  | .empty => .empty
  | .expression e => .expression (e.renumber f)
  | .block body => .block (Statement.renumberAll f body)
  | .declare ds => .declare (Declarator.renumberAll f ds)
  | .ifThen test yes => .ifThen (test.renumber f) (yes.renumber f)
  | .ifElse test yes no => .ifElse (test.renumber f) (yes.renumber f) (no.renumber f)
  | .whileLoop test body => .whileLoop (test.renumber f) (body.renumber f)
  | .doLoop body test => .doLoop (body.renumber f) (test.renumber f)
  | .forLoop start test update body =>
    .forLoop (start.renumber f) (Expression.renumberOption f test) (Expression.renumberOption f update)
      (body.renumber f)
  | .forVariable d object body => .forVariable (d.renumber f) (object.renumber f) (body.renumber f)
  | .forTarget target object body => .forTarget (target.renumber f) (object.renumber f) (body.renumber f)
  | .returnValue value => .returnValue (Expression.renumberOption f value)
  | .breakTo label => .breakTo label
  | .continueTo label => .continueTo label
  | .throw e => .throw (e.renumber f)
  | .tryCatch body parameter handler =>
    .tryCatch (Statement.renumberAll f body) parameter (Statement.renumberAll f handler)
  | .tryFinally body final => .tryFinally (Statement.renumberAll f body) (Statement.renumberAll f final)
  | .tryCatchFinally body parameter handler final =>
    .tryCatchFinally (Statement.renumberAll f body) parameter (Statement.renumberAll f handler)
      (Statement.renumberAll f final)
  | .switch value clauses => .switch (value.renumber f) (SwitchClause.renumberAll f clauses)
  | .labeled label body => .labeled label (body.renumber f)
  | .withObject object body => .withObject (object.renumber f) (body.renumber f)
  | .function g => .function (g.renumber f)

end

variable (f : Nat → Nat)

/-! ## Lists of parts -/

theorem Expression.renumberAll_eq (es : List Expression) :
    Expression.renumberAll f es = es.map (Expression.renumber f) := by
  induction es with
  | nil => rfl
  | cons e es ih => rw [Expression.renumberAll, ih, List.map_cons]

theorem Expression.renumberOption_eq (e : Option Expression) :
    Expression.renumberOption f e = e.map (Expression.renumber f) := by cases e <;> rfl

theorem Expression.renumberElements_eq (es : List (Option Expression)) :
    Expression.renumberElements f es = es.map (Option.map (Expression.renumber f)) := by
  induction es with
  | nil => rfl
  | cons e es ih => rw [Expression.renumberElements, ih, Expression.renumberOption_eq, List.map_cons]

theorem Expression.renumberProperties_eq (xs : List (PropertyKey × Expression)) :
    Expression.renumberProperties f xs = xs.map fun x => (x.1, x.2.renumber f) := by
  induction xs with
  | nil => rfl
  | cons x xs ih =>
    obtain ⟨key, e⟩ := x
    rw [Expression.renumberProperties, ih, List.map_cons]

theorem Declarator.renumberAll_eq (ds : List Declarator) :
    Declarator.renumberAll f ds = ds.map (Declarator.renumber f) := by
  induction ds with
  | nil => rfl
  | cons d ds ih => rw [Declarator.renumberAll, ih, List.map_cons]

theorem Statement.renumberAll_eq (body : List Statement) :
    Statement.renumberAll f body = body.map (Statement.renumber f) := by
  induction body with
  | nil => rfl
  | cons t body ih => rw [Statement.renumberAll, ih, List.map_cons]

theorem SwitchClause.renumberAll_eq (clauses : List SwitchClause) :
    SwitchClause.renumberAll f clauses = clauses.map (SwitchClause.renumber f) := by
  induction clauses with
  | nil => rfl
  | cons c clauses ih => rw [SwitchClause.renumberAll, ih, List.map_cons]

/-! ## What does not change -/

@[simp] theorem Expression.isTarget_renumber (e : Expression) : (e.renumber f).isTarget = e.isTarget := by
  cases e <;> rfl

theorem Infix.apply_renumber (op : Infix) (l r : Expression) :
    (op.apply l r).renumber f = op.apply (l.renumber f) (r.renumber f) := by
  cases op <;> rfl

@[simp] theorem Goal.isDefault_renumber (c : SwitchClause) : Goal.isDefault (c.renumber f) = Goal.isDefault c := by
  obtain ⟨test, body⟩ := c
  cases test <;> rfl

end PageScript
