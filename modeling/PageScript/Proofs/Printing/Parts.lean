import PageScript.Proofs.Printing.Words

/-! # The expressions of a program

`Statement.partsOf` lists all expressions that occur in statements, those within other expressions and
within functions included.  The parser builds each of them with names that are words, and with targets that
can be assigned to.  So an expression of a program is printable if it keeps to names, literals, operators,
calls, members and arrays without holes.
-/

set_option autoImplicit false

namespace PageScript

/-! ## Parts -/

mutual

/-- An expression and the expressions in it. -/
@[simp]
def Expression.parts : Expression → List Expression
  | .literal l => [.literal l]
  | .identifier name => [.identifier name]
  | .this => [.this]
  | .array elements => .array elements :: Expression.partsOfElements elements
  | .object properties => .object properties :: Expression.partsOfProperties properties
  | .function f => .function f :: f.parts
  | .unary op e => .unary op e :: e.parts
  | .binary op l r => .binary op l r :: (l.parts ++ r.parts)
  | .logical op l r => .logical op l r :: (l.parts ++ r.parts)
  | .update op before e => .update op before e :: e.parts
  | .assign op target value => .assign op target value :: (target.parts ++ value.parts)
  | .conditional test yes no => .conditional test yes no :: (test.parts ++ yes.parts ++ no.parts)
  | .call callee args => .call callee args :: (callee.parts ++ Expression.partsOf args)
  | .construct callee args => .construct callee args :: (callee.parts ++ Expression.partsOf args)
  | .member e name => .member e name :: e.parts
  | .index e key => .index e key :: (e.parts ++ key.parts)
  | .sequence es => .sequence es :: Expression.partsOf es

/-- The expressions in a list of expressions. -/
def Expression.partsOf : List Expression → List Expression
  | [] => []
  | e :: rest => e.parts ++ Expression.partsOf rest

/-- The expressions in an optional expression. -/
def Expression.partsOfOption : Option Expression → List Expression
  | none => []
  | some e => e.parts

/-- The expressions in the elements of an array literal. -/
def Expression.partsOfElements : List (Option Expression) → List Expression
  | [] => []
  | e :: rest => Expression.partsOfOption e ++ Expression.partsOfElements rest

/-- The expressions in the properties of an object literal. -/
def Expression.partsOfProperties : List (PropertyKey × Expression) → List Expression
  | [] => []
  | (_, e) :: rest => e.parts ++ Expression.partsOfProperties rest

/-- The expressions in a declarator. -/
def Declarator.parts : Declarator → List Expression
  | .mk _ initial => Expression.partsOfOption initial

/-- The expressions in a list of declarators. -/
def Declarator.partsOf : List Declarator → List Expression
  | [] => []
  | d :: rest => d.parts ++ Declarator.partsOf rest

/-- The expressions in the start of a `for` statement. -/
def ForStart.parts : ForStart → List Expression
  | .nothing => []
  | .declare ds => Declarator.partsOf ds
  | .expression e => e.parts

/-- The expressions in a function. -/
def FunctionTree.parts : FunctionTree → List Expression
  | .mk _ _ body _ => Statement.partsOf body

/-- The expressions in a statement. -/
def Statement.parts : Statement → List Expression
  | .mk _ form => form.parts

/-- The expressions in a list of statements. -/
def Statement.partsOf : List Statement → List Expression
  | [] => []
  | s :: rest => s.parts ++ Statement.partsOf rest

/-- The expressions in the clauses of a `switch` statement. -/
def SwitchClause.partsOf : List SwitchClause → List Expression
  | [] => []
  | .mk test body :: rest =>
    Expression.partsOfOption test ++ Statement.partsOf body ++ SwitchClause.partsOf rest

/-- The expressions in a form of statement. -/
def StatementForm.parts : StatementForm → List Expression
  | .empty | .breakTo _ | .continueTo _ => []
  | .expression e => e.parts
  | .block body => Statement.partsOf body
  | .declare ds => Declarator.partsOf ds
  | .ifThen test yes => test.parts ++ yes.parts
  | .ifElse test yes no => test.parts ++ yes.parts ++ no.parts
  | .whileLoop test body => test.parts ++ body.parts
  | .doLoop body test => body.parts ++ test.parts
  | .forLoop start test update body =>
    start.parts ++ Expression.partsOfOption test ++ Expression.partsOfOption update ++ body.parts
  | .forVariable d object body => d.parts ++ object.parts ++ body.parts
  | .forTarget target object body => target.parts ++ object.parts ++ body.parts
  | .returnValue value => Expression.partsOfOption value
  | .throw value => value.parts
  | .tryCatch body _ handler => Statement.partsOf body ++ Statement.partsOf handler
  | .tryFinally body final => Statement.partsOf body ++ Statement.partsOf final
  | .tryCatchFinally body _ handler final =>
    Statement.partsOf body ++ Statement.partsOf handler ++ Statement.partsOf final
  | .switch value clauses => value.parts ++ SwitchClause.partsOf clauses
  | .labeled _ body => body.parts
  | .withObject object body => object.parts ++ body.parts
  | .function f => f.parts

end

/-! ## What the parser builds -/

/-- Whether a literal is a finite number, a string without the line breaks that are printed as they are,
or no number or string at all. -/
def Literal.Plain : Literal → Prop
  | .null | .boolean _ => True
  | .number n => n.isFinite = true
  | .string s => ∀ c ∈ s.toList, c ≠ '\u2028' ∧ c ≠ '\u2029'

/-- The expressions made of names, plain literals, operators, calls, members and array literals without
holes, where no number literal stands before a point. -/
inductive Expression.Plain : Expression → Prop
  | literal {l : Literal} (h : l.Plain) : Plain (.literal l)
  | identifier (name : String) : Plain (.identifier name)
  | this : Plain .this
  | array {es : List Expression} (hes : ∀ e ∈ es, Plain e) : Plain (.array (es.map some))
  | unary (op : UnaryOp) {e : Expression} (he : Plain e) : Plain (.unary op e)
  | binary (op : BinaryOp) {l r : Expression} (hl : Plain l) (hr : Plain r) : Plain (.binary op l r)
  | logical (op : LogicalOp) {l r : Expression} (hl : Plain l) (hr : Plain r) : Plain (.logical op l r)
  | update (op : UpdateOp) (before : Bool) {e : Expression} (he : Plain e) : Plain (.update op before e)
  | assign (op : Option BinaryOp) {e value : Expression} (he : Plain e) (hvalue : Plain value) :
    Plain (.assign op e value)
  | conditional {test yes no : Expression} (htest : Plain test) (hyes : Plain yes) (hno : Plain no) :
    Plain (.conditional test yes no)
  | call {callee : Expression} {args : List Expression} (hcallee : Plain callee) (hargs : ∀ e ∈ args, Plain e) :
    Plain (.call callee args)
  | member {object : Expression} (name : String) (hobject : Plain object) (hnumber : object.isNumber = false) :
    Plain (.member object name)
  | index {object key : Expression} (hobject : Plain object) (hkey : Plain key) : Plain (.index object key)

/-- Whether an expression is printable if it is plain and its numbers are read back. -/
def Expression.Faithful (e : Expression) : Prop :=
  e.Plain → (∀ n, .literal (.number n) ∈ e.parts → n.ReadsBack) → e.Printable

/-- Whether all expressions of a list are faithful. -/
def AllFaithful (es : List Expression) : Prop := ∀ e ∈ es, e.Faithful

namespace AllFaithful

theorem nil : AllFaithful [] := nofun

theorem cons {e : Expression} {es : List Expression} (he : e.Faithful) (hes : AllFaithful es) :
    AllFaithful (e :: es) := List.forall_mem_cons.2 ⟨he, hes⟩

theorem append {es fs : List Expression} (hes : AllFaithful es) (hfs : AllFaithful fs) : AllFaithful (es ++ fs) :=
  List.forall_mem_append.2 ⟨hes, hfs⟩

theorem partsOf {es : List Expression} (h : ∀ e ∈ es, AllFaithful e.parts) :
    AllFaithful (Expression.partsOf es) := by
  induction es with
  | nil => exact .nil
  | cons e rest ih =>
    rw [Expression.partsOf]
    exact (h e (.head _)).append (ih fun f hf => h f (.tail _ hf))

theorem partsOfOption {x : Option Expression} (h : ∀ e, x = some e → AllFaithful e.parts) :
    AllFaithful (Expression.partsOfOption x) := by
  cases x with
  | none => exact .nil
  | some e => exact h e rfl

theorem partsOfElements {es : List (Option Expression)} (h : ∀ e, some e ∈ es → AllFaithful e.parts) :
    AllFaithful (Expression.partsOfElements es) := by
  induction es with
  | nil => exact .nil
  | cons e rest ih =>
    rw [Expression.partsOfElements]
    refine (partsOfOption ?_).append (ih fun f hf => h f (.tail _ hf))
    rintro e rfl
    exact h e (.head _)

theorem partsOfProperties {xs : List (PropertyKey × Expression)} (h : ∀ x ∈ xs, AllFaithful x.2.parts) :
    AllFaithful (Expression.partsOfProperties xs) := by
  induction xs with
  | nil => exact .nil
  | cons x rest ih =>
    obtain ⟨key, e⟩ := x
    rw [Expression.partsOfProperties]
    exact (h (key, e) (.head _)).append (ih fun y hy => h y (.tail _ hy))

theorem declarator {d : Declarator} (h : ∀ name e, d = .mk name (some e) → AllFaithful e.parts) :
    AllFaithful d.parts := by
  obtain ⟨name, initial⟩ := d
  rw [Declarator.parts]
  refine partsOfOption ?_
  rintro e rfl
  exact h name e rfl

theorem partsOfDeclarators {ds : List Declarator}
    (h : ∀ name e, .mk name (some e) ∈ ds → AllFaithful e.parts) : AllFaithful (Declarator.partsOf ds) := by
  induction ds with
  | nil => exact .nil
  | cons d rest ih =>
    rw [Declarator.partsOf]
    refine (declarator ?_).append (ih fun name e he => h name e (.tail _ he))
    rintro name e rfl
    exact h name e (.head _)

theorem forStart {start : ForStart}
    (hdeclare : ∀ ds, start = .declare ds → ∀ name e, .mk name (some e) ∈ ds → AllFaithful e.parts)
    (hstart : ∀ e, start = .expression e → AllFaithful e.parts) : AllFaithful start.parts := by
  cases start with
  | nothing => rw [ForStart.parts]; exact .nil
  | declare ds => rw [ForStart.parts]; exact partsOfDeclarators (hdeclare ds rfl)
  | expression e => rw [ForStart.parts]; exact hstart e rfl

theorem statements {body : List Statement} (h : ∀ t ∈ body, AllFaithful t.parts) :
    AllFaithful (Statement.partsOf body) := by
  induction body with
  | nil => exact .nil
  | cons t rest ih =>
    rw [Statement.partsOf]
    exact (h t (.head _)).append (ih fun u hu => h u (.tail _ hu))

theorem clauses {clauses : List SwitchClause}
    (h : ∀ test body, .mk test body ∈ clauses →
      (∀ e, test = some e → AllFaithful e.parts) ∧ ∀ t ∈ body, AllFaithful t.parts) :
    AllFaithful (SwitchClause.partsOf clauses) := by
  induction clauses with
  | nil => exact .nil
  | cons c rest ih =>
    obtain ⟨test, body⟩ := c
    obtain ⟨htest, hbody⟩ := h test body (.head _)
    rw [SwitchClause.partsOf]
    exact ((partsOfOption htest).append (.statements hbody)).append
      (ih fun test body hc => h test body (.tail _ hc))

end AllFaithful

/-- An expression is one of its parts. -/
theorem Expression.mem_parts (e : Expression) : e ∈ e.parts := by
  cases e <;> rw [parts] <;> exact .head _

theorem AllFaithful.self {e : Expression} (h : AllFaithful e.parts) : e.Faithful := h e e.mem_parts

namespace Expression

variable {e l r target value test yes no callee object key : Expression} {es : List Expression} {name : String}

theorem parts_subset_partsOf (he : e ∈ es) : e.parts ⊆ partsOf es := by
  induction es with
  | nil => cases he
  | cons f rest ih =>
    rw [partsOf]
    rcases List.mem_cons.1 he with rfl | he
    · exact List.subset_append_left _ _
    · exact List.subset_append_of_subset_right _ (ih he)

theorem partsOfElements_map_some (es : List Expression) : partsOfElements (es.map some) = partsOf es := by
  induction es with
  | nil => rw [List.map_nil, partsOfElements, partsOf]
  | cons e es ih => rw [List.map_cons, partsOfElements, partsOf, partsOfOption, ih]

/-- A part of an expression is printable if the numbers of all of it are read back. -/
theorem Faithful.within (h : e.Faithful) (he : e.Plain) (hsub : e.parts ⊆ es)
    (hnumbers : ∀ n, .literal (.number n) ∈ es → n.ReadsBack) : e.Printable :=
  h he fun n hn => hnumbers n (hsub hn)

theorem faithful_literal (l : Literal) : (literal l).Faithful := by
  intro hplain hnumbers
  cases hplain with
  | literal h =>
    cases l with
    | null => exact .literal trivial
    | boolean b => exact .literal trivial
    | number n => exact .literal (hnumbers n (mem_parts _))
    | string s => exact .literal h

theorem faithful_array {elements : List (Option Expression)} (h : ∀ e, some e ∈ elements → e.Faithful) :
    (array elements).Faithful := by
  intro hplain hnumbers
  cases hplain with
  | @array es hes =>
    rw [parts, partsOfElements_map_some] at hnumbers
    refine .array fun e he => ?_
    exact (h e (List.mem_map_of_mem he)).within (hes e he) (parts_subset_partsOf he)
      fun n hn => hnumbers n (.tail _ hn)

theorem faithful_unary {op : UnaryOp} (he : e.Faithful) : (unary op e).Faithful := by
  intro hplain hnumbers
  cases hplain with
  | unary _ hplain =>
    rw [parts] at hnumbers
    exact .unary op (he.within hplain (List.subset_cons_self _ _) hnumbers)

theorem faithful_operation (op : Infix) (hl : l.Faithful) (hr : r.Faithful) : (op.apply l r).Faithful := by
  have hprintable : l.Plain → r.Plain →
      (∀ n, .literal (.number n) ∈ l.parts ++ r.parts → n.ReadsBack) → (op.apply l r).Printable :=
    fun hplain hplain' hnumbers =>
      .operation op (hl.within hplain (List.subset_append_left _ _) hnumbers)
        (hr.within hplain' (List.subset_append_right _ _) hnumbers)
  intro hplain hnumbers
  cases op with
  | binary op =>
    rw [Infix.apply, parts] at hnumbers
    cases hplain with
    | binary _ hplain hplain' => exact hprintable hplain hplain' fun n hn => hnumbers n (.tail _ hn)
  | logical op =>
    rw [Infix.apply, parts] at hnumbers
    cases hplain with
    | logical _ hplain hplain' => exact hprintable hplain hplain' fun n hn => hnumbers n (.tail _ hn)

theorem faithful_update {op : UpdateOp} {before : Bool} (he : e.Faithful) (htarget : e.isTarget = true) :
    (update op before e).Faithful := by
  intro hplain hnumbers
  cases hplain with
  | update _ _ hplain =>
    rw [parts] at hnumbers
    exact .update op before (he.within hplain (List.subset_cons_self _ _) hnumbers) htarget

theorem faithful_assign {op : Option BinaryOp} {t : Token} (hop : assignment? t = some op)
    (h : target.Faithful) (htarget : target.isTarget = true) (hvalue : value.Faithful) :
    (assign op target value).Faithful := by
  have hmark : ∃ m, assignmentMark? op = some m := by
    cases t with
    | mark m => cases m <;> cases hop <;> exact ⟨_, rfl⟩
    | _ => cases hop
  obtain ⟨m, hm⟩ := hmark
  intro hplain hnumbers
  cases hplain with
  | assign _ hplain hplain' =>
    rw [parts] at hnumbers
    have hnumbers := fun n hn => hnumbers n (.tail _ hn)
    exact .assign hm (h.within hplain (List.subset_append_left _ _) hnumbers) htarget
      (hvalue.within hplain' (List.subset_append_right _ _) hnumbers)

theorem faithful_conditional (htest : test.Faithful) (hyes : yes.Faithful) (hno : no.Faithful) :
    (conditional test yes no).Faithful := by
  intro hplain hnumbers
  cases hplain with
  | conditional htest' hyes' hno' =>
    rw [parts, List.append_assoc] at hnumbers
    have hnumbers := fun n hn => hnumbers n (.tail _ hn)
    have hbranches := fun n hn => hnumbers n (List.mem_append_right _ hn)
    exact .conditional (htest.within htest' (List.subset_append_left _ _) hnumbers)
      (hyes.within hyes' (List.subset_append_left _ _) hbranches)
      (hno.within hno' (List.subset_append_right _ _) hbranches)

theorem faithful_call (h : callee.Faithful) (hes : ∀ e ∈ es, e.Faithful) : (call callee es).Faithful := by
  intro hplain hnumbers
  cases hplain with
  | call hplain hplain' =>
    rw [parts] at hnumbers
    have hnumbers := fun n hn => hnumbers n (.tail _ hn)
    refine .call (h.within hplain (List.subset_append_left _ _) hnumbers) fun e he => ?_
    exact (hes e he).within (hplain' e he) (parts_subset_partsOf he)
      fun n hn => hnumbers n (List.mem_append_right _ hn)

theorem faithful_member (h : object.Faithful) (hname : Lexeme.IsWord name) : (member object name).Faithful := by
  intro hplain hnumbers
  cases hplain with
  | member _ hplain hnumber =>
    rw [parts] at hnumbers
    exact .member (h.within hplain (List.subset_cons_self _ _) hnumbers) hnumber hname

theorem faithful_index (h : object.Faithful) (hkey : key.Faithful) : (index object key).Faithful := by
  intro hplain hnumbers
  cases hplain with
  | index hplain hplain' =>
    rw [parts] at hnumbers
    have hnumbers := fun n hn => hnumbers n (.tail _ hn)
    exact .index (h.within hplain (List.subset_append_left _ _) hnumbers)
      (hkey.within hplain' (List.subset_append_right _ _) hnumbers)

end Expression

theorem Parser.namesItself_head {ts : List Lexeme} (hts : ∀ l ∈ ts, l.token.NamesItself) :
    (head ts).token.NamesItself := by
  cases ts with
  | nil => exact nofun
  | cons l rest => exact hts l (.head _)

/-- The expressions in a tree are faithful. -/
def Hereditary.faithful : Hereditary where
  text ts := ∀ l ∈ ts, l.token.NamesItself
  expression e := AllFaithful e.parts
  function f := AllFaithful f.parts
  statement _ t := AllFaithful t.parts
  form _ f := AllFaithful f.parts
  ends hrest hts l hl := hts l (hrest.subset hl)
  literal l := by rw [Expression.parts]; exact .cons (Expression.faithful_literal l) .nil
  identifier hts ht := by
    obtain ⟨hword, htoken⟩ := Parser.namesItself_head hts _ (congrArg Token.memberName? ht)
    rw [Expression.parts]
    exact .cons (fun _ _ => .identifier hword (htoken.trans ht)) .nil
  this := by rw [Expression.parts]; exact .cons (fun _ _ => .this) .nil
  array h := by
    rw [Expression.parts]
    exact .cons (Expression.faithful_array fun e he => (h e he).self) (.partsOfElements h)
  object h := by rw [Expression.parts]; exact .cons nofun (.partsOfProperties h)
  functionLiteral h := by rw [Expression.parts]; exact .cons nofun h
  unary _ _ h := by rw [Expression.parts]; exact .cons (Expression.faithful_unary h.self) h
  operation op _ _ hl hr := by
    have happly := Expression.faithful_operation op hl.self hr.self
    cases op <;> rw [Infix.apply, Expression.parts] <;> exact .cons happly (hl.append hr)
  update _ _ _ h htarget := by
    rw [Expression.parts]
    exact .cons (Expression.faithful_update h.self htarget) h
  assign hop h htarget hvalue := by
    rw [Expression.parts]
    exact .cons (Expression.faithful_assign hop h.self htarget hvalue.self) (h.append hvalue)
  conditional htest hyes hno := by
    rw [Expression.parts]
    exact .cons (Expression.faithful_conditional htest.self hyes.self hno.self)
      ((htest.append hyes).append hno)
  call h hargs := by
    rw [Expression.parts]
    exact .cons (Expression.faithful_call h.self fun e he => (hargs e he).self) (h.append (.partsOf hargs))
  construct h hargs := by rw [Expression.parts]; exact .cons nofun (h.append (.partsOf hargs))
  member h hts hname := by
    rw [Expression.parts]
    exact .cons (Expression.faithful_member h.self (Parser.namesItself_head hts _ hname).1) h
  index h hkey := by
    rw [Expression.parts]
    exact .cons (Expression.faithful_index h.self hkey.self) (h.append hkey)
  sequence h := by rw [Expression.parts]; exact .cons nofun (.partsOf h)
  functionTree hbody := by rw [FunctionTree.parts]; exact .statements hbody
  tree {_ _ _ t _} _ _ h := by
    obtain ⟨line, form⟩ := t
    rw [Statement.parts]
    exact h
  empty := by rw [StatementForm.parts]; exact .nil
  evaluate h := by rw [StatementForm.parts]; exact h
  block h := by rw [StatementForm.parts]; exact .statements h
  declare h := by rw [StatementForm.parts]; exact .partsOfDeclarators h
  ifThen htest hyes := by rw [StatementForm.parts]; exact htest.append hyes
  ifElse htest hyes hno := by rw [StatementForm.parts]; exact (htest.append hyes).append hno
  whileLoop htest hbody := by rw [StatementForm.parts]; exact htest.append hbody
  doLoop hbody htest := by rw [StatementForm.parts]; exact hbody.append htest
  forLoop hdeclare hstart htest hupdate hbody := by
    rw [StatementForm.parts]
    exact (((AllFaithful.forStart hdeclare hstart).append (.partsOfOption htest)).append
      (.partsOfOption hupdate)).append hbody
  forVariable hd hobject hbody := by
    rw [StatementForm.parts]
    exact ((AllFaithful.declarator hd).append hobject).append hbody
  forTarget h hobject hbody := by rw [StatementForm.parts]; exact (h.append hobject).append hbody
  returnValue _ hvalue := by rw [StatementForm.parts]; exact .partsOfOption hvalue
  breakTo _ _ := by rw [StatementForm.parts]; exact .nil
  continueTo _ := by rw [StatementForm.parts]; exact .nil
  throw h := by rw [StatementForm.parts]; exact h
  tryCatch hbody hhandler := by
    rw [StatementForm.parts]
    exact (AllFaithful.statements hbody).append (.statements hhandler)
  tryFinally hbody hfinal := by
    rw [StatementForm.parts]
    exact (AllFaithful.statements hbody).append (.statements hfinal)
  tryCatchFinally hbody hhandler hfinal := by
    rw [StatementForm.parts]
    exact ((AllFaithful.statements hbody).append (.statements hhandler)).append (.statements hfinal)
  switch hvalue hclauses := by rw [StatementForm.parts]; exact hvalue.append (.clauses hclauses)
  labeled hbody := by rw [StatementForm.parts]; exact hbody
  withObject hobject hbody := by rw [StatementForm.parts]; exact hobject.append hbody
  functionStatement h := by rw [StatementForm.parts]; exact h

end PageScript
