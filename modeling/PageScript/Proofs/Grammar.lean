import PageScript.Proofs.Readers

/-! # Properties that the grammar hands on

A `Hereditary` property of trees passes from the parts to the whole by every rule of the grammar.  Each rule
comes with what the parser knows when it builds the tree: that a target can be assigned to, in which
surroundings a part stands, which token a name was read from, and where a statement was read.  A hereditary
property holds of all that the parser builds from texts of its kind, which is proved along the grammar once
for all of them.
-/

set_option autoImplicit false

namespace PageScript

/-- The name that a token stands for behind a point. -/
def Token.memberName? : Token → Option String
  | .identifier name => some name
  | .keyword k => some k.spelling
  | .boolean b => some (if b then "true" else "false")
  | .null => some "null"
  | _ => none

/-! ## Hereditary properties -/

/-- A property of texts, expressions, functions and statements that every rule of the grammar hands on. -/
structure Hereditary where
  text : List Lexeme → Prop
  expression : Expression → Prop
  function : FunctionTree → Prop
  statement : Surroundings → Statement → Prop
  form : Surroundings → StatementForm → Prop
  ends : ∀ {ts rest}, rest <:+ ts → text ts → text rest
  literal : ∀ l, expression (.literal l)
  identifier : ∀ {ts name}, text ts → (Parser.head ts).token = .identifier name → expression (.identifier name)
  this : expression .this
  array : ∀ {es}, (∀ e, some e ∈ es → expression e) → expression (.array es)
  object : ∀ {xs}, (∀ x ∈ xs, expression x.2) → expression (.object xs)
  functionLiteral : ∀ {f}, function f → expression (.function f)
  unary : ∀ op {e}, expression e → expression (.unary op e)
  operation : ∀ (op : Infix) {l r}, expression l → expression r → expression (op.apply l r)
  update : ∀ op before {e}, expression e → e.isTarget = true → expression (.update op before e)
  assign : ∀ {t op e value}, assignment? t = some op → expression e → e.isTarget = true → expression value →
    expression (.assign op e value)
  conditional : ∀ {test yes no}, expression test → expression yes → expression no →
    expression (.conditional test yes no)
  call : ∀ {e es}, expression e → (∀ f ∈ es, expression f) → expression (.call e es)
  construct : ∀ {e es}, expression e → (∀ f ∈ es, expression f) → expression (.construct e es)
  member : ∀ {e ts name}, expression e → text ts → (Parser.head ts).token.memberName? = some name →
    expression (.member e name)
  index : ∀ {e key}, expression e → expression key → expression (.index e key)
  sequence : ∀ {es}, (∀ e ∈ es, expression e) → expression (.sequence es)
  functionTree : ∀ {name parameters body line}, (∀ t ∈ body, statement .functionBody t) →
    function (.mk name parameters body line)
  tree : ∀ {levels s ts t rest}, text ts → Goal.parse levels .statement s ts = .ok (t, rest) → form s t.form →
    statement s t
  empty : ∀ {s}, form s .empty
  evaluate : ∀ {s e}, expression e → form s (.expression e)
  block : ∀ {s body}, (∀ t ∈ body, statement s t) → form s (.block body)
  declare : ∀ {s ds}, (∀ name e, .mk name (some e) ∈ ds → expression e) → form s (.declare ds)
  ifThen : ∀ {s test yes}, expression test → statement s yes → form s (.ifThen test yes)
  ifElse : ∀ {s test yes no}, expression test → statement s yes → statement s no → form s (.ifElse test yes no)
  whileLoop : ∀ {s test body}, expression test → statement s.loopBody body → form s (.whileLoop test body)
  doLoop : ∀ {s body test}, statement s.loopBody body → expression test → form s (.doLoop body test)
  forLoop : ∀ {s start test update body},
    (∀ ds, start = .declare ds → ∀ name e, .mk name (some e) ∈ ds → expression e) →
    (∀ e, start = .expression e → expression e) → (∀ e, test = some e → expression e) →
    (∀ e, update = some e → expression e) → statement s.loopBody body →
    form s (.forLoop start test update body)
  forVariable : ∀ {s d object body}, (∀ name e, d = .mk name (some e) → expression e) → expression object →
    statement s.loopBody body → form s (.forVariable d object body)
  forTarget : ∀ {s e object body}, expression e → expression object → statement s.loopBody body →
    form s (.forTarget e object body)
  returnValue : ∀ {s value}, s.inFunction = true → (∀ e, value = some e → expression e) →
    form s (.returnValue value)
  breakTo : ∀ {s label}, (∀ name, label = some name → name ∈ s.labels) →
    (label = none → s.inLoop = true ∨ s.inSwitch = true) → form s (.breakTo label)
  continueTo : ∀ {s label}, s.inLoop = true → form s (.continueTo label)
  throw : ∀ {s e}, expression e → form s (.throw e)
  tryCatch : ∀ {s body name handler}, (∀ t ∈ body, statement s t) → (∀ t ∈ handler, statement s t) →
    form s (.tryCatch body name handler)
  tryFinally : ∀ {s body final}, (∀ t ∈ body, statement s t) → (∀ t ∈ final, statement s t) →
    form s (.tryFinally body final)
  tryCatchFinally : ∀ {s body name handler final}, (∀ t ∈ body, statement s t) →
    (∀ t ∈ handler, statement s t) → (∀ t ∈ final, statement s t) →
    form s (.tryCatchFinally body name handler final)
  switch : ∀ {s value clauses}, expression value →
    (∀ test body, .mk test body ∈ clauses →
      (∀ e, test = some e → expression e) ∧ ∀ t ∈ body, statement s.switchBody t) →
    form s (.switch value clauses)
  labeled : ∀ {s name body}, statement (s.labeled name) body → form s (.labeled name body)
  withObject : ∀ {s object body}, expression object → statement s body → form s (.withObject object body)
  functionStatement : ∀ {s f}, function f → form s (.function f)

namespace Hereditary

open PageScript.Parser Goal

variable {H : Hereditary} {deeper : Deeper} {s : Surroundings} {e : Expression}

instance : PassesToEnds H.text := ⟨H.ends⟩

/-! ## Goals -/

/-- Whether the expression that a goal goes on from has the property. -/
def Given (H : Hereditary) : Goal → Prop
  | .operand _ _ left _ => H.expression left
  | .memberName e _ | .memberKey e _ | .arguments e => H.expression e
  | .statement | .assignment | .unary | .construct => True

/-- Whether what a goal yields has the property. -/
def Holds (H : Hereditary) (s : Surroundings) : (g : Goal) → g.Result → Prop
  | .statement, t => H.statement s t
  | .assignment, e | .unary, e | .construct, e => H.expression e
  | .operand .., e | .memberName .., e | .memberKey .., e | .arguments .., e => H.expression e

/-- Whether the parsers for the goals one level deeper yield what has the property. -/
def Kept (H : Hereditary) (deeper : Deeper) : Prop :=
  ∀ (g : Goal) (s : Surroundings), H.Given g → Takes H.text (H.Holds s g) (deeper g s)

/-- Whether the initial value of a declared variable has the property. -/
def Declares (H : Hereditary) (d : Declarator) : Prop := ∀ name e, d = .mk name (some e) → H.expression e

/-- Whether the parts of a clause of a `switch` have the property. -/
def HoldsOfClause (H : Hereditary) (s : Surroundings) (c : SwitchClause) : Prop :=
  ∀ test body, c = .mk test body → (∀ e, test = some e → H.expression e) ∧ ∀ t ∈ body, H.statement s t

/-! ### Parts of expressions -/

theorem expression_takes (h : H.Kept deeper) : Takes H.text H.expression (Goal.expression deeper s) := by
  refine (Takes.commaSeparated (h .assignment s trivial)).bind fun es hes => ?_
  split
  · exact .pure (hes _ (.head _))
  · exact .pure (H.sequence hes)

theorem block_takes (h : H.Kept deeper) :
    Takes H.text (fun body => ∀ t ∈ body, H.statement s t) (Goal.block deeper s) := by
  refine .after fun _ => (Takes.many fun _ => h .statement s trivial).bind fun body hbody => ?_
  exact .after fun _ => .pure hbody

theorem function_takes (h : H.Kept deeper) (needsName : Bool) :
    Takes H.text H.function (Goal.function deeper needsName) := by
  have hrest : ∀ (name : Option String) (line : Nat), Takes H.text H.function (do
      expectMark .leftParen
      let parameters ← commaItems .rightParen Parser.identifier
      expectMark .rightParen
      let body ← Goal.block deeper .functionBody
      return FunctionTree.mk name parameters body line) := fun name line => by
    refine .after fun _ => (Takes.commaItems (.drops inferInstance)).bind fun _ _ => .after fun _ => ?_
    exact (block_takes h).bind fun body hbody => .pure (H.functionTree hbody)
  refine .after fun first => .after fun _ => .after fun t => ?_
  dsimp only
  split
  · exact .after fun _ => .after fun name => hrest name _
  · split
    · exact .failed _
    · exact .after fun name => hrest name _

theorem argumentList_takes (h : H.Kept deeper) :
    Takes H.text (fun es => ∀ e ∈ es, H.expression e) (argumentList deeper s) := by
  refine .after fun _ => ?_
  refine (Takes.commaItems (h .assignment s.bracketed trivial)).bind fun es hes => ?_
  exact .after fun _ => .pure hes

theorem element_takes (h : H.Kept deeper) :
    Takes H.text (fun x => ∀ e, x = some e → H.expression e) (element deeper s) := by
  refine .after fun skipped => ?_
  split
  · exact .pure nofun
  · refine (h .assignment s trivial).bind fun e he => .after fun _ => ?_
    have hsome : ∀ f, some e = some f → H.expression f := by
      rintro f ⟨⟩
      exact he
    dsimp only
    split
    · exact .after fun _ => .pure hsome
    · exact .pure hsome

instance : Drops propertyKey := Drops.current.bind fun t => by
  have hrest : ∀ key : PropertyKey, Drops (do
      advance
      return key) := fun key => Drops.advance.bind fun _ => inferInstance
  dsimp only
  split
  all_goals exact Drops.bind inferInstance hrest

theorem property_takes (h : H.Kept deeper) :
    Takes H.text (fun x => H.expression x.2) (property deeper s) :=
  .after fun _ => .after fun _ => (h .assignment s trivial).bind fun _ he => .pure he

theorem leaf_takes (he : H.expression e) : Takes H.text H.expression (leaf e) :=
  .after fun _ => .pure he

theorem primary_takes (h : H.Kept deeper) : Takes H.text H.expression (primary deeper s) := by
  refine Takes.current.bind fun t ht => ?_
  obtain ⟨ts, hts, ht⟩ := ht
  split
  · exact leaf_takes H.this
  · exact leaf_takes (H.identifier hts ht)
  · exact leaf_takes (H.literal _)
  · exact leaf_takes (H.literal _)
  · exact leaf_takes (H.literal _)
  · exact leaf_takes (H.literal _)
  · exact (function_takes h false).bind fun f hf => .pure (H.functionLiteral hf)
  · refine .after fun _ => (expression_takes h).bind fun e he => ?_
    exact .after fun _ => .pure he
  · refine .after fun _ => (Takes.many fun _ => element_takes h).bind fun es hes => ?_
    exact .after fun _ => .pure (H.array fun e he => hes _ he e rfl)
  · refine .after fun _ => (Takes.commaItems (property_takes h)).bind fun xs hxs => ?_
    exact .after fun _ => .pure (H.object hxs)
  · exact .fail _

theorem suffixes_takes (h : H.Kept deeper) (calls : Bool) (he : H.expression e) :
    Takes H.text H.expression (suffixes deeper s calls e) := by
  refine .after fun t => ?_
  split
  · exact .after fun _ => h (.memberName e calls) s he
  · exact .after fun _ => h (.memberKey e calls) s he
  · split
    · exact h (.arguments e) s he
    · exact .pure he
  · exact .pure he

theorem newExpression_takes (h : H.Kept deeper) : Takes H.text H.expression (newExpression deeper s) := by
  have hargs : ∀ callee : Expression, H.expression callee → Takes H.text H.expression (do
      let args ← if (← Parser.current).isMark .leftParen then argumentList deeper s else pure []
      return Expression.construct callee args) := fun callee hcallee => by
    have hnew : ∀ args, (∀ e ∈ args, H.expression e) →
        Takes H.text H.expression (pure (Expression.construct callee args)) :=
      fun args ha => .pure (H.construct hcallee ha)
    refine .after fun t => ?_
    dsimp only
    split
    · exact (argumentList_takes h).bind hnew
    · exact hnew [] (List.forall_mem_nil _)
  refine .after fun _ => .after fun t => ?_
  dsimp only
  split
  · exact (h .construct s trivial).bind hargs
  · exact (primary_takes h).bind fun e he => (suffixes_takes h false he).bind hargs

theorem leftHandSide_takes (h : H.Kept deeper) : Takes H.text H.expression (leftHandSide deeper s) := by
  refine .after fun t => ?_
  dsimp only
  split
  · exact (newExpression_takes h).bind fun e he => suffixes_takes h true he
  · exact (primary_takes h).bind fun e he => suffixes_takes h true he

theorem postfixed_takes (h : H.Kept deeper) : Takes H.text H.expression (postfixed deeper s) := by
  refine (leftHandSide_takes h).bind fun e he => .after fun t => ?_
  dsimp only
  split
  · exact .pure he
  · split
    · exact .pure he
    · split
      · exact .failed _
      · rename_i htarget
        rw [Bool.not_eq_true, Bool.not_eq_false'] at htarget
        exact .after fun _ => .pure (H.update _ _ he htarget)

theorem prefixed_takes (h : H.Kept deeper) : Takes H.text H.expression (prefixed deeper s) := by
  refine .after fun t => ?_
  split
  · exact .after fun _ => (h .unary s trivial).bind fun e he => .pure (H.unary _ he)
  · refine .after fun _ => (h .unary s trivial).bind fun e he => ?_
    dsimp only
    split
    · exact .failed _
    · rename_i htarget
      rw [Bool.not_eq_true, Bool.not_eq_false'] at htarget
      exact .pure (H.update _ _ he htarget)
  · exact postfixed_takes h

theorem chain_takes (h : H.Kept deeper) (tier : Tier) (tighter : List Tier) (he : H.expression e) :
    Takes H.text H.expression (chain deeper s tier tighter e) := by
  refine .after fun t => ?_
  split
  · exact .after fun _ => h (.operand tier tighter e _) s he
  · exact .pure he

theorem tiers_takes (h : H.Kept deeper) (list : List Tier) :
    Takes H.text H.expression (tiers deeper s list) := by
  induction list with
  | nil => exact prefixed_takes h
  | cons tier tighter ih => exact ih.bind fun e he => chain_takes h tier tighter he

theorem conditional_takes (h : H.Kept deeper) : Takes H.text H.expression (Goal.conditional deeper s) := by
  refine (tiers_takes h Tier.all).bind fun test htest => .after fun asked => ?_
  split
  · refine (h .assignment s.bracketed trivial).bind fun yes hyes => .after fun _ => ?_
    exact (h .assignment s trivial).bind fun no hno => .pure (H.conditional htest hyes hno)
  · exact .pure htest

theorem assignmentExpression_takes (h : H.Kept deeper) :
    Takes H.text H.expression (assignmentExpression deeper s) := by
  refine (conditional_takes h).bind fun left hleft => .after fun t => ?_
  split
  · exact .pure hleft
  · rename_i op hop
    dsimp only
    split
    · exact .failed _
    · rename_i htarget
      rw [Bool.not_eq_true, Bool.not_eq_false'] at htarget
      exact .after fun _ => (h .assignment s trivial).bind fun e he =>
        .pure (H.assign hop hleft htarget he)

theorem dotName_takes (H : Hereditary) :
    Takes H.text (fun name => ∃ ts, H.text ts ∧ (head ts).token.memberName? = some name) dotName := by
  have hrest : ∀ name : String, (∃ ts, H.text ts ∧ (head ts).token.memberName? = some name) →
      Takes H.text (fun name => ∃ ts, H.text ts ∧ (head ts).token.memberName? = some name) (do
        advance
        return name) := fun name hname => .after fun _ => .pure hname
  refine Takes.current.bind fun t ht => ?_
  obtain ⟨ts, hts, ht⟩ := ht
  dsimp only
  split
  · exact hrest _ ⟨ts, hts, congrArg Token.memberName? ht⟩
  · exact hrest _ ⟨ts, hts, congrArg Token.memberName? ht⟩
  · exact hrest _ ⟨ts, hts, congrArg Token.memberName? ht⟩
  · exact hrest _ ⟨ts, hts, congrArg Token.memberName? ht⟩
  · exact .failed _

/-! ### Parts of statements -/

theorem statement_takes (h : H.Kept deeper) (s : Surroundings) :
    Takes H.text (H.statement s) (deeper .statement s) := h .statement s trivial

theorem parenthesized_takes (h : H.Kept deeper) : Takes H.text H.expression (parenthesized deeper s) :=
  .after fun _ => (expression_takes h).bind fun _ he => .after fun _ => .pure he

theorem declarator_takes (h : H.Kept deeper) : Takes H.text H.Declares (declarator deeper s) := by
  refine .after fun name => .after fun given => ?_
  split
  · refine (h .assignment s trivial).bind fun e he => .pure ?_
    rintro _ _ ⟨⟩
    exact he
  · exact .pure nofun

theorem expressionUnless_takes (h : H.Kept deeper) (m : Mark) :
    Takes H.text (fun x => ∀ e, x = some e → H.expression e) (expressionUnless deeper s m) := by
  refine .after fun t => ?_
  split
  · exact .pure nofun
  · refine (expression_takes h).bind fun e he => .pure ?_
    rintro _ ⟨⟩
    exact he

/-! ### Forms of statements -/

theorem ifStatement_takes (h : H.Kept deeper) : Takes H.text (H.form s) (ifStatement deeper s) := by
  refine .after fun _ => (parenthesized_takes h).bind fun test htest => ?_
  refine (statement_takes h s).bind fun yes hyes => .after fun t => ?_
  split
  · exact .after fun _ => (statement_takes h s).bind fun no hno => .pure (H.ifElse htest hyes hno)
  · exact .pure (H.ifThen htest hyes)

theorem whileStatement_takes (h : H.Kept deeper) : Takes H.text (H.form s) (whileStatement deeper s) := by
  refine .after fun _ => (parenthesized_takes h).bind fun test htest => ?_
  exact (statement_takes h s.loopBody).bind fun body hbody => .pure (H.whileLoop htest hbody)

theorem doStatement_takes (h : H.Kept deeper) : Takes H.text (H.form s) (doStatement deeper s) := by
  refine .after fun _ => (statement_takes h s.loopBody).bind fun body hbody => .after fun _ => ?_
  exact (parenthesized_takes h).bind fun test htest => .after fun _ => .pure (H.doLoop hbody htest)

theorem forRest_takes (h : H.Kept deeper) {start : ForStart}
    (hdeclare : ∀ ds, start = .declare ds → ∀ name e, .mk name (some e) ∈ ds → H.expression e)
    (hstart : ∀ e, start = .expression e → H.expression e) :
    Takes H.text (H.form s) (forRest deeper s start) := by
  refine .after fun _ => (expressionUnless_takes h _).bind fun test htest => .after fun _ => ?_
  refine (expressionUnless_takes h _).bind fun update hupdate => .after fun _ => ?_
  refine (statement_takes h s.loopBody).bind fun body hbody => .pure ?_
  exact H.forLoop hdeclare hstart htest hupdate hbody

theorem forInRest_takes (h : H.Kept deeper) :
    Takes H.text (fun x => H.expression x.1 ∧ H.statement s.loopBody x.2) (forInRest deeper s) := by
  refine .after fun _ => (expression_takes h).bind fun object hobject => .after fun _ => ?_
  exact (statement_takes h s.loopBody).bind fun body hbody => .pure ⟨hobject, hbody⟩

theorem forStatement_takes (h : H.Kept deeper) : Takes H.text (H.form s) (forStatement deeper s) := by
  refine .after fun _ => .after fun _ => .after fun t => ?_
  dsimp only
  split
  · exact forRest_takes h nofun nofun
  · split
    · refine .after fun _ => ?_
      refine (Takes.commaSeparated (declarator_takes h)).bind fun ds hds => .after fun u => ?_
      split
      · rename_i d _
        refine (forInRest_takes h).bind fun x hx => .pure ?_
        exact H.forVariable (hds d (.head _)) hx.1 hx.2
      · refine forRest_takes h ?_ nofun
        rintro _ ⟨⟩ name e hmem
        exact hds _ hmem name e rfl
    · refine (expression_takes h).bind fun e he => .after fun u => ?_
      have hin : Takes H.text (H.form s) (do
          let x ← forInRest deeper s
          return StatementForm.forTarget e x.1 x.2) :=
        (forInRest_takes h).bind fun x hx => .pure (H.forTarget he hx.1 hx.2)
      split
      · split
        · exact .failed _
        · exact hin
      · refine forRest_takes h nofun ?_
        rintro _ ⟨⟩
        exact he

theorem returnStatement_takes (h : H.Kept deeper) : Takes H.text (H.form s) (returnStatement deeper s) := by
  unfold returnStatement
  split
  · exact .failed _
  · rename_i hs
    rw [Bool.not_eq_true, Bool.not_eq_false'] at hs
    have hreturn : ∀ value, (∀ e, value = some e → H.expression e) → Takes H.text (H.form s) (do
        endStatement
        return StatementForm.returnValue value) := fun value hvalue =>
      .after fun _ => .pure (H.returnValue hs hvalue)
    refine .after fun _ => .after fun t => ?_
    dsimp only
    split
    · exact hreturn none nofun
    · have hvalue := (expression_takes (s := s) h).map
        (Q := fun value => ∀ e, value = some e → H.expression e) (g := some) fun e he => by
          rintro _ ⟨⟩
          exact he
      exact hvalue.bind hreturn

theorem optionalLabel_takes (H : Hereditary) :
    Takes H.text (fun label => ∀ name, label = some name → name ∈ s.labels) (optionalLabel s) := by
  refine .after fun t => ?_
  split
  · split
    · exact .failed _
    · rename_i hs
      refine .after fun _ => .pure fun name hname => ?_
      rw [← Option.some.inj hname]
      exact Classical.not_not.1 hs
  · exact .pure nofun

theorem breakStatement_takes (H : Hereditary) : Takes H.text (H.form s) (breakStatement s) := by
  refine .after fun _ => (optionalLabel_takes H).bind fun label hlabel => ?_
  dsimp only
  split
  · exact .failed _
  · rename_i hs
    refine .after fun _ => .pure (H.breakTo hlabel ?_)
    rintro rfl
    rw [Option.isNone_none, Bool.true_and, Bool.not_eq_true, Bool.and_eq_false_iff,
      Bool.not_eq_false', Bool.not_eq_false'] at hs
    exact hs

theorem continueStatement_takes (H : Hereditary) : Takes H.text (H.form s) (continueStatement s) := by
  refine .after fun _ => ?_
  dsimp only
  split
  · exact .failed _
  · rename_i hs
    rw [Bool.not_eq_true, Bool.not_eq_false'] at hs
    exact (optionalLabel_takes H).bind fun label _ => .after fun _ => .pure (H.continueTo hs)

theorem throwStatement_takes (h : H.Kept deeper) : Takes H.text (H.form s) (throwStatement deeper s) := by
  refine .after fun _ => .after fun t => ?_
  dsimp only
  split
  · exact .failed _
  · exact (expression_takes h).bind fun e he => .after fun _ => .pure (H.throw he)

theorem handler_takes (h : H.Kept deeper) :
    Takes H.text (fun caught => ∀ x, caught = some x → ∀ t ∈ x.2, H.statement s t) (handler deeper s) := by
  refine .after fun t => ?_
  split
  · exact .pure nofun
  · refine .after fun _ => .after fun _ => .after fun name => .after fun _ => ?_
    refine (block_takes h).bind fun body hbody => .pure ?_
    rintro _ ⟨⟩
    exact hbody

theorem finalBlock_takes (h : H.Kept deeper) :
    Takes H.text (fun final => ∀ body, final = some body → ∀ t ∈ body, H.statement s t)
      (finalBlock deeper s) := by
  refine .after fun t => ?_
  split
  · exact .pure nofun
  · refine .after fun _ => (block_takes h).bind fun body hbody => .pure ?_
    rintro _ ⟨⟩
    exact hbody

theorem tryStatement_takes (h : H.Kept deeper) : Takes H.text (H.form s) (tryStatement deeper s) := by
  refine .after fun _ => (block_takes h).bind fun body hbody => ?_
  refine (handler_takes h).bind fun caught hcaught => ?_
  refine (finalBlock_takes h).bind fun final hfinal => ?_
  split
  · exact .pure (H.tryCatchFinally hbody (hcaught _ rfl) (hfinal _ rfl))
  · exact .pure (H.tryCatch hbody (hcaught _ rfl))
  · exact .pure (H.tryFinally hbody (hfinal _ rfl))
  · exact .fail _

theorem switchClause_takes (h : H.Kept deeper) (before : List SwitchClause) :
    Takes H.text (H.HoldsOfClause s) (switchClause deeper s before) := by
  have hclause : ∀ test, (∀ e, test = some e → H.expression e) → Takes H.text (H.HoldsOfClause s) (do
      expectMark .colon
      let body ← many endsClause fun _ => deeper .statement s
      return SwitchClause.mk test body) := fun test htest => by
    refine .after fun _ => (Takes.many fun _ => statement_takes h s).bind fun body hbody => .pure ?_
    rintro _ _ ⟨⟩
    exact ⟨htest, hbody⟩
  refine .after fun t => ?_
  dsimp only
  split
  · have hvalue := (expression_takes (s := s) h).map
      (Q := fun value => ∀ e, value = some e → H.expression e) (g := some) fun e he => by
        rintro _ ⟨⟩
        exact he
    exact .after fun _ => hvalue.bind hclause
  · split
    · exact .failed _
    · exact .after fun _ => hclause none nofun
  · exact .failed _

theorem switchStatement_takes (h : H.Kept deeper) : Takes H.text (H.form s) (switchStatement deeper s) := by
  refine .after fun _ => (parenthesized_takes h).bind fun value hvalue => .after fun _ => ?_
  refine (Takes.many (switchClause_takes h)).bind fun clauses hclauses => .after fun _ => .pure ?_
  exact H.switch hvalue fun test body hmem => hclauses _ hmem test body rfl

theorem withStatement_takes (h : H.Kept deeper) : Takes H.text (H.form s) (withStatement deeper s) := by
  refine .after fun _ => (parenthesized_takes h).bind fun object hobject => ?_
  exact (statement_takes h s).bind fun body hbody => .pure (H.withObject hobject hbody)

instance : Drops labelAhead where
  suffix ts a rest hrun := by
    unfold labelAhead at hrun
    split at hrun
    · split at hrun
      · cases hrun
        exact List.suffix_refl _
      · cases hrun
    · cases hrun
      exact List.suffix_refl _

theorem otherStatement_takes (h : H.Kept deeper) : Takes H.text (H.form s) (otherStatement deeper s) := by
  refine .after fun label => ?_
  split
  · refine .after fun _ => .after fun _ => ?_
    exact (statement_takes h _).bind fun body hbody => .pure (H.labeled hbody)
  · exact (expression_takes h).bind fun e he => .after fun _ => .pure (H.evaluate he)

theorem variableStatement_takes (h : H.Kept deeper) : Takes H.text (H.form s) (do
    advance
    let ds ← commaSeparated (declarator deeper s)
    endStatement
    return StatementForm.declare ds) := by
  refine .after fun _ => (Takes.commaSeparated (declarator_takes h)).bind fun ds hds => ?_
  exact .after fun _ => .pure (H.declare fun name e hmem => hds _ hmem name e rfl)

theorem statementForm_takes (h : H.Kept deeper) : Takes H.text (H.form s) (statementForm deeper s) := by
  refine .after fun t => ?_
  have hother := otherStatement_takes (s := s) h
  cases t
  case mark m =>
    cases m
    case leftBrace => exact (block_takes h).bind fun body hbody => .pure (H.block hbody)
    case semicolon => exact .after fun _ => .pure H.empty
    all_goals exact hother
  case keyword k =>
    cases k
    case varWord => exact variableStatement_takes h
    case functionWord => exact (function_takes h true).bind fun f hf => .pure (H.functionStatement hf)
    case ifWord => exact ifStatement_takes h
    case whileWord => exact whileStatement_takes h
    case doWord => exact doStatement_takes h
    case forWord => exact forStatement_takes h
    case returnWord => exact returnStatement_takes h
    case breakWord => exact breakStatement_takes H
    case continueWord => exact continueStatement_takes H
    case throwWord => exact throwStatement_takes h
    case tryWord => exact tryStatement_takes h
    case switchWord => exact switchStatement_takes h
    case withWord => exact withStatement_takes h
    all_goals exact hother
  all_goals exact hother

/-! ### The knot -/

theorem statementTree_takes (h : H.Kept deeper) :
    Takes H.text (fun t => H.form s t.form) (statementTree deeper s) :=
  .after fun _ => (statementForm_takes h).bind fun _ hform => .pure hform

theorem rule_takes {levels : Nat} (h : H.Kept (Goal.parse levels)) (g : Goal) (hg : H.Given g) :
    Takes H.text (H.Holds s g) (Goal.parse (levels + 1) g s) := by
  cases g with
  | statement =>
    intro ts t rest hts hrun
    obtain ⟨hform, hrest⟩ := statementTree_takes h ts t rest hts hrun
    exact ⟨H.tree hts hrun hform, hrest⟩
  | assignment => exact assignmentExpression_takes h
  | unary => exact prefixed_takes h
  | construct => exact newExpression_takes h
  | operand tier tighter left op =>
    refine (tiers_takes h tighter).bind fun right hright => chain_takes h tier tighter ?_
    exact H.operation op hg hright
  | memberName e calls =>
    refine (dotName_takes H).bind fun name hname => suffixes_takes h calls ?_
    obtain ⟨ts, hts, hname⟩ := hname
    exact H.member hg hts hname
  | memberKey e calls =>
    refine (expression_takes h).bind fun key hkey => .after fun _ => suffixes_takes h calls ?_
    exact H.index hg hkey
  | arguments e =>
    refine (argumentList_takes h).bind fun args hargs => suffixes_takes h true ?_
    exact H.call hg hargs

theorem parse_kept (H : Hereditary) (levels : Nat) : H.Kept (Goal.parse levels) := by
  induction levels with
  | zero => exact fun g s _ => .fail _
  | succ levels ih => exact fun g s hg => rule_takes ih g hg

/-- A hereditary property holds of the statements of a program, if its text is of the kind. -/
theorem of_parse (H : Hereditary) {source : String} {body : List Statement}
    (htext : H.text (Lexeme.ofText source)) (h : Program.parse source = .ok body) :
    ∀ t ∈ body, H.statement .program t := by
  have htakes : Takes H.text (fun body => ∀ t ∈ body, H.statement .program t) Program.ofLexemes :=
    .after fun _ => .many fun _ => H.parse_kept _ .statement .program trivial
  unfold Program.parse at h
  cases hrun : Program.ofLexemes (Lexeme.ofText source) with
  | error e =>
    rw [hrun] at h
    cases h
  | ok r =>
    rw [hrun] at h
    cases h
    exact (htakes _ _ _ htext hrun).1

end Hereditary

end PageScript
