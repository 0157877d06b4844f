import PageScript.Proofs.ControlFlow.Jumps
import PageScript.Proofs.Grammar

/-! # Jumps of a parsed program

The parser refuses `return` outside functions, `break` outside loops and `switch` statements, `continue`
outside loops, and labels that are not around.  So a jump that leaves a statement finds something in its
surroundings that takes it up, with one exception: a `continue` may name the label of a statement that
is no loop.
-/

set_option autoImplicit false

namespace PageScript

/-! ## What surroundings take up -/

/-- Whether something in the surroundings of a statement takes a jump up, or the parser does not see to
that. -/
def Surroundings.Grants (s : Surroundings) : Jump → Prop
  | .returned => s.inFunction = true
  | .broken none => s.inLoop = true ∨ s.inSwitch = true
  | .broken (some label) => label ∈ s.labels
  | .continued none => s.inLoop = true
  | .continued (some _) => True

/-- Whether no jump leaves the functions of a list but `return`, and `continue` with a label. -/
def Confined (trees : List FunctionTree) : Prop :=
  FunctionTree.All (fun t => ∀ j ∈ Statement.jumpsOf t.body, Surroundings.functionBody.Grants j) trees

/-- A part of a program with no functions but confined ones, and no jumps but granted ones. -/
structure Orderly (s : Surroundings) (trees : List FunctionTree) (jumps : List Jump) : Prop where
  trees : Confined trees
  jumps : ∀ j ∈ jumps, s.Grants j

/-- Whether a statement is orderly, behind whatever labels. -/
def Statement.Orderly (s : Surroundings) (t : Statement) : Prop :=
  ∀ labels, PageScript.Orderly s t.trees (t.jumps labels)

/-- Whether a form of statement is orderly, behind whatever labels. -/
def StatementForm.Orderly (s : Surroundings) (form : StatementForm) : Prop :=
  ∀ labels, PageScript.Orderly s form.trees (form.jumps labels)

namespace Orderly

variable {s : Surroundings} {ts us : List FunctionTree} {js ks : List Jump}

theorem append (h : Orderly s ts js) (h' : Orderly s us ks) : Orderly s (ts ++ us) (js ++ ks) where
  trees := h.trees.append h'.trees
  jumps j hj := (List.mem_append.1 hj).elim (h.jumps j) (h'.jumps j)

/-- What is evaluated beside a part adds no jumps. -/
theorem beside (h : Orderly s ts js) (hu : Confined us) : Orderly s (us ++ ts) js :=
  ⟨hu.append h.trees, h.jumps⟩

theorem plain (h : Confined ts) : Orderly s ts [] := ⟨h, nofun⟩

theorem statements {body : List Statement} (h : ∀ t ∈ body, t.Orderly s) :
    Orderly s (Statement.treesOf body) (Statement.jumpsOf body) := by
  induction body with
  | nil => exact .plain .nil
  | cons t rest ih =>
    rw [Statement.treesOf, Statement.jumpsOf]
    exact (h t (.head _) []).append (ih fun u hu => h u (.tail _ hu))

theorem loop {labels : List String} (h : Orderly s.loopBody ts js) :
    Orderly s ts (js.filter fun j => !j.endsRound labels) := by
  refine ⟨h.trees, fun j hj => ?_⟩
  obtain ⟨hmem, hpass⟩ := List.mem_filter.1 hj
  have hgrant := h.jumps j hmem
  match j with
  | .returned => exact hgrant
  | .broken (some _) => exact hgrant
  | .continued (some _) => trivial
  | .broken none => cases hpass
  | .continued none => cases hpass

theorem switch {labels : List String} (h : Orderly s.switchBody ts js) :
    Orderly s ts (js.filter fun j => !j.endsSwitch labels) := by
  refine ⟨h.trees, fun j hj => ?_⟩
  obtain ⟨hmem, hpass⟩ := List.mem_filter.1 hj
  have hgrant := h.jumps j hmem
  match j with
  | .returned => exact hgrant
  | .broken (some _) => exact hgrant
  | .continued none => exact hgrant
  | .continued (some _) => trivial
  | .broken none => cases hpass

theorem labeled {label : String} {labels : List String} (h : Orderly (s.labeled label) ts js) :
    Orderly s ts (js.filter fun j => !j.endsLabeled (label :: labels)) := by
  refine ⟨h.trees, fun j hj => ?_⟩
  obtain ⟨hmem, hpass⟩ := List.mem_filter.1 hj
  have hgrant := h.jumps j hmem
  match j with
  | .returned => exact hgrant
  | .broken none => exact hgrant
  | .continued none => exact hgrant
  | .continued (some _) => trivial
  | .broken (some l) =>
    rcases List.mem_cons.1 hgrant with rfl | hgrant
    · rw [Jump.endsLabeled, List.contains_cons, beq_self_eq_true, Bool.true_or] at hpass
      cases hpass
    · exact hgrant

end Orderly

theorem Orderly.clauses {s : Surroundings} {clauses : List SwitchClause}
    (h : ∀ test body, .mk test body ∈ clauses →
      (∀ e, test = some e → Confined e.trees) ∧ ∀ t ∈ body, Statement.Orderly s t) :
    Orderly s (SwitchClause.treesOf clauses) (SwitchClause.jumpsOf clauses) := by
  induction clauses with
  | nil => exact .plain .nil
  | cons c rest ih =>
    obtain ⟨test, body⟩ := c
    obtain ⟨htest, hbody⟩ := h test body (.head _)
    rw [SwitchClause.treesOf, SwitchClause.jumpsOf, List.append_assoc]
    exact ((Orderly.statements hbody).append (ih fun test body hc => h test body (.tail _ hc))).beside
      (.treesOfOption htest)

/-! ## The grammar -/

/-- The functions of a tree are confined, and its statements are orderly. -/
def Hereditary.orderly : Hereditary where
  text _ := True
  expression e := Confined e.trees
  function f := Confined f.trees
  statement s t := t.Orderly s
  form s f := f.Orderly s
  ends _ _ := trivial
  literal _ := by rw [Expression.trees]; exact .nil
  identifier _ _ := by rw [Expression.trees]; exact .nil
  this := by rw [Expression.trees]; exact .nil
  array h := by rw [Expression.trees]; exact .treesOfElements h
  object h := by rw [Expression.trees]; exact .treesOfProperties h
  functionLiteral h := by rw [Expression.trees]; exact h
  unary _ _ h := by rw [Expression.trees]; exact h
  operation op _ _ hl hr := by
    cases op <;> rw [Infix.apply, Expression.trees] <;> exact hl.append hr
  update _ _ _ h _ := by rw [Expression.trees]; exact h
  assign _ h _ hvalue := by rw [Expression.trees]; exact h.append hvalue
  conditional htest hyes hno := by rw [Expression.trees]; exact (htest.append hyes).append hno
  call h hargs := by rw [Expression.trees]; exact h.append (.treesOf hargs)
  construct h hargs := by rw [Expression.trees]; exact h.append (.treesOf hargs)
  member h _ _ := by rw [Expression.trees]; exact h
  index h hkey := by rw [Expression.trees]; exact h.append hkey
  sequence h := by rw [Expression.trees]; exact .treesOf h
  functionTree hbody := by
    rw [FunctionTree.trees]
    intro t ht
    rcases List.mem_cons.1 ht with rfl | ht
    · exact (Orderly.statements hbody).jumps
    · exact (Orderly.statements hbody).trees t ht
  tree {_ _ _ t _} _ _ h labels := by
    obtain ⟨line, form⟩ := t
    rw [Statement.trees, Statement.jumps]
    exact h labels
  empty labels := by rw [StatementForm.trees, StatementForm.jumps]; exact .plain .nil
  evaluate h labels := by rw [StatementForm.trees, StatementForm.jumps]; exact .plain h
  block h labels := by rw [StatementForm.trees, StatementForm.jumps]; exact .statements h
  declare h labels := by rw [StatementForm.trees, StatementForm.jumps]; exact .plain (.treesOfDeclarators h)
  ifThen htest hyes labels := by rw [StatementForm.trees, StatementForm.jumps]; exact (hyes []).beside htest
  ifElse htest hyes hno labels := by
    rw [StatementForm.trees, StatementForm.jumps, List.append_assoc]
    exact ((hyes []).append (hno [])).beside htest
  whileLoop htest hbody labels := by
    rw [StatementForm.trees, StatementForm.jumps]
    exact (hbody []).loop.beside htest
  doLoop hbody htest labels := by
    rw [StatementForm.trees, StatementForm.jumps]
    exact ⟨(hbody []).trees.append htest, (hbody []).loop.jumps⟩
  forLoop hdeclare hstart htest hupdate hbody labels := by
    rw [StatementForm.trees, StatementForm.jumps]
    exact (hbody []).loop.beside
      (((FunctionTree.All.forStart hdeclare hstart).append (.treesOfOption htest)).append (.treesOfOption hupdate))
  forVariable hd hobject hbody labels := by
    rw [StatementForm.trees, StatementForm.jumps]
    exact (hbody []).loop.beside ((FunctionTree.All.declarator hd).append hobject)
  forTarget h hobject hbody labels := by
    rw [StatementForm.trees, StatementForm.jumps]
    exact (hbody []).loop.beside (h.append hobject)
  returnValue hs hvalue labels := by
    rw [StatementForm.trees, StatementForm.jumps]
    exact ⟨.treesOfOption hvalue, fun j hj => by rw [List.mem_singleton.1 hj]; exact hs⟩
  breakTo {s label} hlabel hnone labels := by
    rw [StatementForm.trees, StatementForm.jumps]
    refine ⟨.nil, fun j hj => ?_⟩
    rw [List.mem_singleton.1 hj]
    cases label with
    | none => exact hnone rfl
    | some name => exact hlabel name rfl
  continueTo {s label} hs labels := by
    rw [StatementForm.trees, StatementForm.jumps]
    refine ⟨.nil, fun j hj => ?_⟩
    rw [List.mem_singleton.1 hj]
    cases label with
    | none => exact hs
    | some name => trivial
  throw h labels := by rw [StatementForm.trees, StatementForm.jumps]; exact .plain h
  tryCatch hbody hhandler labels := by
    rw [StatementForm.trees, StatementForm.jumps]
    exact (Orderly.statements hbody).append (.statements hhandler)
  tryFinally hbody hfinal labels := by
    rw [StatementForm.trees, StatementForm.jumps]
    exact (Orderly.statements hbody).append (.statements hfinal)
  tryCatchFinally hbody hhandler hfinal labels := by
    rw [StatementForm.trees, StatementForm.jumps]
    exact ((Orderly.statements hbody).append (.statements hhandler)).append (.statements hfinal)
  switch hvalue hclauses labels := by
    rw [StatementForm.trees, StatementForm.jumps]
    exact (Orderly.clauses hclauses).switch.beside hvalue
  labeled {s name body} hbody labels := by
    rw [StatementForm.trees, StatementForm.jumps]
    exact (hbody (name :: labels)).labeled
  withObject hobject hbody labels := by
    rw [StatementForm.trees, StatementForm.jumps]
    exact (hbody []).beside hobject
  functionStatement h labels := by rw [StatementForm.trees, StatementForm.jumps]; exact .plain h

/-! ## Programs -/

/-- The functions of a program are confined, and no jump leaves it but `continue` with a label. -/
theorem Program.parse_orderly {source : String} {body : List Statement}
    (h : Program.parse source = .ok body) :
    Orderly .program (Statement.treesOf body) (Statement.jumpsOf body) :=
  .statements (Hereditary.orderly.of_parse trivial h)

end PageScript
