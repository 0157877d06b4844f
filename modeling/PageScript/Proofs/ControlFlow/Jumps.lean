import PageScript.Evaluation.Statements

/-! # Jumps of a statement

`Statement.jumps` lists the `return`, `break` and `continue` that may leave a statement, as far as its
text goes: each of those that stand in it outside nested functions, except for what a loop, a `switch`
or a label of its own takes up.  `Statement.trees` lists the functions that stand in a statement, at any
depth.
-/

set_option autoImplicit false

namespace PageScript

/-! ## Jumps -/

/-- A way for control to leave a statement other than by its end or by an exception. -/
inductive Jump where
  | returned
  | broken (label : Option String)
  | continued (label : Option String)
  deriving DecidableEq

/-- The jump of a completion, if it is one. -/
def Abrupt.jump? : Abrupt → Option Jump
  | .returned _ => some .returned
  | .broken label => some (.broken label)
  | .continued label => some (.continued label)
  | .thrown _ | .stopped => none

namespace Jump

/-- Whether a loop behind some labels takes a jump of its body up. -/
def endsRound (labels : List String) : Jump → Bool
  | .broken label | .continued label => targets labels label
  | .returned => false

/-- Whether a `switch` statement behind some labels takes a jump of its clauses up. -/
def endsSwitch (labels : List String) : Jump → Bool
  | .broken label => targets labels label
  | _ => false

/-- Whether a statement behind some labels takes a jump up for them. -/
def endsLabeled (labels : List String) : Jump → Bool
  | .broken (some label) => labels.contains label
  | _ => false

end Jump

mutual

/-- The jumps that may leave a statement behind some labels. -/
@[simp] def Statement.jumps (labels : List String) : Statement → List Jump
  | .mk _ form => form.jumps labels

/-- The jumps that may leave a form of statement behind some labels. -/
@[simp] def StatementForm.jumps (labels : List String) : StatementForm → List Jump
  | .block body => Statement.jumpsOf body
  | .ifThen _ yes => yes.jumps []
  | .ifElse _ yes no => yes.jumps [] ++ no.jumps []
  | .whileLoop _ body => (body.jumps []).filter fun j => !j.endsRound labels
  | .doLoop body _ => (body.jumps []).filter fun j => !j.endsRound labels
  | .forLoop _ _ _ body => (body.jumps []).filter fun j => !j.endsRound labels
  | .forVariable _ _ body => (body.jumps []).filter fun j => !j.endsRound labels
  | .forTarget _ _ body => (body.jumps []).filter fun j => !j.endsRound labels
  | .returnValue _ => [.returned]
  | .breakTo label => [.broken label]
  | .continueTo label => [.continued label]
  | .tryCatch body _ handler => Statement.jumpsOf body ++ Statement.jumpsOf handler
  | .tryFinally body final => Statement.jumpsOf body ++ Statement.jumpsOf final
  | .tryCatchFinally body _ handler final =>
    Statement.jumpsOf body ++ Statement.jumpsOf handler ++ Statement.jumpsOf final
  | .switch _ clauses => (SwitchClause.jumpsOf clauses).filter fun j => !j.endsSwitch labels
  | .labeled label body =>
    (body.jumps (label :: labels)).filter fun j => !j.endsLabeled (label :: labels)
  | .withObject _ body => body.jumps []
  | .empty | .expression _ | .declare _ | .throw _ | .function _ => []

/-- The jumps that may leave a list of statements. -/
@[simp] def Statement.jumpsOf : List Statement → List Jump
  | [] => []
  | s :: rest => s.jumps [] ++ Statement.jumpsOf rest

/-- The jumps that may leave the statements of clauses. -/
@[simp] def SwitchClause.jumpsOf : List SwitchClause → List Jump
  | [] => []
  | .mk _ body :: rest => Statement.jumpsOf body ++ SwitchClause.jumpsOf rest

end

namespace Statement

theorem jumps_subset_jumpsOf {s : Statement} {body : List Statement} (hs : s ∈ body) :
    s.jumps [] ⊆ jumpsOf body := by
  induction body with
  | nil => cases hs
  | cons t rest ih =>
    rw [jumpsOf]
    rcases List.mem_cons.1 hs with rfl | hs
    · exact List.subset_append_left ..
    · exact List.subset_append_of_subset_right _ (ih hs)

theorem jumpsOf_append (xs ys : List Statement) :
    jumpsOf (xs ++ ys) = jumpsOf xs ++ jumpsOf ys := by
  induction xs with
  | nil => rfl
  | cons s xs ih => rw [List.cons_append, jumpsOf, jumpsOf, ih, List.append_assoc]

theorem jumpsOf_suffix {xs ys : List Statement} (h : xs <:+ ys) : jumpsOf xs ⊆ jumpsOf ys := by
  obtain ⟨front, rfl⟩ := h
  rw [jumpsOf_append]
  exact List.subset_append_right ..

end Statement

theorem Script.clauseStatements_suffix {xs ys : List SwitchClause} (h : xs <:+ ys) :
    Script.clauseStatements xs <:+ Script.clauseStatements ys := by
  obtain ⟨front, rfl⟩ := h
  induction front with
  | nil => exact List.suffix_refl _
  | cons c front ih =>
    obtain ⟨test, body⟩ := c
    exact ih.trans (List.suffix_append ..)

theorem SwitchClause.jumpsOf_eq (clauses : List SwitchClause) :
    SwitchClause.jumpsOf clauses = Statement.jumpsOf (Script.clauseStatements clauses) := by
  induction clauses with
  | nil => rfl
  | cons c rest ih =>
    obtain ⟨test, body⟩ := c
    rw [jumpsOf, Script.clauseStatements, Statement.jumpsOf_append, ih]

/-! ## Functions -/

mutual

/-- The functions in an expression. -/
@[simp] def Expression.trees : Expression → List FunctionTree
  | .literal _ | .identifier _ | .this => []
  | .array elements => Expression.treesOfElements elements
  | .object properties => Expression.treesOfProperties properties
  | .function f => f.trees
  | .unary _ e => e.trees
  | .binary _ l r => l.trees ++ r.trees
  | .logical _ l r => l.trees ++ r.trees
  | .update _ _ e => e.trees
  | .assign _ target value => target.trees ++ value.trees
  | .conditional test yes no => test.trees ++ yes.trees ++ no.trees
  | .call callee args => callee.trees ++ Expression.treesOf args
  | .construct callee args => callee.trees ++ Expression.treesOf args
  | .member object _ => object.trees
  | .index object key => object.trees ++ key.trees
  | .sequence parts => Expression.treesOf parts

/-- The functions in a list of expressions. -/
@[simp] def Expression.treesOf : List Expression → List FunctionTree
  | [] => []
  | e :: rest => e.trees ++ Expression.treesOf rest

/-- The functions in an optional expression. -/
@[simp] def Expression.treesOfOption : Option Expression → List FunctionTree
  | none => []
  | some e => e.trees

/-- The functions in the elements of an array literal. -/
@[simp] def Expression.treesOfElements : List (Option Expression) → List FunctionTree
  | [] => []
  | e :: rest => Expression.treesOfOption e ++ Expression.treesOfElements rest

/-- The functions in the properties of an object literal. -/
@[simp] def Expression.treesOfProperties : List (PropertyKey × Expression) → List FunctionTree
  | [] => []
  | (_, e) :: rest => e.trees ++ Expression.treesOfProperties rest

/-- The functions in a declarator. -/
@[simp] def Declarator.trees : Declarator → List FunctionTree
  | .mk _ initial => Expression.treesOfOption initial

/-- The functions in a list of declarators. -/
@[simp] def Declarator.treesOf : List Declarator → List FunctionTree
  | [] => []
  | d :: rest => d.trees ++ Declarator.treesOf rest

/-- The functions in the start of a `for` statement. -/
@[simp] def ForStart.trees : ForStart → List FunctionTree
  | .nothing => []
  | .declare ds => Declarator.treesOf ds
  | .expression e => e.trees

/-- A function and the functions in it. -/
@[simp] def FunctionTree.trees : FunctionTree → List FunctionTree
  | .mk name parameters body line => .mk name parameters body line :: Statement.treesOf body

/-- The functions in a statement. -/
@[simp] def Statement.trees : Statement → List FunctionTree
  | .mk _ form => form.trees

/-- The functions in a list of statements. -/
@[simp] def Statement.treesOf : List Statement → List FunctionTree
  | [] => []
  | s :: rest => s.trees ++ Statement.treesOf rest

/-- The functions in the clauses of a `switch` statement. -/
@[simp] def SwitchClause.treesOf : List SwitchClause → List FunctionTree
  | [] => []
  | .mk test body :: rest =>
    Expression.treesOfOption test ++ Statement.treesOf body ++ SwitchClause.treesOf rest

/-- The functions in a form of statement. -/
@[simp] def StatementForm.trees : StatementForm → List FunctionTree
  | .empty | .breakTo _ | .continueTo _ => []
  | .expression e => e.trees
  | .block body => Statement.treesOf body
  | .declare ds => Declarator.treesOf ds
  | .ifThen test yes => test.trees ++ yes.trees
  | .ifElse test yes no => test.trees ++ yes.trees ++ no.trees
  | .whileLoop test body => test.trees ++ body.trees
  | .doLoop body test => body.trees ++ test.trees
  | .forLoop start test update body =>
    start.trees ++ Expression.treesOfOption test ++ Expression.treesOfOption update ++ body.trees
  | .forVariable d object body => d.trees ++ object.trees ++ body.trees
  | .forTarget target object body => target.trees ++ object.trees ++ body.trees
  | .returnValue value => Expression.treesOfOption value
  | .throw value => value.trees
  | .tryCatch body _ handler => Statement.treesOf body ++ Statement.treesOf handler
  | .tryFinally body final => Statement.treesOf body ++ Statement.treesOf final
  | .tryCatchFinally body _ handler final =>
    Statement.treesOf body ++ Statement.treesOf handler ++ Statement.treesOf final
  | .switch value clauses => value.trees ++ SwitchClause.treesOf clauses
  | .labeled _ body => body.trees
  | .withObject object body => object.trees ++ body.trees
  | .function f => f.trees

end

theorem FunctionTree.treesOf_body_subset (f : FunctionTree) :
    Statement.treesOf f.body ⊆ f.trees := by
  cases f
  rw [trees]
  exact List.subset_cons_self ..

theorem Expression.trees_subset_treesOf {e : Expression} {es : List Expression} (he : e ∈ es) :
    e.trees ⊆ treesOf es := by
  induction es with
  | nil => cases he
  | cons f rest ih =>
    rw [treesOf]
    rcases List.mem_cons.1 he with rfl | he
    · exact List.subset_append_left ..
    · exact List.subset_append_of_subset_right _ (ih he)

theorem Expression.trees_subset_treesOfElements {e : Expression} {es : List (Option Expression)}
    (he : some e ∈ es) : e.trees ⊆ treesOfElements es := by
  induction es with
  | nil => cases he
  | cons f rest ih =>
    rw [treesOfElements]
    rcases List.mem_cons.1 he with rfl | he
    · exact List.subset_append_left ..
    · exact List.subset_append_of_subset_right _ (ih he)

theorem Expression.trees_subset_treesOfProperties {x : PropertyKey × Expression}
    {xs : List (PropertyKey × Expression)} (hx : x ∈ xs) : x.2.trees ⊆ treesOfProperties xs := by
  induction xs with
  | nil => cases hx
  | cons y rest ih =>
    rw [treesOfProperties]
    rcases List.mem_cons.1 hx with rfl | hx
    · exact List.subset_append_left ..
    · exact List.subset_append_of_subset_right _ (ih hx)

theorem Declarator.trees_subset_treesOf {d : Declarator} {ds : List Declarator} (hd : d ∈ ds) :
    d.trees ⊆ treesOf ds := by
  induction ds with
  | nil => cases hd
  | cons c rest ih =>
    rw [treesOf]
    rcases List.mem_cons.1 hd with rfl | hd
    · exact List.subset_append_left ..
    · exact List.subset_append_of_subset_right _ (ih hd)

namespace Statement

theorem trees_subset_treesOf {s : Statement} {body : List Statement} (hs : s ∈ body) :
    s.trees ⊆ treesOf body := by
  induction body with
  | nil => cases hs
  | cons t rest ih =>
    rw [treesOf]
    rcases List.mem_cons.1 hs with rfl | hs
    · exact List.subset_append_left ..
    · exact List.subset_append_of_subset_right _ (ih hs)

theorem treesOf_append (xs ys : List Statement) :
    treesOf (xs ++ ys) = treesOf xs ++ treesOf ys := by
  induction xs with
  | nil => rfl
  | cons s xs ih => rw [List.cons_append, treesOf, treesOf, ih, List.append_assoc]

theorem treesOf_suffix {xs ys : List Statement} (h : xs <:+ ys) : treesOf xs ⊆ treesOf ys := by
  obtain ⟨front, rfl⟩ := h
  rw [treesOf_append]
  exact List.subset_append_right ..

end Statement

theorem SwitchClause.treesOf_clauseStatements_subset (clauses : List SwitchClause) :
    Statement.treesOf (Script.clauseStatements clauses) ⊆ SwitchClause.treesOf clauses := by
  induction clauses with
  | nil => exact List.Subset.refl _
  | cons c rest ih =>
    obtain ⟨test, body⟩ := c
    rw [treesOf, Script.clauseStatements, Statement.treesOf_append, List.append_assoc]
    exact List.subset_append_of_subset_right _ (List.append_subset.2
      ⟨List.subset_append_left .., List.subset_append_of_subset_right _ ih⟩)

mutual

theorem Statement.trees_of_mem_functions {f : FunctionTree} (s : Statement)
    (hf : f ∈ s.functions) : f.trees ⊆ s.trees := by
  obtain ⟨_, form⟩ := s
  rw [Statement.functions] at hf
  rw [Statement.trees]
  exact StatementForm.trees_of_mem_functions form hf

theorem StatementForm.trees_of_mem_functions {f : FunctionTree} (form : StatementForm)
    (hf : f ∈ form.functions) : f.trees ⊆ form.trees := by
  cases form <;> simp only [StatementForm.functions, StatementForm.trees, List.mem_append,
    List.mem_singleton, List.not_mem_nil] at hf ⊢
  case function g => rw [hf]; exact List.Subset.refl _
  case block body => exact Statement.trees_of_mem_functionsOf body hf
  case ifThen test yes =>
    exact List.subset_append_of_subset_right _ (Statement.trees_of_mem_functions yes hf)
  case ifElse test yes no =>
    rcases hf with hf | hf
    · exact List.subset_append_of_subset_left _
        (List.subset_append_of_subset_right _ (Statement.trees_of_mem_functions yes hf))
    · exact List.subset_append_of_subset_right _ (Statement.trees_of_mem_functions no hf)
  case whileLoop test body =>
    exact List.subset_append_of_subset_right _ (Statement.trees_of_mem_functions body hf)
  case doLoop body test =>
    exact List.subset_append_of_subset_left _ (Statement.trees_of_mem_functions body hf)
  case labeled label body => exact Statement.trees_of_mem_functions body hf
  case withObject object body =>
    exact List.subset_append_of_subset_right _ (Statement.trees_of_mem_functions body hf)
  case forLoop start test update body =>
    exact List.subset_append_of_subset_right _ (Statement.trees_of_mem_functions body hf)
  case forVariable d object body =>
    exact List.subset_append_of_subset_right _ (Statement.trees_of_mem_functions body hf)
  case forTarget target object body =>
    exact List.subset_append_of_subset_right _ (Statement.trees_of_mem_functions body hf)
  case tryCatch body parameter handler =>
    rcases hf with hf | hf
    · exact List.subset_append_of_subset_left _ (Statement.trees_of_mem_functionsOf body hf)
    · exact List.subset_append_of_subset_right _ (Statement.trees_of_mem_functionsOf handler hf)
  case tryFinally body final =>
    rcases hf with hf | hf
    · exact List.subset_append_of_subset_left _ (Statement.trees_of_mem_functionsOf body hf)
    · exact List.subset_append_of_subset_right _ (Statement.trees_of_mem_functionsOf final hf)
  case tryCatchFinally body parameter handler final =>
    rcases hf with (hf | hf) | hf
    · exact List.subset_append_of_subset_left _
        (List.subset_append_of_subset_left _ (Statement.trees_of_mem_functionsOf body hf))
    · exact List.subset_append_of_subset_left _
        (List.subset_append_of_subset_right _ (Statement.trees_of_mem_functionsOf handler hf))
    · exact List.subset_append_of_subset_right _ (Statement.trees_of_mem_functionsOf final hf)
  case switch value clauses =>
    exact List.subset_append_of_subset_right _ (SwitchClause.trees_of_mem_functionsOf clauses hf)

theorem Statement.trees_of_mem_functionsOf {f : FunctionTree} (body : List Statement)
    (hf : f ∈ Statement.functionsOf body) : f.trees ⊆ Statement.treesOf body := by
  cases body with
  | nil => cases hf
  | cons s rest =>
    rw [Statement.functionsOf, List.mem_append] at hf
    rw [Statement.treesOf]
    rcases hf with hf | hf
    · exact List.subset_append_of_subset_left _ (Statement.trees_of_mem_functions s hf)
    · exact List.subset_append_of_subset_right _ (Statement.trees_of_mem_functionsOf rest hf)

theorem SwitchClause.trees_of_mem_functionsOf {f : FunctionTree} (clauses : List SwitchClause)
    (hf : f ∈ SwitchClause.functionsOf clauses) : f.trees ⊆ SwitchClause.treesOf clauses := by
  cases clauses with
  | nil => cases hf
  | cons c rest =>
    obtain ⟨test, body⟩ := c
    rw [SwitchClause.functionsOf, List.mem_append] at hf
    rw [SwitchClause.treesOf]
    rcases hf with hf | hf
    · exact List.subset_append_of_subset_left _
        (List.subset_append_of_subset_right _ (Statement.trees_of_mem_functionsOf body hf))
    · exact List.subset_append_of_subset_right _ (SwitchClause.trees_of_mem_functionsOf rest hf)

end

/-! ## Properties of all functions -/

/-- Whether all functions of a list have a property. -/
def FunctionTree.All (P : FunctionTree → Prop) (trees : List FunctionTree) : Prop := ∀ f ∈ trees, P f

namespace FunctionTree.All

variable {P : FunctionTree → Prop}

theorem nil : All P [] := nofun

theorem append {ts us : List FunctionTree} (ht : All P ts) (hu : All P us) : All P (ts ++ us) := by
  intro f hf
  rcases List.mem_append.1 hf with hf | hf
  · exact ht f hf
  · exact hu f hf

theorem treesOf {es : List Expression} (h : ∀ e ∈ es, All P e.trees) :
    All P (Expression.treesOf es) := by
  induction es with
  | nil => exact .nil
  | cons e rest ih =>
    rw [Expression.treesOf]
    exact (h e (.head _)).append (ih fun f hf => h f (.tail _ hf))

theorem treesOfOption {x : Option Expression} (h : ∀ e, x = some e → All P e.trees) :
    All P (Expression.treesOfOption x) := by
  cases x with
  | none => exact .nil
  | some e => exact h e rfl

theorem treesOfElements {es : List (Option Expression)} (h : ∀ e, some e ∈ es → All P e.trees) :
    All P (Expression.treesOfElements es) := by
  induction es with
  | nil => exact .nil
  | cons e rest ih =>
    rw [Expression.treesOfElements]
    refine (treesOfOption ?_).append (ih fun f hf => h f (.tail _ hf))
    rintro e rfl
    exact h e (.head _)

theorem treesOfProperties {xs : List (PropertyKey × Expression)} (h : ∀ x ∈ xs, All P x.2.trees) :
    All P (Expression.treesOfProperties xs) := by
  induction xs with
  | nil => exact .nil
  | cons x rest ih =>
    obtain ⟨key, e⟩ := x
    rw [Expression.treesOfProperties]
    exact (h (key, e) (.head _)).append (ih fun y hy => h y (.tail _ hy))

theorem declarator {d : Declarator} (h : ∀ name e, d = .mk name (some e) → All P e.trees) :
    All P d.trees := by
  obtain ⟨name, initial⟩ := d
  rw [Declarator.trees]
  refine treesOfOption ?_
  rintro e rfl
  exact h name e rfl

theorem treesOfDeclarators {ds : List Declarator}
    (h : ∀ name e, .mk name (some e) ∈ ds → All P e.trees) : All P (Declarator.treesOf ds) := by
  induction ds with
  | nil => exact .nil
  | cons d rest ih =>
    rw [Declarator.treesOf]
    refine (declarator ?_).append (ih fun name e he => h name e (.tail _ he))
    rintro name e rfl
    exact h name e (.head _)

theorem forStart {start : ForStart}
    (hdeclare : ∀ ds, start = .declare ds → ∀ name e, .mk name (some e) ∈ ds → All P e.trees)
    (hstart : ∀ e, start = .expression e → All P e.trees) : All P start.trees := by
  cases start with
  | nothing => rw [ForStart.trees]; exact .nil
  | declare ds => rw [ForStart.trees]; exact treesOfDeclarators (hdeclare ds rfl)
  | expression e => rw [ForStart.trees]; exact hstart e rfl

end FunctionTree.All

end PageScript
