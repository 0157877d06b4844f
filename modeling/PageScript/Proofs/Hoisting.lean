import Mathlib.Data.List.Basic
import PageScript.Evaluation.Statements

/-! # What a list of statements declares

The statements of a list outside nested functions are its substatements, however deep they stand in others.
The variables and functions that are declared before the list runs are those that its substatements declare.
-/

set_option autoImplicit false

namespace PageScript

/-! ## First occurrences -/

section

variable {name : String} {seen all : List String}

theorem mem_firstOccurrences : name ∈ firstOccurrences seen all ↔ name ∉ seen ∧ name ∈ all := by
  induction all generalizing seen with
  | nil => simp [firstOccurrences]
  | cons s rest ih =>
    unfold firstOccurrences
    by_cases hs : s = name
    · subst hs
      by_cases hseen : s ∈ seen <;> simp [hseen, ih]
    · have hne : name ≠ s := fun h => hs h.symm
      split <;> simp [ih, hne]

theorem firstOccurrences_ordered (seen all : List String) :
    (firstOccurrences seen all).Pairwise fun s t => all.idxOf s < all.idxOf t := by
  induction all generalizing seen with
  | nil => exact .nil
  | cons u rest ih =>
    -- A name that was seen does not come again, so that all others stand one place further behind.
    have hlater : ∀ {seen : List String}, u ∈ seen → ∀ s ∈ firstOccurrences seen rest,
        (u :: rest).idxOf s = rest.idxOf s + 1 := by
      intro seen hseen s hs
      refine List.idxOf_cons_ne _ ?_
      rintro rfl
      exact (mem_firstOccurrences.1 hs).1 hseen
    have hrest : ∀ {seen : List String}, u ∈ seen →
        (firstOccurrences seen rest).Pairwise fun s t => (u :: rest).idxOf s < (u :: rest).idxOf t := by
      intro seen hseen
      refine (ih seen).imp_of_mem ?_
      intro s t hs ht hlt
      rw [hlater hseen s hs, hlater hseen t ht]
      omega
    unfold firstOccurrences
    split
    · rename_i hseen
      exact hrest hseen
    · refine List.pairwise_cons.2 ⟨fun s hs => ?_, hrest (.head _)⟩
      rw [hlater (.head _) s hs, List.idxOf_cons_self]
      omega

theorem nodup_firstOccurrences (seen all : List String) : (firstOccurrences seen all).Nodup := by
  refine (firstOccurrences_ordered seen all).imp ?_
  rintro s t hlt rfl
  exact absurd hlt (Nat.lt_irrefl _)

end

/-! ## Parts -/

mutual

/-- A statement and the statements in it, outside nested functions, in source order. -/
def Statement.substatements : Statement → List Statement
  | .mk line form => .mk line form :: form.substatements

/-- The statements in a form of statement. -/
def StatementForm.substatements : StatementForm → List Statement
  | .block body => Statement.substatementsOf body
  | .ifThen _ yes => yes.substatements
  | .ifElse _ yes no => yes.substatements ++ no.substatements
  | .whileLoop _ body => body.substatements
  | .doLoop body _ => body.substatements
  | .labeled _ body => body.substatements
  | .withObject _ body => body.substatements
  | .forLoop _ _ _ body => body.substatements
  | .forVariable _ _ body => body.substatements
  | .forTarget _ _ body => body.substatements
  | .tryCatch body _ handler => Statement.substatementsOf body ++ Statement.substatementsOf handler
  | .tryFinally body final => Statement.substatementsOf body ++ Statement.substatementsOf final
  | .tryCatchFinally body _ handler final =>
    Statement.substatementsOf body ++ Statement.substatementsOf handler ++ Statement.substatementsOf final
  | .switch _ clauses => SwitchClause.substatementsOf clauses
  | _ => []

/-- The statements of a list and those in them. -/
def Statement.substatementsOf : List Statement → List Statement
  | [] => []
  | s :: rest => s.substatements ++ Statement.substatementsOf rest

/-- The statements of the clauses of a `switch` and those in them. -/
def SwitchClause.substatementsOf : List SwitchClause → List Statement
  | [] => []
  | .mk _ body :: rest => Statement.substatementsOf body ++ SwitchClause.substatementsOf rest

end

/-- The declarators of a statement itself: of a `var` statement or of the head of a `for` statement. -/
def StatementForm.declarators : StatementForm → List Declarator
  | .declare ds => ds
  | .forLoop (.declare ds) _ _ _ => ds
  | .forVariable d _ _ => [d]
  | _ => []

/-- The function that a statement declares. -/
def StatementForm.function? : StatementForm → Option FunctionTree
  | .function f => some f
  | _ => none

namespace Statement

/-- The names that a statement declares itself. -/
def declares (s : Statement) : List String := s.form.declarators.map Declarator.name

variable {s t : Statement} {body : List Statement}

theorem mem_substatements_self (s : Statement) : s ∈ s.substatements := by
  obtain ⟨line, form⟩ := s
  exact .head _

theorem substatements_subset_substatementsOf (hs : s ∈ body) : s.substatements ⊆ substatementsOf body := by
  induction body with
  | nil => cases hs
  | cons u rest ih =>
    rw [substatementsOf]
    rcases List.mem_cons.1 hs with rfl | hs
    · exact List.subset_append_left ..
    · exact List.subset_append_of_subset_right _ (ih hs)

end Statement

/-! ## Names and functions of substatements -/

theorem ForStart.names_eq (start : ForStart) (test update : Option Expression) (body : Statement) :
    start.names = (StatementForm.forLoop start test update body).declarators.map Declarator.name := by
  cases start <;> rfl

mutual

theorem Statement.names_eq (s : Statement) : s.names = s.substatements.flatMap Statement.declares := by
  obtain ⟨line, form⟩ := s
  rw [Statement.names, Statement.substatements, List.flatMap_cons]
  exact form.names_eq

/-- A form of statement names what it declares itself, and then what is declared in it. -/
theorem StatementForm.names_eq (form : StatementForm) :
    form.names = form.declarators.map Declarator.name ++ form.substatements.flatMap Statement.declares := by
  cases form with
  | block body => exact Statement.namesOf_eq body
  | declare ds => simp [StatementForm.names, StatementForm.substatements, StatementForm.declarators]
  | ifThen test yes => exact yes.names_eq
  | ifElse test yes no =>
    simp [StatementForm.names, StatementForm.substatements, StatementForm.declarators, yes.names_eq, no.names_eq]
  | whileLoop test body => exact body.names_eq
  | doLoop body test => exact body.names_eq
  | forLoop start test update body =>
    rw [StatementForm.names, StatementForm.substatements, body.names_eq, start.names_eq test update body]
  | forVariable d object body =>
    simp [StatementForm.names, StatementForm.substatements, StatementForm.declarators, body.names_eq]
  | forTarget target object body => exact body.names_eq
  | tryCatch body parameter handler =>
    simp [StatementForm.names, StatementForm.substatements, StatementForm.declarators, Statement.namesOf_eq body,
      Statement.namesOf_eq handler]
  | tryFinally body final =>
    simp [StatementForm.names, StatementForm.substatements, StatementForm.declarators, Statement.namesOf_eq body,
      Statement.namesOf_eq final]
  | tryCatchFinally body parameter handler final =>
    simp [StatementForm.names, StatementForm.substatements, StatementForm.declarators, Statement.namesOf_eq body,
      Statement.namesOf_eq handler, Statement.namesOf_eq final]
  | switch value clauses => exact SwitchClause.namesOf_eq clauses
  | labeled label body => exact body.names_eq
  | withObject object body => exact body.names_eq
  | _ => rfl

theorem Statement.namesOf_eq (body : List Statement) :
    Statement.namesOf body = (Statement.substatementsOf body).flatMap Statement.declares := by
  cases body with
  | nil => rfl
  | cons s rest =>
    rw [Statement.namesOf, Statement.substatementsOf, List.flatMap_append, s.names_eq, Statement.namesOf_eq rest]

theorem SwitchClause.namesOf_eq (clauses : List SwitchClause) :
    SwitchClause.namesOf clauses = (SwitchClause.substatementsOf clauses).flatMap Statement.declares := by
  cases clauses with
  | nil => rfl
  | cons clause rest =>
    obtain ⟨test, body⟩ := clause
    rw [SwitchClause.namesOf, SwitchClause.substatementsOf, List.flatMap_append, Statement.namesOf_eq body,
      SwitchClause.namesOf_eq rest]

end

mutual

theorem Statement.functions_eq (s : Statement) :
    s.functions = s.substatements.filterMap fun s => s.form.function? := by
  obtain ⟨line, form⟩ := s
  rw [Statement.functions, Statement.substatements, form.functions_eq, List.filterMap_cons]
  cases h : form.function? <;> simp [Statement.form, h]

/-- A form of statement that declares a function has no statements in it. -/
theorem StatementForm.functions_eq (form : StatementForm) :
    form.functions = form.function?.toList ++ form.substatements.filterMap fun s => s.form.function? := by
  cases form with
  | block body => exact Statement.functionsOf_eq body
  | ifThen test yes => exact yes.functions_eq
  | ifElse test yes no =>
    simp [StatementForm.functions, StatementForm.substatements, StatementForm.function?, yes.functions_eq,
      no.functions_eq]
  | whileLoop test body => exact body.functions_eq
  | doLoop body test => exact body.functions_eq
  | forLoop start test update body => exact body.functions_eq
  | forVariable d object body => exact body.functions_eq
  | forTarget target object body => exact body.functions_eq
  | tryCatch body parameter handler =>
    simp [StatementForm.functions, StatementForm.substatements, StatementForm.function?,
      Statement.functionsOf_eq body, Statement.functionsOf_eq handler]
  | tryFinally body final =>
    simp [StatementForm.functions, StatementForm.substatements, StatementForm.function?,
      Statement.functionsOf_eq body, Statement.functionsOf_eq final]
  | tryCatchFinally body parameter handler final =>
    simp [StatementForm.functions, StatementForm.substatements, StatementForm.function?,
      Statement.functionsOf_eq body, Statement.functionsOf_eq handler, Statement.functionsOf_eq final]
  | switch value clauses => exact SwitchClause.functionsOf_eq clauses
  | labeled label body => exact body.functions_eq
  | withObject object body => exact body.functions_eq
  | _ => rfl

theorem Statement.functionsOf_eq (body : List Statement) :
    Statement.functionsOf body = (Statement.substatementsOf body).filterMap fun s => s.form.function? := by
  cases body with
  | nil => rfl
  | cons s rest =>
    rw [Statement.functionsOf, Statement.substatementsOf, List.filterMap_append, s.functions_eq,
      Statement.functionsOf_eq rest]

theorem SwitchClause.functionsOf_eq (clauses : List SwitchClause) :
    SwitchClause.functionsOf clauses
      = (SwitchClause.substatementsOf clauses).filterMap fun s => s.form.function? := by
  cases clauses with
  | nil => rfl
  | cons clause rest =>
    obtain ⟨test, body⟩ := clause
    rw [SwitchClause.functionsOf, SwitchClause.substatementsOf, List.filterMap_append,
      Statement.functionsOf_eq body, SwitchClause.functionsOf_eq rest]

end

/-- The variables that a list declares before it runs are those that its substatements declare. -/
theorem mem_hoistedNames {name : String} {body : List Statement} :
    name ∈ hoistedNames body ↔ ∃ s ∈ Statement.substatementsOf body, name ∈ s.declares := by
  rw [hoistedNames, mem_firstOccurrences, Statement.namesOf_eq, List.mem_flatMap]
  exact and_iff_right List.not_mem_nil

/-! ## Substatements of substatements -/

mutual

theorem Statement.form_substatements_subset (s : Statement) {t : Statement} (ht : t ∈ s.substatements) :
    t.form.substatements ⊆ s.substatements := by
  obtain ⟨line, form⟩ := s
  rw [Statement.substatements] at ht ⊢
  rcases List.mem_cons.1 ht with rfl | ht
  · exact List.subset_cons_self ..
  · exact List.subset_cons_of_subset _ (form.form_substatements_subset ht)

/-- What stands in a statement stands in whatever that stands in. -/
theorem StatementForm.form_substatements_subset (form : StatementForm) {t : Statement}
    (ht : t ∈ form.substatements) :
    t.form.substatements ⊆ form.substatements := by
  cases form with
  | block body => exact Statement.form_substatementsOf_subset body ht
  | ifThen test yes => exact yes.form_substatements_subset ht
  | ifElse test yes no =>
    rcases List.mem_append.1 ht with ht | ht
    · exact List.subset_append_of_subset_left _ (yes.form_substatements_subset ht)
    · exact List.subset_append_of_subset_right _ (no.form_substatements_subset ht)
  | whileLoop test body => exact body.form_substatements_subset ht
  | doLoop body test => exact body.form_substatements_subset ht
  | forLoop start test update body => exact body.form_substatements_subset ht
  | forVariable d object body => exact body.form_substatements_subset ht
  | forTarget target object body => exact body.form_substatements_subset ht
  | tryCatch body parameter handler =>
    rcases List.mem_append.1 ht with ht | ht
    · exact List.subset_append_of_subset_left _ (Statement.form_substatementsOf_subset body ht)
    · exact List.subset_append_of_subset_right _ (Statement.form_substatementsOf_subset handler ht)
  | tryFinally body final =>
    rcases List.mem_append.1 ht with ht | ht
    · exact List.subset_append_of_subset_left _ (Statement.form_substatementsOf_subset body ht)
    · exact List.subset_append_of_subset_right _ (Statement.form_substatementsOf_subset final ht)
  | tryCatchFinally body parameter handler final =>
    rcases List.mem_append.1 ht with ht | ht
    · refine List.subset_append_of_subset_left _ ?_
      rcases List.mem_append.1 ht with ht | ht
      · exact List.subset_append_of_subset_left _ (Statement.form_substatementsOf_subset body ht)
      · exact List.subset_append_of_subset_right _ (Statement.form_substatementsOf_subset handler ht)
    · exact List.subset_append_of_subset_right _ (Statement.form_substatementsOf_subset final ht)
  | switch value clauses => exact SwitchClause.form_substatementsOf_subset clauses ht
  | labeled label body => exact body.form_substatements_subset ht
  | withObject object body => exact body.form_substatements_subset ht
  | _ => cases ht

theorem Statement.form_substatementsOf_subset (body : List Statement) {t : Statement}
    (ht : t ∈ Statement.substatementsOf body) : t.form.substatements ⊆ Statement.substatementsOf body := by
  cases body with
  | nil => cases ht
  | cons s rest =>
    rcases List.mem_append.1 ht with ht | ht
    · exact List.subset_append_of_subset_left _ (s.form_substatements_subset ht)
    · exact List.subset_append_of_subset_right _ (Statement.form_substatementsOf_subset rest ht)

theorem SwitchClause.form_substatementsOf_subset (clauses : List SwitchClause) {t : Statement}
    (ht : t ∈ SwitchClause.substatementsOf clauses) :
    t.form.substatements ⊆ SwitchClause.substatementsOf clauses := by
  cases clauses with
  | nil => cases ht
  | cons clause rest =>
    obtain ⟨test, body⟩ := clause
    rcases List.mem_append.1 ht with ht | ht
    · exact List.subset_append_of_subset_left _ (Statement.form_substatementsOf_subset body ht)
    · exact List.subset_append_of_subset_right _ (SwitchClause.form_substatementsOf_subset rest ht)

end

theorem SwitchClause.mem_substatementsOf {s : Statement} {clauses : List SwitchClause}
    (hs : s ∈ Script.clauseStatements clauses) : s ∈ SwitchClause.substatementsOf clauses := by
  induction clauses with
  | nil => cases hs
  | cons clause rest ih =>
    obtain ⟨test, body⟩ := clause
    rw [SwitchClause.substatementsOf, List.mem_append]
    rcases List.mem_append.1 hs with hs | hs
    · exact .inl (Statement.substatements_subset_substatementsOf hs (Statement.mem_substatements_self s))
    · exact .inr (ih hs)

end PageScript
