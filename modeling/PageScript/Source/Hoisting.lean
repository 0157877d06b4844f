import PageScript.Source.Tree

/-! # Declarations of a function body

The variables and functions that a list of statements declares, wherever they stand outside nested
functions: `hoistedNames` holds each variable once, in order of first occurrence, `functions` every
function declaration in source order.
-/

set_option autoImplicit false

namespace PageScript

/-- The name that a declarator declares. -/
def Declarator.name : Declarator → String
  | .mk name _ => name

/-- The names that the start of a `for` statement declares. -/
def ForStart.names : ForStart → List String
  | .declare ds => ds.map Declarator.name
  | _ => []

mutual

/-- The names of all variable declarators of a statement, in source order. -/
def Statement.names : Statement → List String
  | .mk _ form => form.names

/-- The names of all variable declarators of a form of statement. -/
def StatementForm.names : StatementForm → List String
  | .declare ds => ds.map Declarator.name
  | .block body => Statement.namesOf body
  | .ifThen _ yes => yes.names
  | .ifElse _ yes no => yes.names ++ no.names
  | .whileLoop _ body => body.names
  | .doLoop body _ => body.names
  | .labeled _ body => body.names
  | .withObject _ body => body.names
  | .forLoop start _ _ body => start.names ++ body.names
  | .forVariable d _ body => d.name :: body.names
  | .forTarget _ _ body => body.names
  | .tryCatch body _ handler => Statement.namesOf body ++ Statement.namesOf handler
  | .tryFinally body final => Statement.namesOf body ++ Statement.namesOf final
  | .tryCatchFinally body _ handler final =>
    Statement.namesOf body ++ Statement.namesOf handler ++ Statement.namesOf final
  | .switch _ clauses => SwitchClause.namesOf clauses
  | _ => []

/-- The names of all variable declarators of a list of statements. -/
def Statement.namesOf : List Statement → List String
  | [] => []
  | s :: rest => s.names ++ Statement.namesOf rest

/-- The names of all variable declarators of the clauses of a `switch`. -/
def SwitchClause.namesOf : List SwitchClause → List String
  | [] => []
  | .mk _ body :: rest => Statement.namesOf body ++ SwitchClause.namesOf rest

end

mutual

/-- The function declarations of a statement, in source order. -/
def Statement.functions : Statement → List FunctionTree
  | .mk _ form => form.functions

/-- The function declarations of a form of statement. -/
def StatementForm.functions : StatementForm → List FunctionTree
  | .function f => [f]
  | .block body => Statement.functionsOf body
  | .ifThen _ yes => yes.functions
  | .ifElse _ yes no => yes.functions ++ no.functions
  | .whileLoop _ body => body.functions
  | .doLoop body _ => body.functions
  | .labeled _ body => body.functions
  | .withObject _ body => body.functions
  | .forLoop _ _ _ body => body.functions
  | .forVariable _ _ body => body.functions
  | .forTarget _ _ body => body.functions
  | .tryCatch body _ handler => Statement.functionsOf body ++ Statement.functionsOf handler
  | .tryFinally body final => Statement.functionsOf body ++ Statement.functionsOf final
  | .tryCatchFinally body _ handler final =>
    Statement.functionsOf body ++ Statement.functionsOf handler ++ Statement.functionsOf final
  | .switch _ clauses => SwitchClause.functionsOf clauses
  | _ => []

/-- The function declarations of a list of statements. -/
def Statement.functionsOf : List Statement → List FunctionTree
  | [] => []
  | s :: rest => s.functions ++ Statement.functionsOf rest

/-- The function declarations of the clauses of a `switch`. -/
def SwitchClause.functionsOf : List SwitchClause → List FunctionTree
  | [] => []
  | .mk _ body :: rest => Statement.functionsOf body ++ SwitchClause.functionsOf rest

end

/-- The members of a list that are not in `seen`, each at its first occurrence only. -/
def firstOccurrences (seen : List String) : List String → List String
  | [] => []
  | s :: rest =>
    if s ∈ seen then firstOccurrences seen rest
    else s :: firstOccurrences (s :: seen) rest

/-- The variables that a list of statements declares, each once, in order of first occurrence. -/
def hoistedNames (body : List Statement) : List String :=
  firstOccurrences [] (Statement.namesOf body)

end PageScript
