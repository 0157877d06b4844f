import PageScript.Evaluation.Block
import PageScript.Text.Units

/-! # Functions of the global object -/

set_option autoImplicit false

namespace PageScript.Script

/-- Applies a text function to an argument. -/
def mapText (f : List Char → List Char) (v : Value) : Script Value := do
  return .string (String.ofList (f (← toText v).toList))

/-- Applies a function of the global object. -/
def applyGlobal (f : GlobalFunction) (args : List Value) : Script Value := do
  let first := argument args 0
  match f with
  | .parseInt =>
    let text ← toText first
    let radix ← toNumber (argument args 1)
    return .number (.ofRadixText text radix.toInt32.toInt)
  | .parseFloat => return .number (.ofFront (← toText first))
  | .isNaN => return .boolean (← toNumber first).isNaN
  | .isFinite => return .boolean (← toNumber first).isFinite
  | .eval =>
    match first with
    | .string source => runSource source
    | v => return v
  | .escape => mapText Text.escape first
  | .unescape => mapText Text.unescape first

end PageScript.Script
