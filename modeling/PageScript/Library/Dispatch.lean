import PageScript.Library.Dates
import PageScript.Library.Errors
import PageScript.Library.Functions
import PageScript.Library.Globals
import PageScript.Library.Numbers
import PageScript.Library.Objects
import PageScript.Library.Strings

/-! # Built-in functions by kind -/

set_option autoImplicit false

namespace PageScript.Script

/-- Applies a built-in function, or lets the embedding program apply one of its own. -/
def applyNative (embedded : String → Value → List Value → Script Value) (native : Native)
    (this : Value) (args : List Value) : Script Value :=
  match native with
  | .object f => applyObject f this args
  | .function f => applyFunction f this args
  | .boolean f => applyBoolean f this args
  | .number f => applyNumber f this args
  | .global f => applyGlobal f args
  | .math f => applyMath f args
  | .string f => applyString f this args
  | .array f => applyArray f this args
  | .date f => applyDate f this args
  | .error f => applyError f this args
  | .host behavior => embedded behavior this args

end PageScript.Script
