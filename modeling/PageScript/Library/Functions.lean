import PageScript.Library.Arrays

/-! # Functions -/

set_option autoImplicit false

namespace PageScript.Script

/-- The function declaration that a source text consists of. -/
def soleFunction? : List Statement → Option FunctionTree
  | [.mk _ (.function f)] => some f
  | _ => none

/-- The source text of a function made of parameters and a body. -/
def functionSource (parameters : List String) (body : String) : String :=
  "function anonymous(" ++ Printer.commas parameters ++ ") \x7b\n" ++ body ++ "\n\x7d"

/-- Makes a function of the global scope from the texts of its parameters and its body. -/
def constructFunction (args : List Value) : Script Value := do
  let texts ← toTexts args
  match Program.parse (functionSource texts.dropLast (texts.getLast?.getD "")) with
  | .error e => raise .badSource e.message
  | .ok body =>
    match soleFunction? body with
    | some tree => return .ref (← newFunction tree Intrinsic.globalObject)
    | none => raise .badSource "invalid function body"

/-- The object that a call is to have as `this`; nothing stands for the global object. -/
def toReceiver (v : Value) : Script (Option ObjectId) :=
  if v.isNothing then return none else some <$> toObject v

/-- The source text of a function; that of a built-in one says so. -/
def functionText (this : Value) : Script Value := do
  match ← read fun m => (this.id?.bind m.heap.get?).bind (·.callable) with
  | some (.script tree _) => return .string tree.text
  | some (.native name _) =>
    return .string ("function " ++ name ++ "() \x7b\n    [native code]\n\x7d")
  | none => typeError "Function.prototype.toString called on incompatible object"

/-- The arguments that a list stands for: those of an object by its elements, and none for nothing. -/
def argumentsOf (list : Value) : Script (List Value) :=
  if list.isNothing then return []
  else
    match list.id? with
    | some id => elementsAsArguments id
    | none => typeError "second argument to Function.prototype.apply must be an array"

/-- Applies a function of `Function` or its prototype. -/
def applyFunction (f : FunctionFunction) (this : Value) (args : List Value) : Script Value := do
  match f with
  | .construct => constructFunction args
  | .toText => functionText this
  | .call =>
    let receiver ← toReceiver (argument args 0)
    callValue this.unbound receiver (args.drop 1)
  | .apply =>
    let receiver ← toReceiver (argument args 0)
    let values ← argumentsOf (argument args 1)
    callValue this.unbound receiver values

end PageScript.Script
