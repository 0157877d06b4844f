import PageScript.Value

/-! # Built-in functions by name

A function object that is not script code says which built-in it is.  Functions of the embedding
program are known by the name they were registered under.
-/

set_option autoImplicit false

namespace PageScript

/-- `Object` and its prototype. -/
inductive ObjectFunction where
  | construct | toText | toLocaleText | valueOf | hasOwnProperty | isPrototypeOf | isEnumerable

/-- `Function` and its prototype. -/
inductive FunctionFunction where
  | construct | toText | call | apply

/-- `Boolean` and its prototype. -/
inductive BooleanFunction where
  | construct | toText | valueOf

/-- `Number` and its prototype. -/
inductive NumberFunction where
  | construct | toText | toLocaleText | valueOf

/-- Functions of the global object. -/
inductive GlobalFunction where
  | parseInt | parseFloat | isNaN | isFinite | eval | escape | unescape

/-- Functions of `Math` on one number. -/
inductive RealFunction where
  | abs | acos | asin | atan | ceil | cos | exp | floor | log | round | sin | sqrt | tan | trunc

/-- Functions of `Math`. -/
inductive MathFunction where
  | real (f : RealFunction)
  | atan2 | pow | max | min | random

/-- `String` and its prototype.  Wrapping functions put the text between tags. -/
inductive StringFunction where
  | construct | fromCharCode | charAt | charCodeAt | indexOf | lastIndexOf | substring | substr
  | slice | split | concat | toLowerCase | toUpperCase | valueOf
  | wrap (tag : String)
  | wrapWith (tag property : String)

/-- `Array` and its prototype. -/
inductive ArrayFunction where
  | construct | toText | join | reverse | sort | push | pop | shift | unshift | splice | slice
  | concat

/-- The parts of a date that can be read. -/
inductive DatePart where
  | fullYear | month | date | day | hours | minutes | seconds | milliseconds

/-- `Date` and its prototype.  A setter replaces up to `count` components from `first` on. -/
inductive DateFunction where
  | construct | parse | utc
  | get (part : DatePart)
  | set (first count : Nat)
  | valueOf | getYear | getTimezoneOffset | setTime | setYear | toText | toGmtText | toLocaleText

/-- The error constructors and their prototype. -/
inductive ErrorFunction where
  | construct (kind : ErrorKind)
  | toText

/-- A built-in function, or one of the embedding program. -/
inductive Native where
  | object (f : ObjectFunction)
  | function (f : FunctionFunction)
  | boolean (f : BooleanFunction)
  | number (f : NumberFunction)
  | global (f : GlobalFunction)
  | math (f : MathFunction)
  | string (f : StringFunction)
  | array (f : ArrayFunction)
  | date (f : DateFunction)
  | error (f : ErrorFunction)
  | host (behavior : String)

end PageScript
