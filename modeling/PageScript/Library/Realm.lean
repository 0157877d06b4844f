import PageScript.Machine.State
import PageScript.Variables.Writing

/-! # The initial heap

What every interpreter starts with: the prototypes, the global object, and the built-in constructors
and functions on them.  All of it is hidden from enumeration.
-/

set_option autoImplicit false

namespace PageScript

/-! ## Definitions in a heap -/

namespace Heap

/-- Stores a value under a name and hides it from enumeration. -/
def define (target : ObjectId) (name : String) (v : Value) (h : Heap) : Heap :=
  h.modify target (·.putHidden name v)

/-- Makes a built-in function of a number of parameters. -/
def allocNative (name : String) (arity : Nat) (native : Native) (h : Heap) : ObjectId × Heap :=
  let o := (Object.empty (some Intrinsic.function)).putHidden "length" (.ofNat arity)
  h.alloc { o with callable := some (.native name native) }

end Heap

/-- A built-in function with its name and its number of parameters. -/
structure Method where
  name : String
  arity : Nat
  native : Native

namespace Heap

/-- Defines a built-in function on an object. -/
def defineMethod (target : ObjectId) (h : Heap) (method : Method) : Heap :=
  let (f, h) := h.allocNative method.name method.arity method.native
  h.define target method.name (.ref f)

/-- Defines built-in functions on an object. -/
def defineMethods (target : ObjectId) (methods : List Method) (h : Heap) : Heap :=
  methods.foldl (defineMethod target) h

/-- Defines values on an object. -/
def defineValues (target : ObjectId) (values : List (String × Value)) (h : Heap) : Heap :=
  values.foldl (fun h (name, v) => h.define target name v) h

/-- Defines a constructor on the global object and links it with its prototype. -/
def defineConstructor (proto : ObjectId) (method : Method) (h : Heap) : ObjectId × Heap :=
  let (f, h) := h.allocNative method.name method.arity method.native
  let h := h.define f "prototype" (.ref proto)
  let h := h.define proto "constructor" (.ref f)
  (f, h.define Intrinsic.globalObject method.name (.ref f))

end Heap

/-! ## Prototypes -/

namespace Realm

/-- An object that inherits from the prototype of all objects. -/
def plain (payload : Payload) : Object :=
  { Object.empty (some Intrinsic.object) with payload := payload }

/-- The prototypes in the order of their slots, and the global object. -/
def roots : List Object :=
  [.empty none, plain .plain, plain .plain, plain (.string ""), plain (.boolean false),
    plain (.number .zero), plain .plain, plain .plain]
  ++ ErrorKind.specific.map (fun _ => .empty (some (Intrinsic.error .general)))
  ++ [plain .plain]

/-- The prototypes and the global object without members. -/
def bare : Heap := roots.foldl (fun h o => (h.alloc o).2) .empty

/-! ## Members -/

/-- The values of the global object. -/
def globalValues : List (String × Value) :=
  [("NaN", .number .nan), ("Infinity", .number .posInf), ("undefined", .undefined)]

/-- `Object`. -/
def defineObject (h : Heap) : Heap :=
  let (_, h) := h.defineConstructor Intrinsic.object ⟨"Object", 1, .object .construct⟩
  h.defineMethods Intrinsic.object
    [⟨"toString", 0, .object .toText⟩, ⟨"toLocaleString", 0, .object .toLocaleText⟩,
      ⟨"valueOf", 0, .object .valueOf⟩, ⟨"hasOwnProperty", 1, .object .hasOwnProperty⟩,
      ⟨"isPrototypeOf", 1, .object .isPrototypeOf⟩,
      ⟨"propertyIsEnumerable", 1, .object .isEnumerable⟩]

/-- `Function`. -/
def defineFunction (h : Heap) : Heap :=
  let (_, h) := h.defineConstructor Intrinsic.function ⟨"Function", 1, .function .construct⟩
  h.defineMethods Intrinsic.function
    [⟨"toString", 0, .function .toText⟩, ⟨"call", 1, .function .call⟩,
      ⟨"apply", 2, .function .apply⟩]

/-- `Boolean`. -/
def defineBoolean (h : Heap) : Heap :=
  let (_, h) := h.defineConstructor Intrinsic.boolean ⟨"Boolean", 1, .boolean .construct⟩
  h.defineMethods Intrinsic.boolean
    [⟨"toString", 0, .boolean .toText⟩, ⟨"valueOf", 0, .boolean .valueOf⟩]

/-- `Number` and the functions on numbers of the global object. -/
def defineNumber (h : Heap) : Heap :=
  let (constructor, h) := h.defineConstructor Intrinsic.number ⟨"Number", 1, .number .construct⟩
  let h := h.defineValues constructor
    [("MAX_VALUE", .ofFloat 1.7976931348623157e308), ("MIN_VALUE", .ofFloat 5e-324),
      ("NaN", .number .nan), ("POSITIVE_INFINITY", .number .posInf),
      ("NEGATIVE_INFINITY", .number .negInf)]
  let h := h.defineMethods Intrinsic.number
    [⟨"toString", 1, .number .toText⟩, ⟨"toLocaleString", 0, .number .toLocaleText⟩,
      ⟨"valueOf", 0, .number .valueOf⟩]
  h.defineMethods Intrinsic.globalObject
    [⟨"parseInt", 2, .global .parseInt⟩, ⟨"parseFloat", 1, .global .parseFloat⟩,
      ⟨"isNaN", 1, .global .isNaN⟩, ⟨"isFinite", 1, .global .isFinite⟩]

/-- The functions of `Math` on one number. -/
def realFunctions : List (String × RealFunction) :=
  [("abs", .abs), ("acos", .acos), ("asin", .asin), ("atan", .atan), ("ceil", .ceil), ("cos", .cos),
    ("exp", .exp), ("floor", .floor), ("log", .log), ("round", .round), ("sin", .sin),
    ("sqrt", .sqrt), ("tan", .tan), ("trunc", .trunc)]

/-- `Math`. -/
def defineMath (h : Heap) : Heap :=
  let (math, h) := h.alloc (plain .plain)
  let h := h.define Intrinsic.globalObject "Math" (.ref math)
  let h := h.defineValues math
    [("E", .ofFloat 2.718281828459045), ("LN10", .ofFloat 2.302585092994046),
      ("LN2", .ofFloat 0.6931471805599453), ("LOG10E", .ofFloat 0.4342944819032518),
      ("LOG2E", .ofFloat 1.4426950408889634), ("PI", .ofFloat 3.141592653589793),
      ("SQRT1_2", .ofFloat 0.7071067811865476), ("SQRT2", .ofFloat 1.4142135623730951)]
  let h := h.defineMethods math (realFunctions.map fun (name, f) => ⟨name, 1, .math (.real f)⟩)
  h.defineMethods math
    [⟨"atan2", 2, .math .atan2⟩, ⟨"pow", 2, .math .pow⟩, ⟨"max", 2, .math .max⟩,
      ⟨"min", 2, .math .min⟩, ⟨"random", 0, .math .random⟩]

/-- `String`. -/
def defineString (h : Heap) : Heap :=
  let h := h.define Intrinsic.string "length" (.ofNat 0)
  let (constructor, h) := h.defineConstructor Intrinsic.string ⟨"String", 1, .string .construct⟩
  let h := h.defineMethods constructor [⟨"fromCharCode", 1, .string .fromCharCode⟩]
  let h := h.defineMethods Intrinsic.string
    [⟨"charAt", 1, .string .charAt⟩, ⟨"charCodeAt", 1, .string .charCodeAt⟩,
      ⟨"indexOf", 2, .string .indexOf⟩, ⟨"lastIndexOf", 2, .string .lastIndexOf⟩,
      ⟨"substring", 2, .string .substring⟩, ⟨"substr", 2, .string .substr⟩,
      ⟨"slice", 2, .string .slice⟩, ⟨"split", 2, .string .split⟩, ⟨"concat", 1, .string .concat⟩,
      ⟨"toLowerCase", 0, .string .toLowerCase⟩, ⟨"toUpperCase", 0, .string .toUpperCase⟩,
      ⟨"toString", 0, .string .valueOf⟩, ⟨"valueOf", 0, .string .valueOf⟩,
      ⟨"anchor", 1, .string (.wrapWith "A" "NAME")⟩,
      ⟨"fontcolor", 1, .string (.wrapWith "FONT" "COLOR")⟩,
      ⟨"fontsize", 1, .string (.wrapWith "FONT" "SIZE")⟩,
      ⟨"link", 1, .string (.wrapWith "A" "HREF")⟩]
  let wraps := [("big", "BIG"), ("blink", "BLINK"), ("bold", "B"), ("fixed", "TT"), ("italics", "I"),
    ("small", "SMALL"), ("strike", "STRIKE"), ("sub", "SUB"), ("sup", "SUP")]
  h.defineMethods Intrinsic.string (wraps.map fun (name, tag) => ⟨name, 0, .string (.wrap tag)⟩)

/-- `Array`, whose prototype is an array as well. -/
def defineArray (h : Heap) : Heap :=
  let h := h.modify Intrinsic.array (·.makeArray Intrinsic.array 0)
  let (_, h) := h.defineConstructor Intrinsic.array ⟨"Array", 1, .array .construct⟩
  h.defineMethods Intrinsic.array
    [⟨"toString", 0, .array .toText⟩, ⟨"join", 1, .array .join⟩, ⟨"reverse", 0, .array .reverse⟩,
      ⟨"sort", 1, .array .sort⟩, ⟨"push", 1, .array .push⟩, ⟨"pop", 0, .array .pop⟩,
      ⟨"shift", 0, .array .shift⟩, ⟨"unshift", 1, .array .unshift⟩, ⟨"splice", 2, .array .splice⟩,
      ⟨"slice", 2, .array .slice⟩, ⟨"concat", 1, .array .concat⟩]

/-- A function under a name and under the name of its GMT form, which is a function of its own. -/
def inBothZones (verb part : String) (f : DateFunction) : List Method :=
  [⟨verb ++ part, 0, .date f⟩, ⟨verb ++ "UTC" ++ part, 0, .date f⟩]

/-- The parts of dates that can be read. -/
def dateParts : List (String × DatePart) :=
  [("FullYear", .fullYear), ("Month", .month), ("Date", .date), ("Day", .day), ("Hours", .hours),
    ("Minutes", .minutes), ("Seconds", .seconds), ("Milliseconds", .milliseconds)]

/-- The fields of dates that can be set, each with the first one that is replaced and how many are at
most. -/
def dateFields : List (String × Nat × Nat) :=
  [("FullYear", 0, 3), ("Month", 1, 2), ("Date", 2, 1), ("Hours", 3, 4), ("Minutes", 4, 3),
    ("Seconds", 5, 2), ("Milliseconds", 6, 1)]

/-- `Date`. -/
def defineDate (h : Heap) : Heap :=
  let (constructor, h) := h.defineConstructor Intrinsic.date ⟨"Date", 3, .date .construct⟩
  let h := h.defineMethods constructor
    [⟨"parse", 1, .date .parse⟩, ⟨"UTC", 3, .date .utc⟩]
  let h := h.defineMethods Intrinsic.date
    (dateParts.flatMap fun (name, part) => inBothZones "get" name (.get part))
  let h := h.defineMethods Intrinsic.date
    (dateFields.flatMap fun (name, first, count) => inBothZones "set" name (.set first count))
  h.defineMethods Intrinsic.date
    [⟨"getTime", 0, .date .valueOf⟩, ⟨"valueOf", 0, .date .valueOf⟩,
      ⟨"getYear", 0, .date .getYear⟩, ⟨"getTimezoneOffset", 0, .date .getTimezoneOffset⟩,
      ⟨"setTime", 1, .date .setTime⟩, ⟨"setYear", 1, .date .setYear⟩,
      ⟨"toString", 0, .date .toText⟩, ⟨"toGMTString", 0, .date .toGmtText⟩,
      ⟨"toUTCString", 0, .date .toGmtText⟩, ⟨"toLocaleString", 0, .date .toLocaleText⟩]

/-- The constructor of a kind of errors, and the values that its errors inherit. -/
def defineErrorKind (kind : ErrorKind) (h : Heap) : Heap :=
  let proto := Intrinsic.error kind
  let (_, h) := h.defineConstructor proto ⟨kind.name, 1, .error (.construct kind)⟩
  h.defineValues proto [("name", .string kind.name), ("message", .string "")]

/-- The constructors of errors. -/
def defineErrors (h : Heap) : Heap :=
  let h := defineErrorKind .general h
  let h := h.defineMethods (Intrinsic.error .general) [⟨"toString", 0, .error .toText⟩]
  ErrorKind.specific.foldl (fun h kind => defineErrorKind kind h) h

/-- The functions on texts of the global object. -/
def textFunctions : List Method :=
  [⟨"eval", 1, .global .eval⟩, ⟨"escape", 1, .global .escape⟩,
    ⟨"unescape", 1, .global .unescape⟩]

/-- The heap that an interpreter starts with. -/
def heap : Heap :=
  let h := bare.defineValues Intrinsic.globalObject globalValues
  let h := defineBoolean (defineFunction (defineObject h))
  let h := defineString (defineMath (defineNumber h))
  let h := defineErrors (defineDate (defineArray h))
  h.defineMethods Intrinsic.globalObject textFunctions

end Realm

end PageScript
