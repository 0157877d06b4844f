import PageScript.Proofs.Arrays.Lists
import PageScript.Proofs.History
import PageScript.Proofs.Receivers

/-! # The arguments of a call

A function finds its arguments under the names of its parameters, and by position as elements of an
`arguments` object.  An element for which there is a parameter is the variable of that parameter, so that what
is written by the one is read by the other, as long as neither is deleted.
-/

set_option autoImplicit false

namespace PageScript

/-! ## Parameters -/

namespace Script

variable {parameters : List String} {name p : String} {i j : Nat}

end Script

/-! ## The objects of a call -/

namespace ArrayIndex

end ArrayIndex

namespace Object

variable {parameters : List String} {args : List Value} {name : String} {i : Nat} {v : Value} {o : Object}

variable {scope arguments function locals self : ObjectId}

end Object

/-! ## The beginning of a call -/

namespace Machine

variable {m : Machine} {name : String} {locals : ObjectId}

end Machine

namespace Script

/-- What a function does within its activation. -/
def functionBody (tree : FunctionTree) (locals : ObjectId) : Script Value := do
  hoist tree.body locals
  let _ ← runStatements tree.body
  return .undefined

variable {m n : Machine} {parameters : List String} {args : List Value} {e : Engine} {i : Nat} {p name : String}
  {function scope locals arguments : ObjectId}

/-- Whether a computation yields a value and changes nothing, whatever object a function is read from. -/
def Reads (x : Script Value) (v : Value) (m : Machine) : Prop :=
  ∀ e, ∃ w, x e m = .value w m ∧ w.unbound = v.unbound

end Script

namespace Heap.Entered

variable {m : Machine} {function scope locals arguments : ObjectId} {parameters : List String}
  {args : List Value} {i : Nat} {p : String} {v : Value}

end Heap.Entered

/-! ## Shared variables -/

namespace Heap

variable {h : Heap} {p q : Location}

end Heap

namespace Machine

variable {m : Machine} {arguments : ObjectId} {i : Nat} {place : Location}

end Machine

/-! ## The beginning of the body -/

namespace Heap.Entered

variable {m n : Machine} {function scope locals arguments : ObjectId} {parameters : List String}
  {args : List Value} {i : Nat} {p : String}

end Heap.Entered

/-! ## Writes -/

namespace Script

variable {m : Machine} {arguments : ObjectId} {i : Nat} {place : Location} {e : Engine}

end Script

/-! ## Calls -/

namespace Script

end Script

end PageScript
