import PageScript.Machine.Script
import PageScript.Heap.Index

/-! # Finding variables

`Heap.findOwner` searches a chain of prototypes, `Machine.lookup` all the scopes that a name may come
from.  Neither changes anything or runs any script.
-/

set_option autoImplicit false

namespace PageScript

/-- A variable by its object and name. -/
structure Location where
  object : ObjectId
  name : String
  deriving DecidableEq

namespace Heap

/-- The longest chain of prototypes that is searched. -/
def chainLimit : Nat := 10000

/-- The most synonyms that are followed. -/
def synonymLimit : Nat := 64

/-- The first objects of a chain of prototypes, `limit` at most. -/
def chainFrom (h : Heap) : Nat → Option ObjectId → List (ObjectId × Object)
  | 0, _ => []
  | _, none => []
  | limit + 1, some id =>
    match h.get? id with
    | some o => (id, o) :: chainFrom h limit o.proto
    | none => []

/-- The objects of a chain of prototypes. -/
def chain (h : Heap) (start : ObjectId) : List (ObjectId × Object) :=
  h.chainFrom chainLimit (some start)

/-- The first of `limit` objects on a chain of prototypes that has a variable of a name. -/
def findOwnerFrom (h : Heap) (name : String) : Nat → Option ObjectId → Option ObjectId
  | 0, _ => none
  | _, none => none
  | limit + 1, some id =>
    match h.get? id with
    | some o => if o.has name then some id else findOwnerFrom h name limit o.proto
    | none => none

/-- The first object on the chain of prototypes of `start` that has a variable of a name. -/
def findOwner (h : Heap) (start : ObjectId) (name : String) : Option ObjectId :=
  h.findOwnerFrom name chainLimit (some start)

/-- Whether an object or one of its prototypes has a variable of a name. -/
def hasProperty (h : Heap) (id : ObjectId) (name : String) : Bool := (h.findOwner id name).isSome

/-- Follows synonyms, `limit` of them at most, to the variable that stores the value. -/
def resolveUpTo (h : Heap) : Nat → Location → Location
  | 0, place => place
  | limit + 1, place =>
    match (h.own? place.object place.name).map Variable.link with
    | some (.synonym object name) => resolveUpTo h limit ⟨object, name⟩
    | _ => place

/-- The variable that stores the value of another one. -/
def resolve (h : Heap) (place : Location) : Location := h.resolveUpTo synonymLimit place

/-- Whether a chain of prototypes leads from an object to another one beyond it. -/
def inheritsFrom (h : Heap) (id ancestor : ObjectId) : Bool :=
  ((h.chainFrom h.slots.size (h.proto? id)).map Prod.fst).contains ancestor

/-! ## Names of an object -/

/-- The indices below `limit` that an object or one of its prototypes has, in rising order, each
once. -/
def indices (h : Heap) (id : ObjectId) (limit : Nat) : List Nat :=
  let all := (h.chain id).flatMap fun (_, o) =>
    o.members.toList.filterMap fun v => (ArrayIndex.ofName? v.name).filter (· < limit)
  let sorted := all.mergeSort (· ≤ ·)
  sorted.eraseReps

/-- Goes through variables, nearest object first: passes over names that were seen, and lists those
that are not hidden. -/
def visibleNames (seen : List String) : List Variable → List String
  | [] => []
  | v :: rest =>
    if v.name ∈ seen then visibleNames seen rest
    else if v.hidden then visibleNames (v.name :: seen) rest
    else v.name :: visibleNames (v.name :: seen) rest

/-- The names that a loop over an object visits: its own first, then inherited ones, without those
that are hidden or shadowed. -/
def enumerable (h : Heap) (id : ObjectId) : List String :=
  visibleNames [] ((h.chain id).flatMap fun (_, o) => o.members.toList)

end Heap

/-! ## Names in scope -/

/-- A variable that a name stands for, and the object that becomes `this` when the name is called. -/
structure Binding where
  location : Location
  receiver : Option ObjectId

/-- Whether code sees through an activation to the one that called it. -/
def Frame.isTransparent (f : Frame) : Bool := f.kind == .eval || f.kind == .native

namespace Machine

/-- Searches objects that were put in front of a scope. -/
def lookupWiths (h : Heap) (name : String) : List WithEntry → Option Binding
  | [] => none
  | w :: rest =>
    match h.findOwner w.object name with
    | some owner => some ⟨⟨owner, name⟩, some w.object⟩
    | none => lookupWiths h name rest

/-- Searches the activations around the innermost one.  Objects that the embedding program put in front
are always seen; anything else only as long as every activation in between is transparent. -/
def lookupCallers (h : Heap) (name : String) (transparent : Bool) : List Frame → Option Binding
  | [] => none
  | f :: rest =>
    let withs := f.withs.filter fun w => w.everywhere || transparent
    match lookupWiths h name withs with
    | some b => some b
    | none =>
      if transparent && f.kind != .native && h.owns f.locals name then some ⟨⟨f.locals, name⟩, none⟩
      else lookupCallers h name (transparent && f.isTransparent) rest

/-- Searches the innermost activation: what was put in front of it, its variables, the scope its code
was defined in, and its `this`. -/
def lookupFrame (h : Heap) (name : String) (f : Frame) : Option Binding :=
  match lookupWiths h name f.withs with
  | some b => some b
  | none =>
    if (f.kind == .function || f.kind == .eval) && h.owns f.locals name then
      some ⟨⟨f.locals, name⟩, none⟩
    else
      match h.findOwner f.scope name with
      | some owner => some ⟨⟨owner, name⟩, none⟩
      | none =>
        match f.this with
        | some this => (h.findOwner this name).map fun owner => ⟨⟨owner, name⟩, some this⟩
        | none => none

/-- The variable that a name stands for: in the innermost activation, then in those around it, and at
last in the global object. -/
def lookup (m : Machine) (name : String) : Option Binding :=
  match lookupFrame m.heap name m.frame with
  | some b => some b
  | none =>
    match lookupCallers m.heap name m.frame.isTransparent m.callers with
    | some b => some b
    | none =>
      (m.heap.findOwner Intrinsic.globalObject name).map fun owner => ⟨⟨owner, name⟩, none⟩

end Machine

namespace Script

/-- The variable that a name stands for; an unknown name becomes an undefined global variable. -/
def binding (name : String) : Script Binding := do
  match ← read (·.lookup name) with
  | some b => return b
  | none =>
    modifyObject Intrinsic.globalObject (·.push (.plain name .undefined))
    return ⟨⟨Intrinsic.globalObject, name⟩, none⟩

/-- Declares a variable in an object that has none of that name. -/
def declare (scope : ObjectId) (name : String) : Script Unit :=
  modifyObject scope fun o =>
    if o.has name then o else o.push { Variable.plain name .undefined with permanent := true }

/-- Stores a value under a name and hides it from enumeration. -/
def defineHidden (object : ObjectId) (name : String) (value : Value) : Script Unit :=
  modifyObject object (·.putHidden name value)

end Script

end PageScript
