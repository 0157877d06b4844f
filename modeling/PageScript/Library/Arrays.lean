import PageScript.Library.Basic

/-! # Arrays

The methods of arrays work on any object with a length.  `Elements` is what they read: the length and
the elements that are present, so a long array with few elements is cheap.
-/

set_option autoImplicit false

namespace PageScript

/-- A length and the elements that are present, by rising index. -/
structure Elements where
  length : Nat
  present : List (Nat × Value)

namespace Elements

/-- The elements from an index up to another one, renumbered from `base` on. -/
def moved (e : Elements) (start stop base : Nat) : List (Nat × Value) :=
  e.present.filterMap fun (i, v) =>
    if start ≤ i && i < stop then some (i - start + base, v) else none

/-- The element at an index. -/
def at? (e : Elements) (index : Nat) : Option Value :=
  (e.present.find? fun (i, _) => i == index).map Prod.snd

/-- All elements, with `undefined` for those that are missing. -/
def dense (e : Elements) : List Value :=
  (e.present.foldl (fun values (i, v) => values.setIfInBounds i v)
    (Array.replicate e.length Value.undefined)).toList

/-- The elements in reverse order. -/
def reverse (e : Elements) : Elements :=
  ⟨e.length, e.present.reverse.map fun (i, v) => (e.length - 1 - i, v)⟩

/-- Elements without gaps from the index zero on, up to a length. -/
def packed (length : Nat) (values : List Value) : Elements :=
  ⟨length, values.zipIdx.map fun (v, i) => (i, v)⟩

end Elements

/-- The members of a rising list of numbers that are not in another one. -/
def missingFrom : List Nat → List Nat → List Nat
  | [], _ => []
  | olds, [] => olds
  | old :: olds, kept :: rest =>
    if old < kept then old :: missingFrom olds (kept :: rest)
    else if old = kept then missingFrom olds rest
    else missingFrom (old :: olds) rest
termination_by olds kept => olds.length + kept.length

namespace Script

/-! ## Reading and writing elements -/

/-- The length of an object: its `length` member modulo `2 ^ 32`. -/
def lengthOf (id : ObjectId) : Script Nat := do
  let length ← readMember (.ref id) "length"
  return (← toNumber length).toUInt32.toNat

/-- Reads the elements of an object. -/
def readElements (id : ObjectId) : Script Elements := do
  let length ← lengthOf id
  let indices ← read (·.heap.indices id length)
  let present ← each (fun i => do
    return (i, (← readMember (.ref id) (ArrayIndex.name i)).unbound)) indices
  return ⟨length, present⟩

/-- Stores elements in an object, deletes the old ones that are missing now, and sets the length. -/
def writeElements (id : ObjectId) (old new : Elements) : Script Unit := do
  fold (fun _ (i, v) => do
    let _ ← writeMember id (ArrayIndex.name i) v) new.present ()
  fold (fun _ i => do
    let _ ← deleteMember id (ArrayIndex.name i))
    (missingFrom (old.present.map Prod.fst) (new.present.map Prod.fst)) ()
  let _ ← writeMember id "length" (.ofNat new.length)

/-- Makes an array of elements. -/
def arrayOfElements (e : Elements) : Script ObjectId := do
  let id ← newArray e.length
  modifyObject id fun o =>
    e.present.foldl (fun o (i, v) => o.push (.plain (ArrayIndex.name i) v)) o
  return id

/-- The longest list of arguments. -/
def argumentLimit : Nat := 65536

/-- The elements of an object as arguments of a call. -/
def elementsAsArguments (id : ObjectId) : Script (List Value) := do
  let e ← readElements id
  if argumentLimit < e.length then raise .range "too many arguments"
  return e.dense

/-- The position that an argument names, counted from the end if it is negative. -/
def positionFromEnd (args : List Value) (i length default : Nat) : Script Nat := do
  match given? args i with
  | none => return default
  | some v => return (← toPosition v).fromEnd length

/-! ## Joining -/

/-- The longest string that joining makes, in bytes. -/
def joinLimit : Nat := 2 ^ 30

/-- Appends a text a number of times. -/
def appendTimes (text : String) : Nat → String → String
  | 0, s => s
  | n + 1, s => appendTimes text n (s ++ text)

/-- Appends a number of separators. -/
def appendSeparators (separator : String) (n : Nat) (s : String) : String :=
  if separator.isEmpty then s else appendTimes separator n s

/-- The text of an element; nothing has none. -/
def elementText (v : Value) : Script String := if v.isNothing then return "" else toText v

/-- Joins the texts of elements with a separator. -/
def joinElements (separator : String) (e : Elements) : Script String := do
  let gaps := e.length - 1
  if joinLimit < separator.utf8ByteSize * gaps then raise .range "invalid string length"
  let (text, written) ← fold (fun (text, written) (i, v) => do
    let text := appendSeparators separator (i - written) text ++ (← elementText v)
    if joinLimit < text.utf8ByteSize then raise .range "invalid string length"
    return (text, i)) e.present ("", 0)
  return appendSeparators separator (gaps - written) text

/-- Joins the elements of an object, with a comma if no separator is given. -/
def join (id : ObjectId) (args : List Value) : Script Value := do
  let separator ← match given? args 0 with
    | none => pure ","
    | some v => toText v
  return .string (← joinElements separator (← readElements id))

/-! ## Sorting -/

/-- The order of two elements, by a function or by their texts; `undefined` comes last. -/
def elementOrder (comparator : Option Value) (a b : Value) : Script Ordering := do
  match a.isUndefined, b.isUndefined with
  | true, true => return .eq
  | true, false => return .gt
  | false, true => return .lt
  | false, false =>
    match comparator with
    | some f =>
      let n ← toNumber (← callValue f none [a, b])
      return ((n.ordering? .zero).getD .eq)
    | none =>
      let s ← toText a
      let t ← toText b
      return textOrder s t

/-- Merges two sorted lists; of equal elements that of the first list comes first. -/
def mergeSorted (comparator : Option Value) : List Value → List Value → Script (List Value)
  | [], right => return right
  | left, [] => return left
  | a :: left, b :: right => do
    match ← elementOrder comparator a b with
    | .gt => return b :: (← mergeSorted comparator (a :: left) right)
    | _ => return a :: (← mergeSorted comparator left (b :: right))
termination_by left right => left.length + right.length

/-- Sorts values by merging halves. -/
def sortValues (comparator : Option Value) (values : List Value) : Script (List Value) :=
  match values with
  | [] | [_] => return values
  | a :: b :: rest => do
    let half := (a :: b :: rest).length / 2
    let left ← sortValues comparator ((a :: b :: rest).take half)
    let right ← sortValues comparator ((a :: b :: rest).drop half)
    mergeSorted comparator left right
termination_by values.length
decreasing_by
  · simp only [List.length_take, List.length_cons]
    omega
  · simp only [List.length_drop, List.length_cons]
    omega

/-- Sorts the elements of an object. -/
def sort (id : ObjectId) (args : List Value) : Script Value := do
  let comparator := given? args 0
  if let some f := comparator then
    if (← callable? f).isNone then typeError "sort comparator must be a function"
  let old ← readElements id
  let sorted ← sortValues comparator (old.present.map Prod.snd)
  writeElements id old (.packed old.length sorted)
  return .ref id

/-! ## Ends of an array -/

/-- Adds elements at the end, and yields the new length. -/
def push (id : ObjectId) (args : List Value) : Script Value := do
  let length ← lengthOf id
  fold (fun _ (v, i) => do
    let _ ← writeMember id (ArrayIndex.name (length + i)) v) args.zipIdx ()
  writeMember id "length" (.ofNat (length + args.length))

/-- Takes the last element away. -/
def pop (id : ObjectId) : Script Value := do
  match ← lengthOf id with
  | 0 =>
    let _ ← writeMember id "length" (.ofNat 0)
    return .undefined
  | length + 1 =>
    let name := ArrayIndex.name length
    let last ← readMember (.ref id) name
    let _ ← deleteMember id name
    let _ ← writeMember id "length" (.ofNat length)
    return last.unbound

/-- Takes the first element away. -/
def shift (id : ObjectId) : Script Value := do
  let old ← readElements id
  if old.length == 0 then
    let _ ← writeMember id "length" (.ofNat 0)
    return .undefined
  writeElements id old ⟨old.length - 1, old.moved 1 old.length 0⟩
  return (old.at? 0).getD .undefined

/-- Adds elements in front, and yields the new length. -/
def unshift (id : ObjectId) (args : List Value) : Script Value := do
  let old ← readElements id
  let length := old.length + args.length
  let first := (Elements.packed args.length args).present
  writeElements id old ⟨length, first ++ old.moved 0 old.length args.length⟩
  return .ofNat length

/-! ## Parts of an array -/

/-- Replaces elements by others, and yields an array of the replaced ones. -/
def splice (id : ObjectId) (args : List Value) : Script Value := do
  let old ← readElements id
  let start ← positionFromEnd args 0 old.length 0
  let count ← match args[1]? with
    | none => pure (old.length - start)
    | some v => do pure ((← toPosition v).clamp (old.length - start))
  let items := args.drop 2
  let removed : Elements := ⟨count, old.moved start (start + count) 0⟩
  let new : Elements :=
    ⟨old.length - count + items.length,
      old.moved 0 start 0 ++ items.zipIdx.map (fun (v, i) => (start + i, v))
        ++ old.moved (start + count) old.length (start + items.length)⟩
  writeElements id old new
  return .ref (← arrayOfElements removed)

/-- Makes an array of a part. -/
def slice (id : ObjectId) (args : List Value) : Script Value := do
  let e ← readElements id
  let start ← positionFromEnd args 0 e.length 0
  let stop := max (← positionFromEnd args 1 e.length e.length) start
  return .ref (← arrayOfElements ⟨stop - start, e.moved start stop 0⟩)

/-- Whether a value is an array. -/
def isArray (v : Value) : Script Bool := do
  match ← payload? v with
  | some (.array _) => return true
  | _ => return false

/-- Adds a value behind elements, or the elements of an array. -/
def append (e : Elements) (v : Value) : Script Elements := do
  match v.id?, ← isArray v with
  | some id, true =>
    let more ← readElements id
    return ⟨e.length + more.length, e.present ++ more.moved 0 more.length e.length⟩
  | _, _ => return ⟨e.length + 1, e.present ++ [(e.length, v.unbound)]⟩

/-- Makes an array of the elements of an object and further values. -/
def concat (id : ObjectId) (args : List Value) : Script Value := do
  let e ← fold append args (← readElements id)
  if ArrayIndex.limit ≤ e.length then raise .range "invalid array length"
  return .ref (← arrayOfElements e)

/-! ## Application -/

/-- Makes an array of a length, if the only argument is a number, or else of the arguments. -/
def constructArray (this : Value) (args : List Value) : Script Value := do
  let id ← match ← isConstructing, this.id? with
    | true, some id => do
      modifyObject id (·.makeArray id 0)
      pure id
    | _, _ => newArray 0
  match args with
  | [.number n] =>
    let _ ← writeMember id "length" (.number n)
  | args =>
    fold (fun _ (v, i) => do
      let _ ← writeMember id (ArrayIndex.name i) v) args.zipIdx ()
  return .ref id

/-- Applies a function of `Array` or its prototype. -/
def applyArray (f : ArrayFunction) (this : Value) (args : List Value) : Script Value := do
  match f with
  | .construct => constructArray this args
  | .toText => join (← toObject this) []
  | .join => join (← toObject this) args
  | .reverse =>
    let id ← toObject this
    let old ← readElements id
    writeElements id old old.reverse
    return .ref id
  | .sort => sort (← toObject this) args
  | .push => push (← toObject this) args
  | .pop => pop (← toObject this)
  | .shift => shift (← toObject this)
  | .unshift => unshift (← toObject this) args
  | .splice => splice (← toObject this) args
  | .slice => slice (← toObject this) args
  | .concat => concat (← toObject this) args

end Script

end PageScript
