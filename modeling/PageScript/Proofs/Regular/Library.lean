import PageScript.Library.Dispatch
import PageScript.Proofs.Continuations
import PageScript.Proofs.Regular

/-! # The library is regular

Reading and writing variables, conversions, operators and built-in functions, each composed of the ones
before it.
-/

set_option autoImplicit false

namespace PageScript.Regular

variable {α : Type} {v w : Value} {a b : ObjectId} {args : List Value}

/-! ## Variables -/

theorem callable? (v : Value) : Regular (Option ObjectId) (Script.callable? v) := .read _

theorem isScriptFunction (id : ObjectId) : Regular Bool (Script.isScriptFunction id) := .read _

theorem declare (scope : ObjectId) (name : String) : Regular Unit (Script.declare scope name) :=
  .modifyObject _ _

theorem defineHidden (object : ObjectId) (name : String) (v : Value) :
    Regular Unit (Script.defineHidden object name v) := .modifyObject _ _

theorem binding (name : String) : Regular Binding (Script.binding name) := by
  refine .bind (.read _) fun found => ?_
  cases found with
  | some b => exact .pure b
  | none => exact .bind (.modifyObject _ _) fun _ => .pure _

theorem prototypeOf (function : ObjectId) : Regular ObjectId (Script.prototypeOf function) := by
  refine .bind (.read _) fun found => ?_
  split
  · exact .pure _
  · exact .bind (.alloc _) fun _ => .bind (defineHidden _ _ _) fun _ => .pure _

theorem wrap (proto : ObjectId) (payload : Payload) : Regular ObjectId (Script.wrap proto payload) := .alloc _

theorem toObject (v : Value) : Regular ObjectId (Script.toObject v) := by
  cases v with
  | object id receiver => exact .pure id
  | null | undefined => exact typeError _
  | string s => exact wrap _ (.string s)
  | number n => exact wrap _ (.number n)
  | boolean b => exact wrap _ (.boolean b)

theorem readThrough (hook : Hook) (owner : ObjectId) : Regular Value (Script.readThrough hook owner) := by
  cases hook with
  | arrayLength => exact .read _
  | host behavior => exact .perform _

theorem readVariable (place : Location) : Regular Value (Script.readVariable place) := by
  refine .bind (.read _) fun target => .bind (.read _) fun found => ?_
  cases found with
  | none => exact .pure _
  | some x =>
    refine .bind (.read _) fun key => ?_
    split
    · exact raise _ _
    · split
      · exact readThrough _ _
      · exact .pure _

theorem bindReceiver (v : Value) (receiver : ObjectId) :
    Regular Value (Script.bindReceiver v receiver) := by
  refine .bind (callable? v) fun f => ?_
  cases f <;> exact .pure _

theorem readObjectMember (id : ObjectId) (name : String) :
    Regular Value (Script.readObjectMember id name) := by
  refine .bind (.read _) fun owner => ?_
  cases owner with
  | some owner => exact .bind (readVariable _) fun _ => bindReceiver _ _
  | none =>
    dsimp only
    split
    · refine .bind (isScriptFunction id) fun known => ?_
      split
      · exact .bind (prototypeOf id) fun _ => .pure _
      · exact .pure _
    · exact .pure _

theorem readPrimitiveMember (v : Value) (proto : ObjectId) (name : String) :
    Regular Value (Script.readPrimitiveMember v proto name) := by
  refine .bind (.read _) fun owner => ?_
  cases owner with
  | none => exact .pure _
  | some owner =>
    refine .bind (readVariable _) fun member => .bind (callable? member) fun f => ?_
    split
    · exact .bind (toObject v) fun _ => bindReceiver _ _
    · exact .pure _

theorem readMember (v : Value) (name : String) : Regular Value (Script.readMember v name) := by
  cases v with
  | object id receiver => exact readObjectMember _ _
  | null | undefined => exact typeError _
  | string s =>
    show Regular Value (if name == "length" then _ else _ : Script Value)
    split
    · exact .pure _
    · exact readPrimitiveMember _ _ _
  | number n => exact readPrimitiveMember (.number n) _ _
  | boolean b => exact readPrimitiveMember (.boolean b) _ _

theorem invoke (id : ObjectId) (name : String) (args : List Value) :
    Regular (Option Value) (Script.invoke id name args) := by
  refine .bind (readMember _ _) fun member => .bind (callable? member) fun f => ?_
  cases f with
  | some f => exact .bind (.perform _) fun _ => .pure _
  | none => exact .pure _

/-! ## Conversions and comparisons -/

theorem textByValue (id : ObjectId) : Regular String (Script.textByValue id) := by
  have className : Regular String (do
      let className ← Script.read fun m => ((m.heap.get? id).map Object.className).getD "Object"
      return "[object " ++ className ++ "]" : Script String) := .bind (.read _) fun _ => .pure _
  refine .bind (invoke id "valueOf" []) fun found => ?_
  split
  · exact className
  · exact className
  · exact className
  · exact .pure _

theorem objectToString (id : ObjectId) : Regular String (Script.objectToString id) := by
  refine .bind (invoke id "toString" []) fun found => ?_
  split
  · exact textByValue id
  · exact textByValue id
  · exact textByValue id
  · exact .pure _

theorem toText (v : Value) : Regular String (Script.toText v) := by
  cases v with
  | object id receiver => exact objectToString id
  | _ => exact .pure _

theorem toNumber (v : Value) : Regular Number (Script.toNumber v) := by
  cases v with
  | object id receiver =>
    refine .bind (invoke id "valueOf" []) fun found => ?_
    split
    · exact .pure _
    · exact .bind (objectToString id) fun _ => .pure _
  | _ => exact .pure _

theorem toPosition (v : Value) : Regular Position (Script.toPosition v) :=
  .bind (toNumber v) fun _ => .pure _

theorem primitiveByText (id : ObjectId) : Regular Value (Script.primitiveByText id) := by
  refine .bind (invoke id "toString" []) fun found => ?_
  split
  · exact typeError _
  · exact typeError _
  · exact .pure _

theorem toPrimitive (v : Value) : Regular Value (Script.toPrimitive v) := by
  cases v with
  | object id receiver =>
    refine .bind (invoke id "valueOf" []) fun found => ?_
    split
    · exact primitiveByText id
    · exact primitiveByText id
    · exact .pure _
  | _ => exact .pure _

theorem display (v : Value) : Regular String (Script.display v) := .orElse (toText v) _

theorem primitivesEqual (a b : Value) : Regular Bool (Script.primitivesEqual a b) := by
  unfold Script.primitivesEqual
  split
  case h_7 => exact .bind (toNumber _) fun _ => .bind (toNumber _) fun _ => .pure _
  all_goals exact .pure _

theorem looselyEqual (a b : Value) : Regular Bool (Script.looselyEqual a b) := by
  unfold Script.looselyEqual
  split
  case h_6 => exact .bind (toPrimitive _) fun _ => primitivesEqual _ _
  case h_7 => exact .bind (toPrimitive _) fun _ => primitivesEqual _ _
  case h_8 => exact primitivesEqual _ _
  all_goals exact .pure _

theorem compare (a b : Value) : Regular (Option Ordering) (Script.compare a b) := by
  refine .bind (toPrimitive a) fun p => .bind (toPrimitive b) fun q => ?_
  split
  · exact .bind (toText p) fun _ => .bind (toText q) fun _ => .pure _
  · exact .bind (toNumber p) fun _ => .bind (toNumber q) fun _ => .pure _

theorem addend (v : Value) : Regular Value (Script.addend v) := by
  cases v with
  | object id receiver =>
    have text : Regular Value (do return .string (← Script.objectToString id) : Script Value) :=
      .bind (objectToString id) fun _ => .pure _
    refine .bind (callable? _) fun f => ?_
    split
    · refine .bind (invoke id "valueOf" []) fun found => ?_
      split
      · exact .pure _
      · exact text
    · exact text
  | _ => exact .pure _

theorem typeName (v : Value) : Regular String (Script.typeName v) := by
  cases v with
  | object id receiver => exact .bind (callable? _) fun _ => .pure _
  | _ => exact .pure _

/-! ## Writing -/

theorem writeLength (array : ObjectId) (v : Value) : Regular Value (Script.writeLength array v) := by
  refine .bind (.read _) fun current => .bind (toNumber v) fun n => ?_
  split
  · exact .bind (.modifyObject _ _) fun _ => .pure _
  · exact raise _ _

theorem writeThrough (hook : Hook) (owner : ObjectId) (v : Value) :
    Regular Value (Script.writeThrough hook owner v) := by
  cases hook with
  | arrayLength => exact writeLength _ _
  | host behavior => exact .perform _

theorem writeVariable (place : Location) (v : Value) : Regular Value (Script.writeVariable place v) := by
  refine .bind (.read _) fun target => .bind (.read _) fun found => ?_
  split
  · exact writeThrough _ _ _
  · exact .bind (.modifyObject _ _) fun _ => .pure _

theorem offer (hook : AdditionHook) (id : ObjectId) (name : String) :
    Regular Bool (Script.offer hook id name) := by
  cases hook with
  | arrayIndex =>
    unfold Script.offer
    cases ArrayIndex.ofName? name with
    | none => exact .pure _
    | some index =>
      refine .bind (.read _) fun live => ?_
      split
      · exact .pure _
      · exact .bind (.modifyObject _ _) fun _ => .pure _
  | host behavior => exact .bind (.perform _) fun _ => .pure _

theorem writeMember (id : ObjectId) (name : String) (v : Value) :
    Regular Value (Script.writeMember id name v) := by
  have store (present : Bool) : Regular Value (do
      if present then
        let _ ← Script.writeVariable ⟨id, name⟩ v
        return v
      else
        Script.modifyObject id (·.push (.plain name v.unbound))
        return v : Script Value) := by
    split
    · exact .bind (writeVariable _ _) fun _ => .pure _
    · exact .bind (.modifyObject _ _) fun _ => .pure _
  refine .bind (.read _) fun owned => ?_
  split
  · exact store true
  · refine .bind (.read _) fun o => ?_
    split
    · exact .bind (offer _ _ _) store
    · exact store false

theorem deleteMember (id : ObjectId) (name : String) : Regular Bool (Script.deleteMember id name) := by
  refine .bind (.read _) fun found => ?_
  cases found with
  | none => exact .pure _
  | some x =>
    dsimp only
    split
    · exact .pure _
    · exact .bind (.modifyObject _ _) fun _ => .pure _

theorem newArray (length : Nat) : Regular ObjectId (Script.newArray length) :=
  .bind (.alloc _) fun _ => .bind (.modifyObject _ _) fun _ => .pure _

theorem arrayOf (values : List Value) : Regular ObjectId (Script.arrayOf values) :=
  .bind (newArray _) fun _ => .bind (.modifyObject _ _) fun _ => .pure _

/-! ## What built-in functions have in common -/

theorem isConstructing : Regular Bool Script.isConstructing := .read _

theorem payload? (v : Value) : Regular (Option Payload) (Script.payload? v) := .read _

theorem setPayload (id : ObjectId) (payload : Payload) : Regular Unit (Script.setPayload id payload) :=
  .modifyObject _ _

theorem newObject : Regular ObjectId Script.newObject := .alloc _

theorem newFunction (tree : FunctionTree) (scope : ObjectId) :
    Regular ObjectId (Script.newFunction tree scope) := .alloc _

theorem callValue (v : Value) (this : Option ObjectId) (args : List Value) :
    Regular Value (Script.callValue v this args) := by
  refine .bind (callable? v) fun f => ?_
  cases f with
  | some f => exact .perform _
  | none => exact typeError _

theorem toTexts (args : List Value) : Regular (List String) (Script.toTexts args) := .each toText args

/-! ## Objects, booleans and errors -/

theorem constructObject (this : Value) (args : List Value) :
    Regular Value (Script.constructObject this args) := by
  have make : Regular Value (do
      if ← Script.isConstructing then return this
      return .ref (← Script.newObject) : Script Value) := by
    refine .bind isConstructing fun constructing => ?_
    split
    · exact .pure _
    · exact .bind newObject fun _ => .pure _
  unfold Script.constructObject
  split
  · exact make
  · exact make
  · exact make
  · exact .bind (toObject _) fun _ => .pure _

theorem applyObject (f : ObjectFunction) (this : Value) (args : List Value) :
    Regular Value (Script.applyObject f this args) := by
  cases f with
  | construct => exact constructObject _ _
  | toText => exact .bind (.read _) fun _ => .pure _
  | toLocaleText => exact .bind (toText _) fun _ => .pure _
  | valueOf => exact .pure _
  | hasOwnProperty => exact .bind (toText _) fun _ => .read _
  | isPrototypeOf => exact .read _
  | isEnumerable => exact .bind (toText _) fun _ => .read _

theorem thisBoolean (this : Value) : Regular Bool (Script.thisBoolean this) := by
  refine .bind (payload? this) fun payload => ?_
  split
  · exact .pure _
  · exact .pure _
  · exact typeError _

theorem applyBoolean (f : BooleanFunction) (this : Value) (args : List Value) :
    Regular Value (Script.applyBoolean f this args) := by
  cases f with
  | construct =>
    refine .bind isConstructing fun constructing => ?_
    split
    · exact .bind (setPayload _ _) fun _ => .pure _
    · exact .pure _
  | toText => exact .bind (thisBoolean this) fun _ => .pure _
  | valueOf => exact .bind (thisBoolean this) fun _ => .pure _

theorem fillError (kind : ErrorKind) (args : List Value) (id : ObjectId) :
    Regular Value (Script.fillError kind args id) := by
  refine .bind (setPayload _ _) fun _ => ?_
  split
  · exact .bind (toText _) fun _ => .bind (writeMember _ _ _) fun _ => .pure _
  · exact .pure _

theorem constructError (kind : ErrorKind) (this : Value) (args : List Value) :
    Regular Value (Script.constructError kind this args) := by
  refine .bind isConstructing fun constructing => ?_
  cases constructing with
  | false => exact .bind (.alloc _) (fillError kind args)
  | true =>
    cases this.id? with
    | none => exact .bind (.alloc _) (fillError kind args)
    | some id => exact fillError kind args id

theorem errorText (this : Value) : Regular Value (Script.errorText this) :=
  .bind (readMember _ _) fun _ => .bind (toText _) fun _ => .bind (readMember _ _) fun _ =>
    .bind (toText _) fun _ => .pure _

theorem applyError (f : ErrorFunction) (this : Value) (args : List Value) :
    Regular Value (Script.applyError f this args) := by
  cases f with
  | construct kind => exact constructError _ _ _
  | toText => exact errorText _

/-! ## Numbers -/

theorem thisNumber (this : Value) : Regular Number (Script.thisNumber this) := by
  refine .bind (payload? this) fun payload => ?_
  split
  · exact .pure _
  · exact .pure _
  · exact typeError _

theorem numberIn (n : Number) (radix : Position) : Regular Value (Script.numberIn n radix) := by
  unfold Script.numberIn
  split
  · exact .pure _
  · split
    · split <;> exact .pure _
    · exact raise _ _
  · exact raise _ _

theorem numberText (this : Value) (args : List Value) : Regular Value (Script.numberText this args) := by
  refine .bind (thisNumber this) fun n => ?_
  cases Script.given? args 0 with
  | none => exact numberIn n (Position.at 10)
  | some v => exact .bind (toPosition v) (numberIn n)

theorem storeNumber (this : Value) (n : Number) : Regular Value (Script.storeNumber this n) := by
  refine .bind isConstructing fun constructing => ?_
  split
  · exact .bind (setPayload _ _) fun _ => .pure _
  · exact .pure _

theorem applyNumber (f : NumberFunction) (this : Value) (args : List Value) :
    Regular Value (Script.applyNumber f this args) := by
  cases f with
  | construct =>
    unfold Script.applyNumber
    cases args.head? with
    | some v => exact .bind (toNumber v) (storeNumber this)
    | none => exact storeNumber this Number.zero
  | toText => exact numberText _ _
  | toLocaleText => exact .bind (thisNumber this) fun _ => .pure _
  | valueOf => exact .bind (thisNumber this) fun _ => .pure _

theorem extreme (better : Number → Number → Bool) (best : Number) (args : List Value) :
    Regular Value (Script.extreme better best args) := by
  induction args generalizing best with
  | nil => exact .pure _
  | cons v rest ih =>
    refine .bind (toNumber v) fun n => ?_
    split
    · exact .pure _
    · exact ih _

theorem applyMath (f : MathFunction) (args : List Value) : Regular Value (Script.applyMath f args) := by
  cases f with
  | real f => exact .bind (toNumber _) fun _ => .pure _
  | atan2 => exact .bind (toNumber _) fun _ => .bind (toNumber _) fun _ => .pure _
  | pow => exact .bind (toNumber _) fun _ => .bind (toNumber _) fun _ => .pure _
  | max => exact extreme _ _ _
  | min => exact extreme _ _ _
  | random => exact .bind (.modify fun _ => .aside ⟨⟨rfl, rfl, rfl⟩, rfl, rfl, rfl⟩) fun _ => .read _

/-! ## Arrays -/

theorem lengthOf (id : ObjectId) : Regular Nat (Script.lengthOf id) :=
  .bind (readMember _ _) fun _ => .bind (toNumber _) fun _ => .pure _

theorem readElements (id : ObjectId) : Regular Elements (Script.readElements id) :=
  .bind (lengthOf id) fun _ => .bind (.read _) fun _ =>
    .bind (.each (fun _ => .bind (readMember _ _) fun _ => .pure _) _) fun _ => .pure _

theorem writeElements (id : ObjectId) (old new : Elements) :
    Regular Unit (Script.writeElements id old new) :=
  .bind (.fold (fun _ _ => .bind (writeMember _ _ _) fun _ => .pure _) _ _) fun _ =>
    .bind (.fold (fun _ _ => .bind (deleteMember _ _) fun _ => .pure _) _ _) fun _ =>
      .bind (writeMember _ _ _) fun _ => .pure _

theorem arrayOfElements (e : Elements) : Regular ObjectId (Script.arrayOfElements e) :=
  .bind (newArray _) fun _ => .bind (.modifyObject _ _) fun _ => .pure _

theorem elementsAsArguments (id : ObjectId) :
    Regular (List Value) (Script.elementsAsArguments id) := by
  refine .bind (readElements id) fun e => ?_
  split
  · exact .bind (raise _ _) fun _ => .pure _
  · exact .pure _

theorem positionFromEnd (args : List Value) (i length default : Nat) :
    Regular Nat (Script.positionFromEnd args i length default) := by
  unfold Script.positionFromEnd
  cases Script.given? args i with
  | none => exact .pure _
  | some v => exact .bind (toPosition v) fun _ => .pure _

theorem elementText (v : Value) : Regular String (Script.elementText v) := by
  unfold Script.elementText
  split
  · exact .pure _
  · exact toText v

theorem joinElements (separator : String) (e : Elements) :
    Regular String (Script.joinElements separator e) := by
  unfold Script.joinElements
  have joined : Regular String (do
      let s ← Script.fold (fun s x => do
        let text := Script.appendSeparators separator (x.1 - s.2) s.1 ++ (← Script.elementText x.2)
        if Script.joinLimit < text.utf8ByteSize then Script.raise .range "invalid string length"
        return (text, x.1)) e.present ("", 0)
      return Script.appendSeparators separator (e.length - 1 - s.2) s.1 : Script String) := by
    refine .bind (.fold (fun _ _ => .bind (elementText _) fun _ => ?_) _ _) fun _ => .pure _
    dsimp only
    split
    · exact .bind (raise _ _) fun _ => .pure _
    · exact .pure _
  dsimp only
  split
  · exact .bind (raise _ _) fun _ => joined
  · exact joined

theorem join (id : ObjectId) (args : List Value) : Regular Value (Script.join id args) := by
  have text (separator : String) : Regular Value (do
      return .string (← Script.joinElements separator (← Script.readElements id)) : Script Value) :=
    .bind (readElements id) fun _ => .bind (joinElements _ _) fun _ => .pure _
  unfold Script.join
  cases Script.given? args 0 with
  | none => exact text ","
  | some v => exact .bind (toText v) text

theorem elementOrder (comparator : Option Value) (a b : Value) :
    Regular Ordering (Script.elementOrder comparator a b) := by
  unfold Script.elementOrder
  split
  · exact .pure _
  · exact .pure _
  · exact .pure _
  · cases comparator with
    | some f => exact .bind (callValue _ _ _) fun _ => .bind (toNumber _) fun _ => .pure _
    | none => exact .bind (toText a) fun _ => .bind (toText b) fun _ => .pure _

theorem mergeSorted (comparator : Option Value) (left right : List Value) :
    Regular (List Value) (Script.mergeSorted comparator left right) := by
  fun_induction Script.mergeSorted comparator left right with
  | case1 right => exact .pure _
  | case2 left => exact .pure _
  | case3 a left b right ihb iha =>
    refine .bind (elementOrder comparator a b) fun order => ?_
    split
    · exact .bind ihb fun _ => .pure _
    · exact .bind iha fun _ => .pure _

theorem sortValues (comparator : Option Value) (values : List Value) :
    Regular (List Value) (Script.sortValues comparator values) := by
  fun_induction Script.sortValues comparator values with
  | case1 => exact .pure _
  | case2 v => exact .pure _
  | case3 a b rest half ihleft ihright =>
    exact .bind ihleft fun _ => .bind ihright fun _ => mergeSorted _ _ _

theorem sort (id : ObjectId) (args : List Value) : Regular Value (Script.sort id args) := by
  have sorted (comparator : Option Value) : Regular Value (do
      let old ← Script.readElements id
      let sorted ← Script.sortValues comparator (old.present.map Prod.snd)
      Script.writeElements id old (.packed old.length sorted)
      return .ref id : Script Value) :=
    .bind (readElements id) fun _ => .bind (sortValues _ _) fun _ => .bind (writeElements _ _ _) fun _ =>
      .pure _
  unfold Script.sort
  cases Script.given? args 0 with
  | none => exact sorted none
  | some f =>
    refine .bind (callable? f) fun known => ?_
    split
    · exact .bind (typeError _) fun _ => sorted (some f)
    · exact sorted (some f)

theorem push (id : ObjectId) (args : List Value) : Regular Value (Script.push id args) :=
  .bind (lengthOf id) fun _ =>
    .bind (.fold (fun _ _ => .bind (writeMember _ _ _) fun _ => .pure _) _ _) fun _ => writeMember _ _ _

theorem pop (id : ObjectId) : Regular Value (Script.pop id) := by
  refine .bind (lengthOf id) fun length => ?_
  cases length with
  | zero => exact .bind (writeMember _ _ _) fun _ => .pure _
  | succ length =>
    exact .bind (readMember _ _) fun _ => .bind (deleteMember _ _) fun _ => .bind (writeMember _ _ _)
      fun _ => .pure _

theorem shift (id : ObjectId) : Regular Value (Script.shift id) := by
  refine .bind (readElements id) fun old => ?_
  split
  · exact .bind (writeMember _ _ _) fun _ => .pure _
  · exact .bind (writeElements _ _ _) fun _ => .pure _

theorem unshift (id : ObjectId) (args : List Value) : Regular Value (Script.unshift id args) :=
  .bind (readElements id) fun _ => .bind (writeElements _ _ _) fun _ => .pure _

theorem splice (id : ObjectId) (args : List Value) : Regular Value (Script.splice id args) := by
  refine .bind (readElements id) fun old => .bind (positionFromEnd _ _ _ _) fun start => ?_
  have replace (new removed : Elements) : Regular Value (do
      Script.writeElements id old new
      return .ref (← Script.arrayOfElements removed) : Script Value) :=
    .bind (writeElements _ _ _) fun _ => .bind (arrayOfElements _) fun _ => .pure _
  dsimp only
  cases args[1]? with
  | none => exact .bind (.pure _) fun _ => replace _ _
  | some v => exact .bind (toPosition v) fun _ => .bind (.pure _) fun _ => replace _ _

theorem slice (id : ObjectId) (args : List Value) : Regular Value (Script.slice id args) :=
  .bind (readElements id) fun _ => .bind (positionFromEnd _ _ _ _) fun _ =>
    .bind (positionFromEnd _ _ _ _) fun _ => .bind (arrayOfElements _) fun _ => .pure _

theorem isArray (v : Value) : Regular Bool (Script.isArray v) := by
  refine .bind (payload? v) fun payload => ?_
  split <;> exact .pure _

theorem append (e : Elements) (v : Value) : Regular Elements (Script.append e v) := by
  refine .bind (isArray v) fun known => ?_
  split
  · exact .bind (readElements _) fun _ => .pure _
  · exact .pure _

theorem concat (id : ObjectId) (args : List Value) : Regular Value (Script.concat id args) := by
  refine .bind (readElements id) fun e => .bind (.fold append _ _) fun e => ?_
  split
  · exact .bind (raise _ _) fun _ => .bind (arrayOfElements _) fun _ => .pure _
  · exact .bind (arrayOfElements _) fun _ => .pure _

theorem fillArray (args : List Value) (id : ObjectId) : Regular Value (Script.fillArray args id) := by
  unfold Script.fillArray
  dsimp only
  split
  · exact .bind (writeMember _ _ _) fun _ => .pure _
  · exact .bind (.fold (fun _ _ => .bind (writeMember _ _ _) fun _ => .pure _) _ _) fun _ => .pure _

theorem constructArray (this : Value) (args : List Value) :
    Regular Value (Script.constructArray this args) := by
  refine .bind isConstructing fun constructing => ?_
  cases constructing with
  | false => exact .bind (newArray 0) (fillArray args)
  | true =>
    cases this.id? with
    | none => exact .bind (newArray 0) (fillArray args)
    | some id => exact .bind (.modifyObject _ _) fun _ => fillArray args id

theorem applyArray (f : ArrayFunction) (this : Value) (args : List Value) :
    Regular Value (Script.applyArray f this args) := by
  cases f with
  | construct => exact constructArray _ _
  | toText => exact .bind (toObject this) fun _ => join _ _
  | join => exact .bind (toObject this) fun _ => join _ _
  | reverse =>
    exact .bind (toObject this) fun _ => .bind (readElements _) fun _ => .bind (writeElements _ _ _) fun _ =>
      .pure _
  | sort => exact .bind (toObject this) fun _ => sort _ _
  | push => exact .bind (toObject this) fun _ => push _ _
  | pop => exact .bind (toObject this) fun _ => pop _
  | shift => exact .bind (toObject this) fun _ => shift _
  | unshift => exact .bind (toObject this) fun _ => unshift _ _
  | splice => exact .bind (toObject this) fun _ => splice _ _
  | slice => exact .bind (toObject this) fun _ => slice _ _
  | concat => exact .bind (toObject this) fun _ => concat _ _

/-! ## Strings -/

theorem thisText (this : Value) : Regular String (Script.thisText this) := by
  refine .bind (payload? this) fun payload => ?_
  split
  · exact .pure _
  · exact .pure _
  · exact toText _

theorem thisChars (this : Value) : Regular (List Char) (Script.thisChars this) :=
  .bind (thisText this) fun _ => .pure _

theorem positionWithin (args : List Value) (i length default : Nat) :
    Regular Nat (Script.positionWithin args i length default) := by
  unfold Script.positionWithin
  cases Script.given? args i with
  | none => exact .pure _
  | some v => exact .bind (toPosition v) fun _ => .pure _

theorem storeString (this : Value) (s : String) : Regular Value (Script.storeString this s) := by
  refine .bind isConstructing fun constructing => ?_
  split
  · exact .bind (setPayload _ _) fun _ => .bind (defineHidden _ _ _) fun _ => .pure _
  · exact .pure _

theorem constructString (this : Value) (args : List Value) :
    Regular Value (Script.constructString this args) := by
  unfold Script.constructString
  cases args.head? with
  | none => exact storeString this ""
  | some v => exact .bind (toText v) (storeString this)

theorem fromCharCode (args : List Value) : Regular Value (Script.fromCharCode args) :=
  .bind (.each (fun _ => .bind (toNumber _) fun _ => .pure _) _) fun _ => .pure _

theorem charAt? (this : Value) (args : List Value) : Regular (Option Char) (Script.charAt? this args) :=
  .bind (thisChars this) fun _ => .bind (toPosition _) fun _ => .pure _

theorem indexOf (this : Value) (args : List Value) : Regular Value (Script.indexOf this args) :=
  .bind (thisChars this) fun _ => .bind (toText _) fun _ => .bind (positionWithin _ _ _ _) fun _ => .pure _

theorem lastStart (args : List Value) (length : Nat) : Regular Nat (Script.lastStart args length) := by
  unfold Script.lastStart
  cases Script.given? args 1 with
  | none => exact .pure _
  | some v =>
    refine .bind (toNumber v) fun n => ?_
    split <;> exact .pure _

theorem lastIndexOf (this : Value) (args : List Value) : Regular Value (Script.lastIndexOf this args) :=
  .bind (thisChars this) fun _ => .bind (toText _) fun _ => .bind (lastStart _ _) fun _ => .pure _

theorem substring (this : Value) (args : List Value) : Regular Value (Script.substring this args) :=
  .bind (thisChars this) fun _ => .bind (positionWithin _ _ _ _) fun _ =>
    .bind (positionWithin _ _ _ _) fun _ => .pure _

theorem substr (this : Value) (args : List Value) : Regular Value (Script.substr this args) :=
  .bind (thisChars this) fun _ => .bind (positionFromEnd _ _ _ _) fun _ =>
    .bind (positionWithin _ _ _ _) fun _ => .pure _

theorem sliceText (this : Value) (args : List Value) : Regular Value (Script.sliceText this args) :=
  .bind (thisChars this) fun _ => .bind (positionFromEnd _ _ _ _) fun _ =>
    .bind (positionFromEnd _ _ _ _) fun _ => .pure _

theorem arrayOfParts (limit : Option Nat) (parts : List (List Char)) :
    Regular Value (Script.arrayOfParts limit parts) := .bind (arrayOf _) fun _ => .pure _

theorem splitUpTo (args : List Value) (cs : List Char) (limit : Option Nat) :
    Regular Value (Script.splitUpTo args cs limit) := by
  unfold Script.splitUpTo
  dsimp only
  cases Script.given? args 0 with
  | none => exact .bind (.pure _) fun _ => arrayOfParts limit _
  | some v => exact .bind (toText v) fun _ => .bind (.pure _) fun _ => arrayOfParts limit _

theorem split (this : Value) (args : List Value) : Regular Value (Script.split this args) := by
  refine .bind (thisChars this) fun cs => ?_
  dsimp only
  cases Script.given? args 1 with
  | none => exact .bind (.pure _) (splitUpTo args cs)
  | some v => exact .bind (toNumber v) fun _ => .bind (.pure _) (splitUpTo args cs)

theorem stringValue (this : Value) : Regular Value (Script.stringValue this) := by
  refine .bind (payload? this) fun payload => ?_
  split
  · exact .pure _
  · exact .pure _
  · exact typeError _

theorem applyString (f : StringFunction) (this : Value) (args : List Value) :
    Regular Value (Script.applyString f this args) := by
  cases f with
  | construct => exact constructString _ _
  | fromCharCode => exact fromCharCode _
  | charAt => exact .bind (charAt? _ _) fun _ => .pure _
  | charCodeAt =>
    refine .bind (charAt? _ _) fun found => ?_
    cases found <;> exact .pure _
  | indexOf => exact indexOf _ _
  | lastIndexOf => exact lastIndexOf _ _
  | substring => exact substring _ _
  | substr => exact substr _ _
  | slice => exact sliceText _ _
  | split => exact split _ _
  | concat => exact .bind (thisText this) fun _ => .bind (toTexts args) fun _ => .pure _
  | toLowerCase => exact .bind (thisChars this) fun _ => .pure _
  | toUpperCase => exact .bind (thisChars this) fun _ => .pure _
  | valueOf => exact stringValue _
  | wrap tag => exact .bind (thisText this) fun _ => .pure _
  | wrapWith tag property => exact .bind (thisText this) fun _ => .bind (toText _) fun _ => .pure _

/-! ## Dates -/

theorem thisTime (this : Value) : Regular (Option Int) (Script.thisTime this) := by
  refine .bind (payload? this) fun payload => ?_
  split
  · exact .pure _
  · exact typeError _

theorem storeTime (this : Value) (t : Option Int) : Regular Value (Script.storeTime this t) := by
  unfold Script.storeTime
  split
  · exact .bind (setPayload _ _) fun _ => .pure _
  · exact .pure _

theorem currentTime : Regular Int Script.currentTime := .bind .config fun _ => .read _

theorem toFields (args : List Value) : Regular (List (Option Int)) (Script.toFields args) :=
  .each (fun _ => .bind (toNumber _) fun _ => .pure _) args

theorem timeOfArguments (args : List Value) : Regular (Option Int) (Script.timeOfArguments args) := by
  refine .bind (toFields args) fun fields => ?_
  dsimp only
  split <;> exact .pure _

theorem timeOfText (text : String) : Regular (Option Int) (Script.timeOfText text) :=
  .bind .config fun _ => .pure _

theorem timeOfValue (v : Value) : Regular (Option Int) (Script.timeOfValue v) := by
  refine .bind (toPrimitive v) fun p => ?_
  split
  · exact timeOfText _
  · exact .bind (toNumber _) fun _ => .pure _

theorem constructDate (this : Value) (args : List Value) :
    Regular Value (Script.constructDate this args) := by
  have store (t : Option Int) : Regular Value (do
      let _ ← Script.storeTime this t
      return this : Script Value) := .bind (storeTime _ _) fun _ => .pure _
  refine .bind isConstructing fun constructing => ?_
  split
  · exact .bind currentTime fun _ => .pure _
  · dsimp only
    split
    · exact .bind (.map currentTime) store
    · exact .bind (timeOfValue _) store
    · exact .bind (timeOfArguments _) store

theorem setFields (this : Value) (args : List Value) (first count : Nat) :
    Regular Value (Script.setFields this args first count) := by
  refine .bind (thisTime this) fun t => .bind (toFields _) fun given => ?_
  split
  · exact storeTime _ _
  · split <;> exact storeTime _ _

theorem setYear (this : Value) (args : List Value) : Regular Value (Script.setYear this args) :=
  .bind (thisTime this) fun _ => .bind (toNumber _) fun _ => storeTime _ _

theorem dateText (format : Int → String) (this : Value) : Regular Value (Script.dateText format this) := by
  refine .bind (thisTime this) fun t => ?_
  cases t <;> exact .pure _

theorem dateNumber (f : Int → Number) (this : Value) : Regular Value (Script.dateNumber f this) := by
  refine .bind (thisTime this) fun t => ?_
  cases t <;> exact .pure _

theorem applyDate (f : DateFunction) (this : Value) (args : List Value) :
    Regular Value (Script.applyDate f this args) := by
  cases f with
  | construct => exact constructDate _ _
  | parse => exact .bind (toText _) fun _ => .bind (timeOfText _) fun _ => .pure _
  | utc => exact .bind (timeOfArguments _) fun _ => .pure _
  | get part => exact dateNumber _ _
  | set first count => exact setFields _ _ _ _
  | valueOf => exact dateNumber _ _
  | getYear => exact dateNumber _ _
  | getTimezoneOffset => exact .bind .config fun _ => dateNumber _ _
  | setTime => exact .bind (thisTime this) fun _ => .bind (toNumber _) fun _ => storeTime _ _
  | setYear => exact setYear _ _
  | toText => exact dateText _ _
  | toGmtText => exact dateText _ _
  | toLocaleText => exact .bind .config fun _ => dateText _ _

end PageScript.Regular
