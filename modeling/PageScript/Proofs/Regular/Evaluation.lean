import PageScript.Embedding.Interpreter
import PageScript.Proofs.Regular.Library

/-! # The evaluation is regular

Expressions, built-in functions and the forms of statements.  What is no part of a regular computation is
done once for each element: its start, where the embedding program may cancel the run, and its end, where an
error is shown that no `try` handles.
-/

set_option autoImplicit false

namespace PageScript

/-- A loop passes a completion on as it is. -/
theorem Completion.flow_pass {c : Completion} {labels : List String} {d : Abrupt}
    (h : c.flow labels = .pass d) : c = .abrupt d := by
  unfold Completion.flow at h
  split at h
  · cases h
  · split at h <;> cases h
    rfl
  · split at h <;> cases h
    rfl
  · cases h
    rfl

namespace Regular

variable {α β : Type} {x : Script α} {v w : Value} {args : List Value}

/-! ## Code -/

theorem evaluate (e : Expression) : Regular Value (Script.evaluate e) := .perform _

theorem runInner (s : Statement) : Regular Value (Script.runInner s) := .perform _

theorem runStatements (body : List Statement) : Regular Value (Script.runStatements body) :=
  .fold (fun _ _ => .bind (.perform _) fun _ => .pure _) _ _

theorem declareFunction (scope : ObjectId) (tree : FunctionTree) :
    Regular Unit (Script.declareFunction scope tree) := by
  unfold Script.declareFunction
  cases tree.name with
  | none => exact .pure _
  | some name => exact .bind (newFunction _ _) fun _ => .bind (declare _ _) fun _ => .modifyObject _ _

theorem hoist (body : List Statement) (scope : ObjectId) : Regular Unit (Script.hoist body scope) :=
  .bind (.fold (fun _ _ => declare _ _) _ _) fun _ => .fold (fun _ _ => declareFunction _ _) _ _

theorem runSource (source : String) : Regular Value (Script.runSource source) := by
  unfold Script.runSource
  split
  · exact raise _ _
  · exact .bind (.read _) fun _ => within _ (.bind (hoist _ _) fun _ => runStatements _)

/-! ## Functions of the global object and functions on functions -/

theorem mapText (f : List Char → List Char) (v : Value) : Regular Value (Script.mapText f v) :=
  .bind (toText v) fun _ => .pure _

theorem applyGlobal (f : GlobalFunction) (args : List Value) :
    Regular Value (Script.applyGlobal f args) := by
  cases f with
  | parseInt => exact .bind (toText _) fun _ => .bind (toNumber _) fun _ => .pure _
  | parseFloat => exact .bind (toText _) fun _ => .pure _
  | isNaN => exact .bind (toNumber _) fun _ => .pure _
  | isFinite => exact .bind (toNumber _) fun _ => .pure _
  | eval =>
    unfold Script.applyGlobal
    dsimp only
    split
    · exact runSource _
    · exact .pure _
  | escape => exact mapText _ _
  | unescape => exact mapText _ _

theorem constructFunction (args : List Value) : Regular Value (Script.constructFunction args) := by
  refine .bind (toTexts args) fun texts => ?_
  split
  · exact raise _ _
  · split
    · exact .bind (newFunction _ _) fun _ => .pure _
    · exact raise _ _

theorem toReceiver (v : Value) : Regular (Option ObjectId) (Script.toReceiver v) := by
  unfold Script.toReceiver
  split
  · exact .pure _
  · exact .map (toObject v)

theorem functionText (this : Value) : Regular Value (Script.functionText this) := by
  refine .bind (.read _) fun callable => ?_
  split
  · exact .pure _
  · exact .pure _
  · exact typeError _

theorem argumentsOf (list : Value) : Regular (List Value) (Script.argumentsOf list) := by
  unfold Script.argumentsOf
  split
  · exact .pure _
  · split
    · exact elementsAsArguments _
    · exact typeError _

theorem applyFunction (f : FunctionFunction) (this : Value) (args : List Value) :
    Regular Value (Script.applyFunction f this args) := by
  cases f with
  | construct => exact constructFunction _
  | toText => exact functionText _
  | call => exact .bind (toReceiver _) fun _ => callValue _ _ _
  | apply => exact .bind (toReceiver _) fun _ => .bind (argumentsOf _) fun _ => callValue _ _ _

/-- What holds of regular computations, and of the functions of the embedding program, holds of all
built-in functions. -/
theorem applyNative {P : Script Value → Prop} (hregular : ∀ {x}, Regular Value x → P x)
    {embedded : String → Value → List Value → Script Value}
    (hembedded : ∀ behavior this args, P (embedded behavior this args)) (native : Native)
    (this : Value) (args : List Value) : P (Script.applyNative embedded native this args) := by
  cases native with
  | object f => exact hregular (applyObject _ _ _)
  | function f => exact hregular (applyFunction _ _ _)
  | boolean f => exact hregular (applyBoolean _ _ _)
  | number f => exact hregular (applyNumber _ _ _)
  | global f => exact hregular (applyGlobal _ _)
  | math f => exact hregular (applyMath _ _)
  | string f => exact hregular (applyString _ _ _)
  | array f => exact hregular (applyArray _ _ _)
  | date f => exact hregular (applyDate _ _ _)
  | error f => exact hregular (applyError _ _ _)
  | host behavior => exact hembedded _ _ _

/-! ## Operators -/

theorem toNumbers (l r : Value) : Regular (Number × Number) (Script.toNumbers l r) :=
  .bind (toNumber l) fun _ => .bind (toNumber r) fun _ => .pure _

theorem applyUnary (op : UnaryOp) (v : Value) : Regular Value (Script.applyUnary op v) := by
  cases op with
  | minus => exact .bind (toNumber v) fun _ => .pure _
  | plus => exact .bind (toNumber v) fun _ => .pure _
  | not => exact .pure _
  | complement => exact .bind (toNumber v) fun _ => .pure _
  | typeOf => exact .bind (typeName v) fun _ => .pure _
  | void => exact .pure _
  | delete => exact .pure _

theorem addValues (l r : Value) : Regular Value (Script.addValues l r) := by
  refine .bind (addend l) fun a => .bind (addend r) fun b => ?_
  split
  · exact .bind (toText a) fun _ => .bind (toText b) fun _ => .pure _
  · exact .bind (toNumber a) fun _ => .bind (toNumber b) fun _ => .pure _

theorem isInstance (v : Value) (function : ObjectId) : Regular Bool (Script.isInstance v function) := by
  cases v with
  | object id receiver => exact .bind (prototypeOf function) fun _ => .read _
  | _ => exact .pure _

theorem applyBinary (op : BinaryOp) (l r : Value) : Regular Value (Script.applyBinary op l r) := by
  cases op with
  | add => exact addValues _ _
  | sub | mul | div | mod => exact .bind (toNumbers l r) fun _ => .pure _
  | equal => exact .bind (looselyEqual l r) fun _ => .pure _
  | notEqual => exact .bind (looselyEqual l r) fun _ => .pure _
  | strictEqual => exact .pure _
  | strictNotEqual => exact .pure _
  | less | greater | lessEqual | greaterEqual => exact .bind (compare l r) fun _ => .pure _
  | shiftLeft | shiftRight | unsignedShiftRight | bitAnd | bitOr | bitXor =>
    exact .bind (toNumbers l r) fun _ => .pure _
  | isIn =>
    unfold Script.applyBinary
    cases r.id? with
    | none => exact typeError _
    | some object => exact .bind (toText l) fun _ => .read _
  | instanceOf =>
    refine .bind (callable? r) fun f => ?_
    cases f with
    | none => exact typeError _
    | some f => exact .bind (isInstance l f) fun _ => .pure _

/-! ## Targets -/

theorem evaluateKey (key : Expression) : Regular String (Script.evaluateKey key) :=
  .bind (evaluate key) fun _ => toText _

theorem evaluateMember (object : Expression) {key : Script String} (hkey : Regular String key) :
    Regular (Value × String) (Script.evaluateMember object key) := by
  refine .bind (evaluate object) fun base => .bind hkey fun name => ?_
  split
  · exact .bind (typeError _) fun _ => .pure _
  · exact .pure _

theorem memberTarget (object : Expression) {key : Script String} (hkey : Regular String key) :
    Regular Target (Script.memberTarget object key) :=
  .bind (evaluateMember object hkey) fun _ => .bind (toObject _) fun _ => .pure _

theorem findTarget (e : Expression) : Regular Target (Script.findTarget e) := by
  unfold Script.findTarget
  split
  · exact .bind (binding _) fun _ => .pure _
  · exact memberTarget _ (.pure _)
  · exact memberTarget _ (evaluateKey _)
  · exact raise _ _

theorem readTarget (target : Target) : Regular Value (Script.readTarget target) := by
  unfold Script.readTarget
  split
  · exact readVariable _
  · exact readMember _ _

theorem writeTarget (target : Target) (v : Value) : Regular Value (Script.writeTarget target v) := by
  unfold Script.writeTarget
  split
  · exact .bind (writeVariable _ _) fun _ => .pure _
  · exact writeMember _ _ _

theorem assign (op : Option BinaryOp) (target value : Expression) :
    Regular Value (Script.assign op target value) := by
  refine .bind (findTarget target) fun target => ?_
  cases op with
  | none => exact .bind (evaluate value) fun _ => writeTarget _ _
  | some op =>
    exact .bind (readTarget target) fun _ => .bind (evaluate value) fun _ => .bind (applyBinary _ _ _)
      fun _ => writeTarget _ _

theorem update (op : UpdateOp) (before : Bool) (target : Expression) :
    Regular Value (Script.update op before target) :=
  .bind (findTarget target) fun _ => .bind (readTarget _) fun _ => .bind (toNumber _) fun _ =>
    .bind (writeTarget _ _) fun _ => .pure _

theorem deleteFrom (object : Expression) {key : Script String} (hkey : Regular String key) :
    Regular Bool (Script.deleteFrom object key) := by
  refine .bind (evaluate object) fun base => .bind hkey fun name => ?_
  cases base.id? with
  | none => exact .pure _
  | some id => exact deleteMember _ _

theorem delete (e : Expression) : Regular Value (Script.delete e) := by
  unfold Script.delete
  split
  · exact .bind (deleteFrom _ (.pure _)) fun _ => .pure _
  · exact .bind (deleteFrom _ (evaluateKey _)) fun _ => .pure _
  · refine .bind (.read _) fun found => ?_
    cases found with
    | none => exact .pure _
    | some b => exact .bind (deleteMember _ _) fun _ => .pure _
  · exact .bind (evaluate _) fun _ => .pure _

/-! ## Calls -/

theorem evaluateCallee (e : Expression) : Regular Callee (Script.evaluateCallee e) := by
  unfold Script.evaluateCallee
  split
  · exact .bind (evaluateMember _ (.pure _)) fun _ => .bind (readMember _ _) fun _ => .pure _
  · exact .bind (evaluateMember _ (evaluateKey _)) fun _ => .bind (readMember _ _) fun _ => .pure _
  · exact .bind (binding _) fun _ => .bind (readVariable _) fun _ => .pure _
  · exact .bind (evaluate _) fun _ => .pure _

theorem evaluateArguments (args : List Expression) :
    Regular (List Value) (Script.evaluateArguments args) := .each evaluate args

theorem evaluateCall (callee : Expression) (args : List Expression) :
    Regular Value (Script.evaluateCall callee args) := by
  refine .bind (evaluateCallee callee) fun found => ?_
  dsimp only
  split
  · exact typeError _
  · refine .bind (.read _) fun kind => ?_
    split
    · exact .bind (evaluateArguments args) fun _ => .perform _
    · exact .bind (evaluateArguments args) fun _ => .bind (toText _) fun _ => readMember _ _
    · exact typeError _

theorem construct (function : ObjectId) (args : List Value) :
    Regular Value (Script.construct function args) := by
  refine .bind (prototypeOf function) fun proto => .bind (.alloc _) fun id => ?_
  refine .bind (.modify fun m => .heap m _) fun _ =>
    .bind (.afterwards (.perform _) _ fun _ => ⟨⟨rfl, rfl, rfl⟩, rfl, rfl, rfl⟩) fun result => ?_
  split <;> exact .pure _

theorem evaluateNew (callee : Expression) (args : List Expression) :
    Regular Value (Script.evaluateNew callee args) := by
  refine .bind (evaluate callee) fun f => .bind (callable? f) fun found => ?_
  cases found with
  | none => exact typeError _
  | some id => exact .bind (evaluateArguments args) fun _ => construct _ _

theorem newArguments (function locals : ObjectId) (parameters : List String) (args : List Value) :
    Regular ObjectId (Script.newArguments function locals parameters args) :=
  .bind (newArray _) fun _ => .bind (.modifyObject _ _) fun _ => .pure _

theorem runFunction (f : ObjectId) (tree : FunctionTree) (scope this : ObjectId) (args : List Value)
    (constructing : Bool) : Regular Value (Script.runFunction f tree scope this args constructing) :=
  .bind (.alloc _) fun _ => .bind (newArguments _ _ _ _) fun _ => .bind (.modifyObject _ _) fun _ =>
    within _ (.bind (hoist _ _) fun _ => .bind (runStatements _) fun _ => .pure _)

/-! ## Expressions -/

theorem evaluateArray (elements : List (Option Expression)) :
    Regular Value (Script.evaluateArray elements) := by
  refine .bind (newArray _) fun array => .bind (.fold (fun _ element => ?_) _ _) fun _ => .pure _
  dsimp only
  split
  · exact .bind (evaluate _) fun _ => .bind (writeMember _ _ _) fun _ => .pure _
  · exact .pure _

theorem evaluateObject (properties : List (PropertyKey × Expression)) :
    Regular Value (Script.evaluateObject properties) :=
  .bind newObject fun _ =>
    .bind (.fold (fun _ _ => .bind (evaluate _) fun _ => .bind (writeMember _ _ _) fun _ => .pure _) _ _)
      fun _ => .pure _

theorem evaluateFunction (tree : FunctionTree) : Regular Value (Script.evaluateFunction tree) := by
  refine .bind (.read _) fun locals => ?_
  cases tree.name with
  | none => exact .bind (newFunction _ _) fun _ => .pure _
  | some name =>
    exact .bind (.alloc _) fun _ => .bind (newFunction _ _) fun _ => .bind (.modifyObject _ _) fun _ =>
      .pure _

theorem evaluateTypeOf (operand : Expression) : Regular Value (Script.evaluateTypeOf operand) := by
  have name (v : Value) : Regular Value (do return .string (← Script.typeName v) : Script Value) :=
    .bind (typeName v) fun _ => .pure _
  unfold Script.evaluateTypeOf
  dsimp only
  split
  · refine .bind (.read _) fun found => ?_
    cases found with
    | none => exact .bind (.pure _) name
    | some b => exact .bind (readVariable _) name
  · exact .bind (evaluate _) name

theorem evaluateUnary (op : UnaryOp) (operand : Expression) :
    Regular Value (Script.evaluateUnary op operand) := by
  unfold Script.evaluateUnary
  split
  · exact evaluateTypeOf _
  · exact delete _
  · exact .bind (evaluate _) fun _ => applyUnary _ _

theorem expressionForm (e : Expression) : Regular Value (Script.expressionForm e) := by
  unfold Script.expressionForm
  split
  · exact .pure _
  · exact .bind (binding _) fun _ => readVariable _
  · exact .read _
  · exact evaluateArray _
  · exact evaluateObject _
  · exact evaluateFunction _
  · exact evaluateUnary _ _
  · exact .bind (evaluate _) fun _ => .bind (evaluate _) fun _ => applyBinary _ _ _
  · refine .bind (evaluate _) fun l => ?_
    split
    · exact .pure _
    · exact evaluate _
  · exact update _ _ _
  · exact assign _ _ _
  · refine .bind (evaluate _) fun test => ?_
    split <;> exact evaluate _
  · exact evaluateCall _ _
  · exact evaluateNew _ _
  · exact .bind (evaluateMember _ (.pure _)) fun _ => readMember _ _
  · exact .bind (evaluateMember _ (evaluateKey _)) fun _ => readMember _ _
  · exact .fold (fun _ _ => evaluate _) _ _

/-! ## Loops -/

theorem testHolds (test : Option Expression) : Regular Bool (Script.testHolds test) := by
  cases test with
  | none => exact .pure _
  | some e => exact .bind (evaluate e) fun _ => .pure _

theorem afterBody (c : Completion) (hc : c ≠ .abrupt .stopped) (labels : List String) (last : Value)
    {more : Script Bool} (hmore : Regular Bool more) : Regular (Sum Value Value)
      (match c.flow labels with
      | .next v => do
        let last := v.getD last
        return if ← more then .inl last else .inr last
      | .exit => return .inr last
      | .pass c => Script.abrupt c : Script (Sum Value Value)) := by
  split
  · exact .bind hmore fun _ => .pure _
  · exact .pure _
  · rename_i hpass
    refine .abrupt _ fun hstop => hc ?_
    rw [Completion.flow_pass hpass, hstop]

theorem runBody (labels : List String) (body : Statement) (last : Value) {more : Script Bool}
    (hmore : Regular Bool more) : Regular (Sum Value Value) (Script.runBody labels body last more) :=
  .catching (runInner body) (fun c hc => afterBody c hc labels last hmore) rfl

/-- The body of a loop is an element, and a stop of it is passed on. -/
theorem busy_runBody (labels : List String) (body : Statement) (last : Value) {more : Script Bool}
    (hmore : Regular Bool more) : (Script.runBody labels body last more).Busy :=
  Composed.busy_attempt (t := .statement body []) rfl (fun c hc => (afterBody c hc labels last hmore).composed) rfl

theorem busy_testHolds (test : Expression) : (Script.testHolds (some test)).Busy :=
  Composed.busy_perform (t := .expression test) rfl fun _ => .pure _

theorem declareVariables (declarators : List Declarator) :
    Regular Unit (Script.declareVariables declarators) := by
  refine .bind (.read _) fun locals => .fold (fun _ d => ?_) _ _
  cases d with
  | mk name initial =>
    refine .bind (declare _ _) fun _ => ?_
    cases initial with
    | none => exact .pure _
    | some e => exact .bind (evaluate e) fun _ => .bind (writeVariable _ _) fun _ => .pure _

theorem runWhile (test : Expression) (body : Statement) (labels : List String) :
    Regular Value (Script.runWhile test body labels) := by
  have next (last : Value) (holds : Bool) : Regular (Sum Value Value)
      (if holds then Script.runBody labels body last (return true) else return .inr last) := by
    split
    · exact runBody _ _ _ (.pure _)
    · exact .pure _
  exact .iterate (fun last => .bind (testHolds _) (next last))
    (fun last => Composed.busy_bind (busy_testHolds test) fun holds => (next last holds).composed) _

theorem runDo (body : Statement) (test : Expression) (labels : List String) :
    Regular Value (Script.runDo body test labels) :=
  .iterate (fun _ => runBody _ _ _ (testHolds _)) (fun _ => busy_runBody _ _ _ (testHolds _)) _

theorem runForStart (start : ForStart) : Regular Unit (Script.runForStart start) := by
  cases start with
  | nothing => exact .pure _
  | declare declarators => exact declareVariables _
  | expression e => exact .bind (evaluate e) fun _ => .pure _

theorem runForUpdate (update : Option Expression) : Regular Bool (Script.runForUpdate update) := by
  cases update with
  | none => exact .pure _
  | some e => exact .bind (evaluate e) fun _ => .pure _

theorem runFor (start : ForStart) (test update : Option Expression) (body : Statement)
    (labels : List String) : Regular Value (Script.runFor start test update body labels) := by
  have next (last : Value) (holds : Bool) : Regular (Sum Value Value)
      (if holds then Script.runBody labels body last (Script.runForUpdate update)
        else return .inr last) := by
    split
    · exact runBody _ _ _ (runForUpdate _)
    · exact .pure _
  refine .bind (runForStart start) fun _ =>
    .iterate (fun last => .bind (testHolds _) (next last)) (fun last => ?_) _
  -- Without a test the body is the first element of a round.
  cases test with
  | none => exact busy_runBody labels body last (runForUpdate update)
  | some e => exact Composed.busy_bind (busy_testHolds e) fun holds => (next last holds).composed

theorem runForIn (object : Expression) {store : Value → Script Unit} (hstore : ∀ v, Regular Unit (store v))
    (body : Statement) (labels : List String) :
    Regular Value (Script.runForIn object store body labels) := by
  refine .bind (evaluate object) fun subject => ?_
  split
  · exact .pure _
  · refine .bind (toObject _) fun id => .bind (.read _) fun names => .foldUntil (fun last name => ?_) _ _
    refine .bind (.read _) fun present => ?_
    split
    · exact .bind (hstore _) fun _ => runBody _ _ _ (.pure _)
    · exact .pure _

theorem runForVariable (d : Declarator) (object : Expression) (body : Statement) (labels : List String) :
    Regular Value (Script.runForVariable d object body labels) :=
  .bind (declareVariables _) fun _ =>
    runForIn _ (fun _ => .bind (.read _) fun _ => .bind (writeVariable _ _) fun _ => .pure _) _ _

theorem runForTarget (target object : Expression) (body : Statement) (labels : List String) :
    Regular Value (Script.runForTarget target object body labels) :=
  runForIn _ (fun _ => .bind (findTarget _) fun _ => .bind (writeTarget _ _) fun _ => .pure _) _ _

/-! ## The texts of errors -/

theorem describe (v : Value) : Regular (ErrorKind × String) (Script.describe v) := by
  refine .bind (.read _) fun payload => ?_
  split
  · refine .bind (.attempt (readMember v "message")) fun c => ?_
    split
    · exact .bind (display _) fun _ => .pure _
    · exact .pure _
  · exact .bind (display _) fun _ => .pure _

/-! ## Statements -/

theorem runGuarded (body : List Statement) : Regular Value (Script.runGuarded body) :=
  .guarded (runStatements body)

theorem runHandler (parameter : String) (handler : List Statement) (v : Value) :
    Regular Value (Script.runHandler parameter handler v) :=
  .bind (.read _) fun _ => .bind (declare _ _) fun _ => .bind (writeVariable _ _) fun _ =>
    .bind (.modifyObject _ _) fun _ => runStatements _

theorem runCatching (body : List Statement) (parameter : String) (handler : List Statement) :
    Regular Value (Script.runCatching body parameter handler) := by
  refine .catching (runGuarded body) (fun c hc => ?_) rfl
  split
  · exact runHandler _ _ _
  · exact complete c hc

theorem runFinally {x : Script Value} (hx : Regular Value x) (final : List Statement) :
    Regular Value (Script.runFinally x final) := by
  refine .catching hx (fun c hc => ?_) rfl
  split
  · exact absurd rfl hc
  · exact .bind (runStatements final) fun _ => complete c hc

theorem matchingClauses (v : Value) (clauses : List SwitchClause) :
    Regular (Option (List SwitchClause)) (Script.matchingClauses v clauses) := by
  induction clauses with
  | nil => exact .pure _
  | cons clause rest ih =>
    cases clause with
    | mk test body =>
      cases test with
      | none => exact ih
      | some test =>
        refine .bind (evaluate test) fun w => ?_
        split
        · exact .pure _
        · exact ih

theorem runUntilBreak (labels : List String) (body : List Statement) :
    Regular Value (Script.runUntilBreak labels body) := by
  refine .foldUntil (fun last s => .catching (runInner s) (fun c hc => ?_) rfl) _ _
  split
  · exact .pure _
  · split
    · exact .pure _
    · exact .abrupt _ nofun
  · refine .abrupt _ fun hstop => hc ?_
    rw [hstop]

theorem runSwitch (value : Expression) (clauses : List SwitchClause) (labels : List String) :
    Regular Value (Script.runSwitch value clauses labels) :=
  .bind (evaluate value) fun _ => .bind (matchingClauses _ _) fun _ => runUntilBreak _ _

theorem runLabeled (label : String) (body : Statement) (labels : List String) :
    Regular Value (Script.runLabeled label body labels) := by
  refine .catching (.perform _) (fun c hc => ?_) rfl
  split
  · split
    · exact .pure _
    · exact .abrupt _ nofun
  · exact complete c hc

theorem runWith (object : Expression) (body : Statement) : Regular Value (Script.runWith object body) :=
  .bind (evaluate object) fun _ => .bind (toObject _) fun _ =>
    .bind (.modify fun _ => .aside ⟨⟨rfl, rfl, rfl⟩, rfl, rfl, rfl⟩) fun _ =>
      .afterwards (runInner body) _ fun _ => ⟨⟨rfl, rfl, rfl⟩, rfl, rfl, rfl⟩

theorem statementForm (form : StatementForm) (labels : List String) :
    Regular Value (Script.statementForm form labels) := by
  cases form with
  | empty => exact .pure _
  | function tree => exact .pure _
  | expression e => exact evaluate e
  | block body => exact runStatements body
  | declare declarators => exact .bind (declareVariables _) fun _ => .pure _
  | ifThen test yes =>
    refine .bind (evaluate test) fun v => ?_
    split
    · exact runInner yes
    · exact .pure _
  | ifElse test yes no =>
    refine .bind (evaluate test) fun v => ?_
    split
    · exact runInner yes
    · exact runInner no
  | whileLoop test body => exact runWhile _ _ _
  | doLoop body test => exact runDo _ _ _
  | forLoop start test update body => exact runFor _ _ _ _ _
  | forVariable d object body => exact runForVariable _ _ _ _
  | forTarget target object body => exact runForTarget _ _ _ _
  | returnValue value =>
    cases value with
    | none => exact .abrupt _ nofun
    | some e => exact .bind (evaluate e) fun _ => .abrupt _ nofun
  | breakTo label => exact .abrupt _ nofun
  | continueTo label => exact .abrupt _ nofun
  | throw e => exact .bind (evaluate e) fun _ => .abrupt _ nofun
  | tryCatch body parameter handler => exact runCatching _ _ _
  | tryFinally body final => exact runFinally (runGuarded _) _
  | tryCatchFinally body parameter handler final => exact runFinally (runCatching _ _ _) _
  | switch value clauses => exact runSwitch _ _ _
  | labeled label body => exact runLabeled _ _ _
  | withObject object body => exact runWith _ _

end Regular

end PageScript
