import PageScript.Proofs.Elements
import PageScript.Proofs.Hoisting
import PageScript.Proofs.Simulation.Checked

/-! # The code of one activation

A statement performs the statements that stand in it, and an expression performs none; all other code runs in
activations of its own.  So whatever an activation comes to run is part of the list of statements that it was
entered with.
-/

set_option autoImplicit false

namespace PageScript

/-- Whether a task is to run one of some statements, or is no statement at all. -/
def Task.Within (own : Statement → Prop) : Task → Prop
  | .statement s _ => own s
  | _ => True

/-! ## Without text

The reads, writes and conversions of the library perform calls and hooks only.
-/

/-- Tasks that are calls or hooks, on any machine. -/
def Invariant.textless : Invariant where
  Ghost := Unit
  inv _ _ _ := True
  spent _ _ := True
  text := False
  spend _ := trivial
  uncaught _ _ := trivial
  frame _ _ _ _ := ⟨(), trivial, trivial, fun _ => trivial, fun _ => trivial⟩

theorem Invariant.textless_ends {α : Type} {k : Course} {V : Matching α} (hV : ∀ v, V .identity v v)
    (g : textless.Ghost) (o : Outcome α) : textless.toSimulation.Ends k g .identity V o o := by
  cases o with
  | value v m => exact .value (le_refl _) (hV v) ⟨rfl, rfl, trivial⟩
  | abrupt c m =>
    refine .abrupt (le_refl _) ?_ (fun j _ => .inl trivial) ⟨rfl, rfl, trivial⟩
    cases c with
    | returned v => exact .returned (.refl v)
    | thrown v => exact .thrown (.refl v)
    | _ => constructor
  | exhausted m => exact .exhausted ⟨rfl, trivial⟩

namespace Script

variable {α β σ : Type} {own : Statement → Prop}

/-- Whether a computation performs no statements but some, and otherwise any tasks. -/
def Poses (own : Statement → Prop) (x : Script α) : Prop :=
  ∀ (e : Engine) (perform : Task → Machine → Outcome Value),
    (∀ t : Task, t.Within own → perform t = e.perform t) → x { e with perform := perform } = x e

namespace Poses

theorem of_runs {start : Phase} {k : Course} {x : Script α} {V : Matching α}
    (h : Invariant.textless.toSimulation.RunsAt () start k .identity V x x) (hV : V.Monotone)
    (heq : ∀ v w, V .identity v w → v = w) : Poses own x := by
  intro e perform hsame
  funext m
  refine Invariant.textless.diagonal.ends_eq hV heq (h.ends e { e with perform := perform } ?_ m m
    ⟨rfl, rfl, trivial⟩)
  refine ⟨rfl, trivial, rfl, trivial, rfl, rfl, rfl, ?_, ?_, ?_, ?_, False.elim, rfl⟩
  · rintro es _ rfl n
    rfl
  · rintro es _ rfl r
    rfl
  · rintro es _ rfl d
    rfl
  · rintro p t t' ht g n n' ⟨rfl, rfl, -⟩
    cases ht.eq (le_refl _)
    have hwithin : t.Within own := by
      cases ht with
      | statement labels trees => exact trees.text.elim
      | _ => trivial
    show Invariant.textless.toSimulation.Ends t.course g .identity Value.Matches _ (perform t n')
    rw [hsame t hwithin]
    exact Invariant.textless_ends Value.Matches.refl g _

theorem of_same {x : Script α} (h : Invariant.textless.toSimulation.Follows [] .identity .same x x) :
    Poses own x := of_runs (h.within ()) Matching.same_mono fun _ _ h => h

theorem of_value {x : Script Value}
    (h : Invariant.textless.toSimulation.Follows [] .identity Value.Matches x x) : Poses own x :=
  of_runs (h.within ()) Value.Matches.mono fun _ _ h => h.eq

theorem of_id {x : Script ObjectId} (h : Invariant.textless.toSimulation.Follows [] .identity .id x x) :
    Poses own x := of_runs (h.within ()) Matching.id_mono fun _ _ h => h

/-! ### Composition -/

theorem pure (a : α) : Poses own (pure a) := fun _ _ _ => rfl

theorem read (f : Machine → α) : Poses own (Script.read f) := fun _ _ _ => rfl

theorem modify (f : Machine → Machine) : Poses own (Script.modify f) := fun _ _ _ => rfl

theorem abrupt (c : Abrupt) : Poses own (Script.abrupt c : Script α) := fun _ _ _ => rfl

theorem perform {t : Task} (ht : t.Within own) : Poses own (Script.perform t) := fun _ _ hsame => hsame t ht

/-- What comes next only has to be right for the values that may be yielded. -/
theorem bind_yields {P : α → Prop} {x : Script α} {f : α → Script β} (hx : Poses own x) (hyields : Yields P x)
    (hf : ∀ a, P a → Poses own (f a)) : Poses own (x >>= f) := by
  intro e perform hsame
  funext m
  show Script.bind x f _ m = Script.bind x f e m
  unfold Script.bind
  rw [hx e perform hsame]
  split
  · rename_i a n ha
    exact congrFun (hf a (hyields e m a n ha) e perform hsame) n
  · rfl
  · rfl

theorem bind {x : Script α} {f : α → Script β} (hx : Poses own x) (hf : ∀ a, Poses own (f a)) :
    Poses own (x >>= f) := hx.bind_yields (yields_any x) fun a _ => hf a

theorem map {f : α → β} {x : Script α} (hx : Poses own x) : Poses own (f <$> x) :=
  hx.bind fun a => .pure (f a)

theorem attempt {x : Script Value} (hx : Poses own x) : Poses own (Script.attempt x) := by
  intro e perform hsame
  unfold Script.attempt
  rw [hx e perform hsame]

theorem afterwards {x : Script α} (hx : Poses own x) (f : Machine → Machine) :
    Poses own (Script.afterwards x f) := by
  intro e perform hsame
  unfold Script.afterwards
  rw [hx e perform hsame]

theorem complete (c : Completion) : Poses own (Script.complete c) := by
  cases c with
  | normal v => exact .pure v
  | abrupt c => exact .abrupt c

theorem fold {step : σ → β → Script σ} {items : List β} (hstep : ∀ b ∈ items, ∀ s, Poses own (step s b))
    (s : σ) : Poses own (Script.fold step items s) := by
  intro e perform hsame
  funext m
  induction items generalizing s m with
  | nil => rfl
  | cons b rest ih =>
    show foldOver step (b :: rest) s _ m = foldOver step (b :: rest) s e m
    unfold foldOver
    rw [hstep b (.head _) s e perform hsame]
    split
    · exact ih (fun b hb => hstep b (.tail _ hb)) _ _
    · rfl
    · rfl

theorem each {f : β → Script α} (hf : ∀ b, Poses own (f b)) (items : List β) :
    Poses own (Script.each f items) :=
  .bind (.fold (fun b _ _ => .bind (hf b) fun _ => .pure _) []) fun _ => .pure _

theorem foldUntil {step : σ → β → Script (Sum σ σ)} {items : List β}
    (hstep : ∀ b ∈ items, ∀ s, Poses own (step s b)) (s : σ) :
    Poses own (Script.foldUntil step items s) := by
  intro e perform hsame
  funext m
  induction items generalizing s m with
  | nil => rfl
  | cons b rest ih =>
    show foldOverUntil step (b :: rest) s _ m = foldOverUntil step (b :: rest) s e m
    unfold foldOverUntil
    rw [hstep b (.head _) s e perform hsame]
    split
    · exact ih (fun b hb => hstep b (.tail _ hb)) _ _
    · rfl
    · rfl
    · rfl

theorem iterate {round : σ → Script (Sum σ α)} (hround : ∀ s, Poses own (round s)) (s : σ) :
    Poses own (Script.iterate round s) := by
  intro e perform hsame
  have hrounds : ∀ rounds s, iterateUpTo round rounds s { e with perform := perform }
      = iterateUpTo round rounds s e := by
    intro rounds
    induction rounds with
    | zero => exact fun _ => rfl
    | succ rounds ih =>
      intro s
      funext m
      unfold iterateUpTo
      rw [hround s e perform hsame]
      split
      · exact congrFun (ih _) _
      · rfl
      · rfl
      · rfl
  exact hrounds e.rounds s

/-! ### The library -/

theorem typeError (message : String) : Poses own (Script.typeError message : Script α) :=
  of_same (Simulation.typeError_follows message)

theorem raise (kind : ErrorKind) (message : String) : Poses own (Script.raise kind message : Script α) :=
  of_same (Simulation.raise_follows kind message)

theorem toText (v : Value) : Poses own (Script.toText v) := of_same (Simulation.toText_follows (.refl v))

theorem toNumber (v : Value) : Poses own (Script.toNumber v) :=
  of_same (Simulation.toNumber_follows (.refl v))

theorem toObject (v : Value) : Poses own (Script.toObject v) := of_id (Simulation.toObject_follows (.refl v))

theorem typeName (v : Value) : Poses own (Script.typeName v) :=
  of_same (Simulation.typeName_follows (.refl v))

theorem prototypeOf (function : ObjectId) : Poses own (Script.prototypeOf function) :=
  of_id (Simulation.prototypeOf_follows rfl)

theorem readVariable (place : Location) : Poses own (Script.readVariable place) :=
  of_value (Simulation.readVariable_follows ⟨rfl, rfl⟩)

theorem readMember (v : Value) (name : String) : Poses own (Script.readMember v name) :=
  of_value (Simulation.readMember_follows (.refl v) name)

theorem writeVariable (place : Location) (v : Value) : Poses own (Script.writeVariable place v) :=
  of_value (Simulation.writeVariable_follows ⟨rfl, rfl⟩ (.refl v))

theorem writeMember (object : ObjectId) (name : String) (v : Value) :
    Poses own (Script.writeMember object name v) :=
  of_value (Simulation.writeMember_follows rfl name (.refl v))

theorem deleteMember (object : ObjectId) (name : String) : Poses own (Script.deleteMember object name) :=
  of_same (Simulation.deleteMember_follows rfl name)

theorem applyUnary (op : UnaryOp) (v : Value) : Poses own (Script.applyUnary op v) :=
  of_value (Simulation.applyUnary_follows op (.refl v))

theorem applyBinary (op : BinaryOp) (l r : Value) : Poses own (Script.applyBinary op l r) :=
  of_value (Simulation.applyBinary_follows op (.refl l) (.refl r))

theorem construct (function : ObjectId) (args : List Value) : Poses own (Script.construct function args) :=
  of_value (Simulation.construct_follows rfl (Matching.list_refl Value.Matches.refl args))

theorem binding (name : String) : Poses own (Script.binding name) := by
  refine .bind (.read _) fun found => ?_
  cases found <;> exact fun _ _ _ => rfl

theorem callable? (v : Value) : Poses own (Script.callable? v) := fun _ _ _ => rfl

theorem declare (scope : ObjectId) (name : String) : Poses own (Script.declare scope name) := fun _ _ _ => rfl

/-! ### Expressions -/

theorem evaluate (e : Expression) : Poses own (Script.evaluate e) := .perform trivial

theorem evaluateKey (key : Expression) : Poses own (Script.evaluateKey key) :=
  .bind (evaluate key) fun _ => toText _

theorem evaluateMember (object : Expression) {key : Script String} (hkey : Poses own key) :
    Poses own (Script.evaluateMember object key) := by
  refine .bind (evaluate object) fun base => .bind hkey fun name => ?_
  split
  · exact .bind (typeError _) fun _ => .pure _
  · exact .pure _

theorem findTarget (e : Expression) : Poses own (Script.findTarget e) := by
  have hmember : ∀ {key : Script String} (object : Expression), Poses own key →
      Poses own (Script.memberTarget object key) := fun object hkey =>
    .bind (evaluateMember object hkey) fun _ => .bind (toObject _) fun _ => .pure _
  unfold Script.findTarget
  split
  · exact .bind (binding _) fun _ => .pure _
  · exact hmember _ (.pure _)
  · exact hmember _ (evaluateKey _)
  · exact raise _ _

theorem readTarget (target : Target) : Poses own (Script.readTarget target) := by
  cases target with
  | «variable» place => exact readVariable place
  | member object name => exact readMember (.ref object) name

theorem writeTarget (target : Target) (v : Value) : Poses own (Script.writeTarget target v) := by
  cases target with
  | «variable» place => exact .bind (writeVariable place v) fun _ => .pure _
  | member object name => exact writeMember object name v

theorem assign (op : Option BinaryOp) (target value : Expression) :
    Poses own (Script.assign op target value) := by
  refine .bind (findTarget target) fun found => ?_
  cases op with
  | none => exact .bind (evaluate value) fun _ => writeTarget _ _
  | some op =>
    exact .bind (readTarget _) fun _ => .bind (evaluate value) fun _ => .bind (applyBinary op _ _) fun _ =>
      writeTarget _ _

theorem update (op : UpdateOp) (before : Bool) (target : Expression) :
    Poses own (Script.update op before target) :=
  .bind (findTarget target) fun _ => .bind (readTarget _) fun _ => .bind (toNumber _) fun _ =>
    .bind (writeTarget _ _) fun _ => .pure _

theorem delete (e : Expression) : Poses own (Script.delete e) := by
  have hmember : ∀ {key : Script String} (object : Expression), Poses own key →
      Poses own (do return .boolean (← Script.deleteFrom object key) : Script Value) := by
    refine fun object hkey => .bind (.bind (evaluate object) fun base => .bind hkey fun name => ?_) fun _ => .pure _
    cases base.id? with
    | none => exact .pure _
    | some id => exact deleteMember id name
  unfold Script.delete
  split
  · exact hmember _ (.pure _)
  · exact hmember _ (evaluateKey _)
  · refine .bind (.read _) fun found => ?_
    cases found with
    | none => exact .pure _
    | some b => exact .bind (deleteMember _ _) fun _ => .pure _
  · exact .bind (evaluate _) fun _ => .pure _

theorem evaluateCallee (e : Expression) : Poses own (Script.evaluateCallee e) := by
  unfold Script.evaluateCallee
  split
  · exact .bind (evaluateMember _ (.pure _)) fun _ => .bind (readMember _ _) fun _ => .pure _
  · exact .bind (evaluateMember _ (evaluateKey _)) fun _ => .bind (readMember _ _) fun _ => .pure _
  · exact .bind (binding _) fun _ => .bind (readVariable _) fun _ => .pure _
  · exact .bind (evaluate _) fun _ => .pure _

theorem evaluateArguments (args : List Expression) : Poses own (Script.evaluateArguments args) :=
  .each evaluate args

/-- The statements of a function are not performed by the call of it, but within its activation. -/
theorem evaluateCall (callee : Expression) (args : List Expression) :
    Poses own (Script.evaluateCall callee args) := by
  refine .bind (evaluateCallee callee) fun found => ?_
  dsimp only
  split
  · exact typeError _
  · refine .bind (.read _) fun kind => ?_
    split
    · exact .bind (evaluateArguments args) fun _ => .perform trivial
    · exact .bind (evaluateArguments args) fun _ => .bind (toText _) fun _ => readMember _ _
    · exact typeError _

theorem evaluateNew (callee : Expression) (args : List Expression) :
    Poses own (Script.evaluateNew callee args) := by
  refine .bind (evaluate callee) fun f => .bind (callable? f) fun found => ?_
  cases found with
  | none => exact typeError _
  | some id => exact .bind (evaluateArguments args) fun _ => construct _ _

theorem evaluateArray (elements : List (Option Expression)) : Poses own (Script.evaluateArray elements) := by
  refine .bind (fun _ _ _ => rfl) fun array => .bind (.fold (fun item _ _ => ?_) _) fun _ => .pure _
  obtain ⟨element, i⟩ := item
  cases element with
  | none => exact .pure _
  | some e => exact .bind (evaluate e) fun _ => .bind (writeMember _ _ _) fun _ => .pure _

theorem evaluateObject (properties : List (PropertyKey × Expression)) :
    Poses own (Script.evaluateObject properties) :=
  .bind (fun _ _ _ => rfl) fun _ =>
    .bind (.fold (fun _ _ _ => .bind (evaluate _) fun _ => .bind (writeMember _ _ _) fun _ => .pure _) _)
      fun _ => .pure _

theorem evaluateFunction (tree : FunctionTree) : Poses own (Script.evaluateFunction tree) := by
  refine .bind (.read _) fun locals => ?_
  cases tree.name <;> exact fun _ _ _ => rfl

theorem evaluateUnary (op : UnaryOp) (operand : Expression) :
    Poses own (Script.evaluateUnary op operand) := by
  unfold Script.evaluateUnary
  split
  · unfold Script.evaluateTypeOf
    dsimp only
    split
    · refine .bind (.read _) fun found => ?_
      cases found with
      | none => exact .bind (.pure _) fun _ => .bind (typeName _) fun _ => .pure _
      | some b => exact .bind (readVariable _) fun _ => .bind (typeName _) fun _ => .pure _
    · exact .bind (evaluate _) fun _ => .bind (typeName _) fun _ => .pure _
  · exact delete _
  · exact .bind (evaluate _) fun _ => applyUnary _ _

theorem expressionForm (e : Expression) : Poses own (Script.expressionForm e) := by
  unfold Script.expressionForm
  split
  · exact .pure _
  · exact .bind (binding _) fun _ => readVariable _
  · exact .read _
  · exact evaluateArray _
  · exact evaluateObject _
  · exact evaluateFunction _
  · exact evaluateUnary _ _
  · exact .bind (evaluate _) fun _ => .bind (evaluate _) fun _ => applyBinary _ _ _
  · refine .bind (evaluate _) fun l => ?_
    split
    · exact .pure _
    · exact evaluate _
  · exact update _ _ _
  · exact assign _ _ _
  · refine .bind (evaluate _) fun test => ?_
    split <;> exact evaluate _
  · exact evaluateCall _ _
  · exact evaluateNew _ _
  · exact .bind (evaluateMember _ (.pure _)) fun _ => readMember _ _
  · exact .bind (evaluateMember _ (evaluateKey _)) fun _ => readMember _ _
  · exact .fold (fun _ _ _ => evaluate _) _

theorem poll : Poses own Script.poll :=
  have h : Invariant.textless.toSimulation.Runs .going ⟨.polled, .going, []⟩ .identity .same _ _ :=
    Simulation.poll_runs
  of_runs (h.within ()) Matching.same_mono fun _ _ h => h

theorem runExpression (e : Expression) : Poses own (Script.runExpression e) :=
  .bind poll fun _ => expressionForm e

/-! ### Statements -/

theorem debug (s : Statement) : Poses own (Script.debug s) :=
  have h : Invariant.textless.toSimulation.Runs .polled ⟨.going, .going, []⟩ .identity .same _ _ :=
    Simulation.debug_runs s
  of_runs (h.within ()) Matching.same_mono fun _ _ h => h

theorem noteUncaught (v : Value) : Poses own (Script.noteUncaught v) :=
  have h : Invariant.textless.toSimulation.Runs .going ⟨.halting, .going, []⟩ .identity .same _ _ :=
    Simulation.noteUncaught_runs (.refl v)
  of_runs (h.within ()) Matching.same_mono fun _ _ h => h

theorem showPending (s : Statement) : Poses own (Script.showPending s) :=
  have h : Invariant.textless.toSimulation.RunsAt () .halting ⟨.going, .going, []⟩ .identity Value.Matches
      _ (Script.showPending s) := Simulation.showPending_runs trivial
  of_runs h Value.Matches.mono fun _ _ h => h.eq

theorem runInner {s : Statement} (hs : own s) : Poses own (Script.runInner s) := .perform hs

theorem runStatements {body : List Statement} (hbody : ∀ s ∈ body, own s) :
    Poses own (Script.runStatements body) :=
  .fold (fun s hs _ => .bind (.perform (t := .statement s []) (hbody s hs)) fun _ => .pure _) _

theorem testHolds (test : Option Expression) : Poses own (Script.testHolds test) := by
  cases test with
  | none => exact .pure _
  | some e => exact .bind (evaluate e) fun _ => .pure _

theorem runForUpdate (update : Option Expression) : Poses own (Script.runForUpdate update) := by
  cases update with
  | none => exact .pure _
  | some e => exact .bind (evaluate e) fun _ => .pure _

theorem runBody {labels : List String} {body : Statement} (hbody : own body) (last : Value)
    {more : Script Bool} (hmore : Poses own more) : Poses own (Script.runBody labels body last more) := by
  refine .bind (.attempt (runInner hbody)) fun c => ?_
  split
  · exact .bind hmore fun _ => .pure _
  · exact .pure _
  · exact .abrupt _

theorem declareVariables (declarators : List Declarator) :
    Poses own (Script.declareVariables declarators) := by
  refine .bind (.read _) fun locals => .fold (fun d _ _ => ?_) _
  obtain ⟨name, initial⟩ := d
  refine .bind (declare _ _) fun _ => ?_
  cases initial with
  | none => exact .pure _
  | some e => exact .bind (evaluate e) fun _ => .bind (writeVariable _ _) fun _ => .pure _

theorem runForStart (start : ForStart) : Poses own (Script.runForStart start) := by
  cases start with
  | nothing => exact .pure _
  | declare declarators => exact declareVariables _
  | expression e => exact .bind (evaluate e) fun _ => .pure _

/-- The rounds of a loop with a test in front of the body. -/
theorem runRounds {test : Option Expression} {labels : List String} {body : Statement} (hbody : own body)
    {more : Script Bool} (hmore : Poses own more) :
    Poses own (Script.iterate (fun last => do
      if ← Script.testHolds test then Script.runBody labels body last more else return .inr last)
      Value.undefined) := by
  refine .iterate (fun last => .bind (testHolds _) fun holds => ?_) _
  split
  · exact runBody hbody _ hmore
  · exact .pure _

theorem runForIn (object : Expression) {store : Value → Script Unit} (hstore : ∀ v, Poses own (store v))
    {body : Statement} (hbody : own body) (labels : List String) :
    Poses own (Script.runForIn object store body labels) := by
  refine .bind (evaluate object) fun subject => ?_
  split
  · exact .pure _
  · refine .bind (toObject _) fun id => .bind (.read _) fun names => .foldUntil (fun name _ last => ?_) _
    refine .bind (.read _) fun present => ?_
    split
    · exact .bind (hstore _) fun _ => runBody hbody _ (.pure _)
    · exact .pure _

theorem runForVariable (d : Declarator) (object : Expression) {body : Statement} (hbody : own body)
    (labels : List String) : Poses own (Script.runForVariable d object body labels) :=
  .bind (declareVariables _) fun _ =>
    runForIn _ (fun _ => .bind (.read _) fun _ => .bind (writeVariable _ _) fun _ => .pure _) hbody _

theorem runForTarget (target object : Expression) {body : Statement} (hbody : own body)
    (labels : List String) : Poses own (Script.runForTarget target object body labels) :=
  runForIn _ (fun _ => .bind (findTarget _) fun _ => .bind (writeTarget _ _) fun _ => .pure _) hbody _

theorem runGuarded {body : List Statement} (hbody : ∀ s ∈ body, own s) :
    Poses own (Script.runGuarded body) :=
  .bind (.modify _) fun _ => .afterwards (runStatements hbody) _

theorem runCatching {body handler : List Statement} (hbody : ∀ s ∈ body, own s) (parameter : String)
    (hhandler : ∀ s ∈ handler, own s) : Poses own (Script.runCatching body parameter handler) := by
  refine .bind (.attempt (runGuarded hbody)) fun c => ?_
  split
  · exact .bind (.read _) fun _ => .bind (declare _ _) fun _ => .bind (writeVariable _ _) fun _ =>
      .bind (.modify _) fun _ => runStatements hhandler
  · exact .complete _

theorem runFinally {x : Script Value} (hx : Poses own x) {final : List Statement}
    (hfinal : ∀ s ∈ final, own s) : Poses own (Script.runFinally x final) := by
  refine .bind (.attempt hx) fun c => ?_
  split
  · exact .abrupt _
  · exact .bind (runStatements hfinal) fun _ => .complete _

theorem matchingClauses (v : Value) (clauses : List SwitchClause) :
    Poses own (Script.matchingClauses v clauses) := by
  induction clauses with
  | nil => exact .pure _
  | cons clause rest ih =>
    obtain ⟨test, body⟩ := clause
    cases test with
    | none => exact ih
    | some test =>
      refine .bind (evaluate test) fun w => ?_
      split
      · exact .pure _
      · exact ih

theorem runUntilBreak (labels : List String) {body : List Statement} (hbody : ∀ s ∈ body, own s) :
    Poses own (Script.runUntilBreak labels body) := by
  refine .foldUntil (fun s hs last => .bind (.attempt (runInner (hbody s hs))) fun c => ?_) _
  split
  · exact .pure _
  · split
    · exact .pure _
    · exact .abrupt _
  · exact .abrupt _

/-- A `switch` goes on from one of its clauses. -/
theorem matchingClauses_yields (v : Value) (clauses : List SwitchClause) :
    Yields (fun found => ∀ rest ∈ found, rest <:+ clauses) (Script.matchingClauses v clauses) := by
  have hlonger : ∀ {c : SwitchClause} {rest : List SwitchClause} {x : Script (Option (List SwitchClause))},
      Yields (fun found => ∀ l ∈ found, l <:+ rest) x →
      Yields (fun found => ∀ l ∈ found, l <:+ c :: rest) x := fun hx e m found n hfound l hl =>
    (hx e m found n hfound l hl).trans (List.suffix_cons _ _)
  induction clauses with
  | nil => exact .pure nofun
  | cons clause rest ih =>
    obtain ⟨test, body⟩ := clause
    cases test with
    | none => exact hlonger ih
    | some test =>
      refine .after fun w => ?_
      split
      · refine .pure fun l hl => ?_
        cases hl
        exact List.suffix_refl _
      · exact hlonger ih

theorem runSwitch (value : Expression) {clauses : List SwitchClause}
    (hclauses : ∀ s ∈ clauseStatements clauses, own s) (labels : List String) :
    Poses own (Script.runSwitch value clauses labels) := by
  refine .bind (evaluate value) fun v => ?_
  refine .bind_yields (matchingClauses v clauses) (matchingClauses_yields v clauses) fun found hfound => ?_
  have hsuffix : found.getD (defaultClauses clauses) <:+ clauses := by
    cases found with
    | none => exact Simulation.defaultClauses_suffix clauses
    | some rest => exact hfound rest rfl
  exact runUntilBreak labels fun s hs => hclauses s ((clauseStatements_suffix hsuffix).subset hs)

theorem runLabeled (label : String) {body : Statement} (hbody : own body) (labels : List String) :
    Poses own (Script.runLabeled label body labels) := by
  refine .bind (.attempt (.perform hbody)) fun c => ?_
  split
  · split
    · exact .pure _
    · exact .abrupt _
  · exact .complete _

theorem runWith (object : Expression) {body : Statement} (hbody : own body) :
    Poses own (Script.runWith object body) :=
  .bind (evaluate object) fun _ => .bind (toObject _) fun _ => .bind (.modify _) fun _ =>
    .afterwards (runInner hbody) _

/-- A statement performs the statements in it and no others. -/
theorem statementForm {form : StatementForm} (hform : ∀ s ∈ form.substatements, own s) (labels : List String) :
    Poses own (Script.statementForm form labels) := by
  have hone : ∀ {s : Statement} {all : List Statement}, (∀ t ∈ all, own t) → s.substatements ⊆ all →
      own s := fun hall hs => hall _ (hs (Statement.mem_substatements_self _))
  have hlist : ∀ {body all : List Statement}, (∀ t ∈ all, own t) → Statement.substatementsOf body ⊆ all →
      ∀ s ∈ body, own s := fun hall hbody s hs =>
    hone hall (List.Subset.trans (Statement.substatements_subset_substatementsOf hs) hbody)
  cases form with
  | empty => exact .pure _
  | function tree => exact .pure _
  | expression e => exact evaluate e
  | block body => exact runStatements (hlist hform (List.Subset.refl _))
  | declare declarators => exact .bind (declareVariables _) fun _ => .pure _
  | ifThen test yes =>
    refine .bind (evaluate test) fun v => ?_
    split
    · exact runInner (hone hform (List.Subset.refl _))
    · exact .pure _
  | ifElse test yes no =>
    refine .bind (evaluate test) fun v => ?_
    split
    · exact runInner (hone hform (List.subset_append_left ..))
    · exact runInner (hone hform (List.subset_append_right ..))
  | whileLoop test body => exact runRounds (hone hform (List.Subset.refl _)) (.pure _)
  | doLoop body test =>
    exact .iterate (fun _ => runBody (hone hform (List.Subset.refl _)) _ (testHolds _)) _
  | forLoop start test update body =>
    exact .bind (runForStart start) fun _ => runRounds (hone hform (List.Subset.refl _)) (runForUpdate update)
  | forVariable d object body => exact runForVariable d object (hone hform (List.Subset.refl _)) labels
  | forTarget target object body => exact runForTarget target object (hone hform (List.Subset.refl _)) labels
  | returnValue value =>
    cases value with
    | none => exact .abrupt _
    | some e => exact .bind (evaluate e) fun _ => .abrupt _
  | breakTo label => exact .abrupt _
  | continueTo label => exact .abrupt _
  | throw e => exact .bind (evaluate e) fun _ => .abrupt _
  | tryCatch body parameter handler =>
    exact runCatching (hlist hform (List.subset_append_left ..)) parameter
      (hlist hform (List.subset_append_right ..))
  | tryFinally body final =>
    exact runFinally (runGuarded (hlist hform (List.subset_append_left ..)))
      (hlist hform (List.subset_append_right ..))
  | tryCatchFinally body parameter handler final =>
    have hbody : Statement.substatementsOf body ⊆
        Statement.substatementsOf body ++ Statement.substatementsOf handler ++
        Statement.substatementsOf final :=
      List.Subset.trans (List.subset_append_left ..) (List.subset_append_left ..)
    have hhandler : Statement.substatementsOf handler ⊆
        Statement.substatementsOf body ++ Statement.substatementsOf handler ++
        Statement.substatementsOf final :=
      List.Subset.trans (List.subset_append_right ..) (List.subset_append_left ..)
    exact runFinally (runCatching (hlist hform hbody) parameter (hlist hform hhandler))
      (hlist hform (List.subset_append_right ..))
  | switch value clauses =>
    exact runSwitch value (fun s hs => hform s (SwitchClause.mem_substatementsOf hs)) labels
  | labeled label body => exact runLabeled label (hone hform (List.Subset.refl _)) labels
  | withObject object body => exact runWith object (hone hform (List.Subset.refl _))

theorem runStatement {s : Statement} (hs : ∀ t ∈ s.form.substatements, own t) (labels : List String) :
    Poses own (Script.runStatement s labels) := by
  have helement : Poses own (Script.runElement s labels) := by
    refine .bind poll fun _ => .bind (debug s) fun _ => .bind (.attempt (statementForm hs labels)) fun c => ?_
    split
    · exact .pure _
    · refine .bind (.read _) fun depth => ?_
      split
      · exact .bind (noteUncaught _) fun _ => showPending s
      · exact .abrupt _
    · refine .bind (.read _) fun pending => ?_
      split
      · exact showPending s
      · exact .abrupt _
    · exact .abrupt _
  exact .bind (.modify _) fun _ => .afterwards helement _

end Poses

end Script

end PageScript
