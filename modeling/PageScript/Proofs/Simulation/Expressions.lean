import PageScript.Evaluation.Expressions
import PageScript.Proofs.Simulation.Code

/-! # Expressions and calls on two sides -/

set_option autoImplicit false

namespace PageScript

/-- Callees whose values match and whose objects are paired. -/
structure Callee.Matches (p : Pairing) (x y : Callee) : Prop where
  function : Value.Matches p x.function y.function
  this : Matching.option .id p x.this y.this

/-- Targets that are equal up to their objects. -/
inductive Target.Matches (p : Pairing) : Target → Target → Prop where
  | place {x y : Location} (place : Location.Matches p x y) : Matches p (.variable x) (.variable y)
  | member {a b : ObjectId} (object : p.ids a b) (name : String) :
      Matches p (.member a name) (.member b name)

theorem Target.Matches.mono : Matching.Monotone Target.Matches := by
  intro p q hpq x y h
  cases h with
  | place place => exact .place (place.mono hpq)
  | member object name => exact .member (hpq object) name

theorem Callable.Matches.name?_eq {p : Pairing} {c d : Callable} (h : Callable.Matches p c d) :
    c.name? = d.name? := by cases h <;> rfl

/-- The jumps that the code of a function may end with, as far as its text goes. -/
def Callable.jumps (args : List Value) : Callable → List Jump
  | .script tree _ => Statement.jumpsOf tree.body
  | .native _ f => Simulation.evalJumps f args

namespace Simulation

open Script

variable {S : Simulation} {α β : Type} {p q : Pairing} {V : Matching α} {W : Matching β}
  {js : List Jump} {a b : ObjectId} {v w v' w' : Value} {xs ys : List Value}
  {apply apply' : Native → Value → List Value → Script Value}

/-! ## Operators -/

theorem applyUnary_follows (op : UnaryOp) (hv : Value.Matches p v w) :
    S.Follows js p Value.Matches (applyUnary op v) (applyUnary op w) := by
  have hnumber : ∀ f : Number → Number, S.Follows js p Value.Matches
      (do return .number (f (← toNumber v))) (do return .number (f (← toNumber w))) := fun f => by
    refine .bind (toNumber_follows hv) ?_
    rintro _ _ n _ rfl
    exact .pure (.number _)
  unfold applyUnary
  cases op with
  | minus => exact hnumber Number.neg
  | plus => exact hnumber id
  | not =>
    rw [hv.isTruthy_eq]
    exact .pure (.boolean _)
  | complement => exact hnumber fun n => .ofInt32 (~~~n.toInt32)
  | typeOf =>
    refine .bind (typeName_follows hv) ?_
    rintro _ _ s _ rfl
    exact .pure (.string s)
  | void => exact .pure .undefined
  | delete => exact .pure (.boolean true)

theorem addValues_follows (hv : Value.Matches p v w) (hv' : Value.Matches p v' w') :
    S.Follows js p Value.Matches (addValues v v') (addValues w w') := by
  unfold addValues
  refine .bind (addend_follows hv) fun q hq x x' hx => ?_
  refine .bind (addend_follows (hv'.mono hq)) fun r hr y y' hy => ?_
  rw [hx.isString_eq, hy.isString_eq]
  split
  · refine .bind (toText_follows (hx.mono hr)) ?_
    rintro s hs t _ rfl
    refine .bind (toText_follows (hy.mono hs)) ?_
    rintro _ _ u _ rfl
    exact .pure (.string _)
  · refine .bind (toNumber_follows (hx.mono hr)) ?_
    rintro s hs n _ rfl
    refine .bind (toNumber_follows (hy.mono hs)) ?_
    rintro _ _ k _ rfl
    exact .pure (.number _)

theorem isInstance_follows (hv : Value.Matches p v w) (h : p.ids a b) :
    S.Follows js p .same (isInstance v a) (isInstance w b) := by
  unfold isInstance
  cases hv with
  | object id receiver =>
    exact .bind (prototypeOf_follows h) fun q hq i j hi =>
      .read fun hm => (S.matched hm).heap.inheritsFrom_eq (hq id) hi
  | _ => exact .pure rfl

theorem toNumbers_follows (hv : Value.Matches p v w) (hv' : Value.Matches p v' w') :
    S.Follows js p .same (toNumbers v v') (toNumbers w w') := by
  refine .bind (toNumber_follows hv) ?_
  rintro q hq n _ rfl
  refine .bind (toNumber_follows (hv'.mono hq)) ?_
  rintro _ _ k _ rfl
  exact .pure rfl

theorem applyBinary_follows (op : BinaryOp) (hv : Value.Matches p v w)
    (hv' : Value.Matches p v' w') :
    S.Follows js p Value.Matches (applyBinary op v v') (applyBinary op w w') := by
  have hnumbers : ∀ f : Number → Number → Number, S.Follows js p Value.Matches
      (do
        let x ← toNumbers v v'
        return .number (f x.1 x.2))
      (do
        let x ← toNumbers w w'
        return .number (f x.1 x.2)) := fun f => by
    refine .bind (toNumbers_follows hv hv') ?_
    rintro _ _ x _ rfl
    exact .pure (.number _)
  have hboolean : ∀ {x y : Script Bool} (f : Bool → Bool), S.Follows js p .same x y →
      S.Follows js p Value.Matches (do return .boolean (f (← x))) (do return .boolean (f (← y))) :=
    fun f hx => .bind hx <| by
      rintro _ _ c _ rfl
      exact .pure (.boolean _)
  have hcompare : S.Follows js p Value.Matches
      (do return .boolean (op.holds (← compare v v')))
      (do return .boolean (op.holds (← compare w w'))) := by
    refine .bind (compare_follows hv hv') ?_
    rintro _ _ order _ rfl
    exact .pure (.boolean _)
  unfold applyBinary
  cases op with
  | add => exact addValues_follows hv hv'
  | sub => exact hnumbers _
  | mul => exact hnumbers _
  | div => exact hnumbers _
  | mod => exact hnumbers _
  | equal => exact hboolean id (looselyEqual_follows hv hv')
  | notEqual => exact hboolean not (looselyEqual_follows hv hv')
  | strictEqual =>
    rw [hv.strictEquals_eq hv']
    exact .pure (.boolean _)
  | strictNotEqual =>
    rw [hv.strictEquals_eq hv']
    exact .pure (.boolean _)
  | less => exact hcompare
  | greater => exact hcompare
  | lessEqual => exact hcompare
  | greaterEqual => exact hcompare
  | shiftLeft => exact hnumbers _
  | shiftRight => exact hnumbers _
  | unsignedShiftRight => exact hnumbers _
  | bitAnd => exact hnumbers _
  | bitOr => exact hnumbers _
  | bitXor => exact hnumbers _
  | isIn =>
    have hid := hv'.id?
    generalize v'.id? = i at hid
    generalize w'.id? = j at hid
    cases hid with
    | none => exact typeError_follows _
    | some hid =>
      refine .bind (toText_follows hv) ?_
      rintro q hq name _ rfl
      refine .read fun hm => ?_
      rw [(S.matched hm).heap.hasProperty_eq (hq hid) name]
      exact .boolean _
  | instanceOf =>
    refine .bind (callable?_follows hv') fun q hq f f' hf => ?_
    cases hf with
    | none => exact typeError_follows _
    | some hf => exact hboolean' hf hq
where
  hboolean' {q : Pairing} {f f' : ObjectId} (hf : q.ids f f') (hq : p ≤ q) :
      S.Follows js q Value.Matches (do return .boolean (← isInstance v f))
        (do return .boolean (← isInstance w f')) := by
    refine .bind (isInstance_follows (hv.mono hq) hf) ?_
    rintro _ _ c _ rfl
    exact .pure (.boolean c)

/-! ## Targets -/

theorem evaluateKey_follows {key : Expression} (h : S.Sound key.trees) :
    S.Follows js p .same (evaluateKey key) (evaluateKey key) :=
  .bind (.evaluate h) fun _ _ _ _ hu => toText_follows hu

/-- A name that is written down is the same on both sides. -/
theorem name_follows (name : String) :
    S.Follows js p .same (pure name) (pure name) := .pure rfl

theorem evaluateMember_follows {object : Expression} {key : Script String}
    (h : S.Sound object.trees) (hkey : ∀ q, S.Follows js q .same key key) :
    S.Follows js p (.both Value.Matches .same) (evaluateMember object key)
      (evaluateMember object key) := by
  unfold evaluateMember
  refine .bind (.evaluate h) fun q _ u u' hu => ?_
  refine .bind (hkey q) ?_
  rintro r hr name _ rfl
  rw [hu.isNothing_eq]
  split
  · exact .bind (typeError_follows (V := .same) _) fun s hs _ _ _ =>
      .pure ⟨hu.mono (hr.trans hs), rfl⟩
  · exact .pure ⟨hu.mono hr, rfl⟩

theorem memberTarget_follows {object : Expression} {key : Script String}
    (h : S.Sound object.trees) (hkey : ∀ q, S.Follows js q .same key key) :
    S.Follows js p Target.Matches (memberTarget object key) (memberTarget object key) := by
  refine .bind (evaluateMember_follows h hkey) ?_
  rintro q _ ⟨u, name⟩ ⟨u', _⟩ ⟨hu, rfl⟩
  exact .bind (toObject_follows hu) fun _ _ _ _ hi => .pure (.member hi name)

theorem findTarget_follows {e : Expression} (h : S.Sound e.trees) :
    S.Follows js p Target.Matches (findTarget e) (findTarget e) := by
  unfold findTarget
  cases e with
  | identifier name =>
    exact .bind (binding_follows name) fun _ _ _ _ hb => .pure (.place hb.location)
  | member object name =>
    rw [Expression.trees] at h
    exact memberTarget_follows h fun _ => name_follows name
  | index object key =>
    rw [Expression.trees] at h
    exact memberTarget_follows h.left fun _ => evaluateKey_follows h.right
  | _ => exact raise_follows _ _

theorem readTarget_follows {x y : Target} (h : Target.Matches p x y) :
    S.Follows js p Value.Matches (readTarget x) (readTarget y) := by
  cases h with
  | place place => exact readVariable_follows place
  | member object name => exact readMember_follows (.ref object) name

theorem writeTarget_follows {x y : Target} (h : Target.Matches p x y) (hv : Value.Matches p v w) :
    S.Follows js p Value.Matches (writeTarget x v) (writeTarget y w) := by
  cases h with
  | place place =>
    exact .bind (writeVariable_follows place hv) fun _ hq _ _ _ => .pure (hv.mono hq)
  | member object name => exact writeMember_follows object name hv

theorem assign_follows (op : Option BinaryOp) {target value : Expression}
    (ht : S.Sound target.trees) (hv : S.Sound value.trees) :
    S.Follows js p Value.Matches (assign op target value) (assign op target value) := by
  unfold assign
  refine .bind (findTarget_follows ht) fun q _ x y hx => ?_
  cases op with
  | none =>
    exact .bind (.evaluate hv) fun _ hr _ _ hu => writeTarget_follows (hx.mono hr) hu
  | some op =>
    refine .bind (readTarget_follows hx) fun r hr old old' hold => ?_
    refine .bind (.evaluate hv) fun s hs u u' hu => ?_
    refine .bind (applyBinary_follows op (hold.mono hs) hu) fun t ht _ _ hu => ?_
    exact writeTarget_follows (hx.mono ((hr.trans hs).trans ht)) hu

theorem update_follows (op : UpdateOp) (before : Bool) {target : Expression}
    (ht : S.Sound target.trees) :
    S.Follows js p Value.Matches (update op before target) (update op before target) := by
  unfold update
  refine .bind (findTarget_follows ht) fun q _ x y hx => ?_
  refine .bind (readTarget_follows hx) fun r hr u u' hu => ?_
  refine .bind (toNumber_follows hu) ?_
  rintro s hs old _ rfl
  exact .bind (writeTarget_follows (hx.mono (hr.trans hs)) (.number _)) fun _ _ _ _ _ =>
    .pure (.number _)

theorem deleteFrom_follows {object : Expression} {key : Script String}
    (h : S.Sound object.trees) (hkey : ∀ q, S.Follows js q .same key key) :
    S.Follows js p .same (deleteFrom object key) (deleteFrom object key) := by
  unfold deleteFrom
  refine .bind (.evaluate h) fun q _ u u' hu => ?_
  refine .bind (hkey q) ?_
  rintro r hr name _ rfl
  have hid := (hu.mono hr).id?
  generalize u.id? = i at hid
  generalize u'.id? = j at hid
  cases hid with
  | none => exact .pure rfl
  | some hid => exact deleteMember_follows hid name

theorem delete_follows {e : Expression} (h : S.Sound e.trees) :
    S.Follows js p Value.Matches (delete e) (delete e) := by
  have hboolean : ∀ {q : Pairing} {x y : Script Bool}, S.Follows js q .same x y →
      S.Follows js q Value.Matches (do return .boolean (← x)) (do return .boolean (← y)) :=
    fun hx => .bind hx <| by
      rintro _ _ c _ rfl
      exact .pure (.boolean c)
  have hother : S.Follows js p Value.Matches
      (do
        let _ ← evaluate e
        return .boolean true)
      (do
        let _ ← evaluate e
        return .boolean true) := .bind (.evaluate h) fun _ _ _ _ _ => .pure (.boolean true)
  unfold delete
  cases e with
  | member object name =>
    rw [Expression.trees] at h
    exact hboolean (deleteFrom_follows h fun _ => name_follows name)
  | index object key =>
    rw [Expression.trees] at h
    exact hboolean (deleteFrom_follows h.left fun _ => evaluateKey_follows h.right)
  | identifier name =>
    refine .read_bind (V := .option Binding.Matches) (fun hm => (S.matched hm).lookup name)
      fun x y hxy => ?_
    cases hxy with
    | none => exact .pure (.boolean true)
    | some hxy =>
      dsimp only
      rw [hxy.location.name]
      exact hboolean (deleteMember_follows hxy.location.object _)
  | _ => exact hother

/-! ## The calling side -/

theorem evaluateCallee_follows {e : Expression} (h : S.Sound e.trees) :
    S.Follows js p Callee.Matches (evaluateCallee e) (evaluateCallee e) := by
  have hmember : ∀ {q : Pairing} {x y : Value × String}, Matching.both Value.Matches .same q x y →
      S.Follows js q Callee.Matches
        (do
          let f ← readMember x.1 x.2
          return ⟨f, f.receiver?⟩)
        (do
          let f ← readMember y.1 y.2
          return ⟨f, f.receiver?⟩) := fun {q x y} hxy => by
    rw [show x.2 = y.2 from hxy.2]
    exact .bind (readMember_follows hxy.1 _) fun _ _ _ _ hf => .pure ⟨hf, hf.receiver?⟩
  have hother : S.Follows js p Callee.Matches
      (do
        let f ← evaluate e
        return ⟨f, f.receiver?⟩)
      (do
        let f ← evaluate e
        return ⟨f, f.receiver?⟩) := .bind (.evaluate h) fun _ _ _ _ hf => .pure ⟨hf, hf.receiver?⟩
  unfold evaluateCallee
  cases e with
  | member object name =>
    rw [Expression.trees] at h
    exact .bind (evaluateMember_follows h fun _ => name_follows name) fun _ _ _ _ hx => hmember hx
  | index object key =>
    rw [Expression.trees] at h
    exact .bind (evaluateMember_follows h.left fun _ => evaluateKey_follows h.right)
      fun _ _ _ _ hx => hmember hx
  | identifier name =>
    refine .bind (binding_follows name) fun q _ x y hx => ?_
    refine .bind (readVariable_follows hx.location) fun r hr f f' hf => .pure ⟨hf, ?_⟩
    have hreceiver := Matching.option_mono Matching.id_mono hr hx.receiver
    generalize x.receiver = i at hreceiver
    generalize y.receiver = j at hreceiver
    cases hreceiver with
    | none => exact hf.receiver?
    | some hreceiver => exact .some hreceiver
  | _ => exact hother

theorem evaluateArguments_follows {args : List Expression} (h : S.Sound (Expression.treesOf args)) :
    S.Follows js p (.list Value.Matches) (evaluateArguments args) (evaluateArguments args) := by
  refine .each (Matching.list_member args) Matching.member_mono Value.Matches.mono ?_
  rintro q _ e _ ⟨rfl, he⟩
  exact .evaluate (h.mono (Expression.trees_subset_treesOf he))

theorem evaluateCall_follows {callee : Expression} {args : List Expression}
    (hc : S.Sound callee.trees) (hargs : S.Sound (Expression.treesOf args)) :
    S.Follows js p Value.Matches (evaluateCall callee args) (evaluateCall callee args) := by
  unfold evaluateCall
  refine .bind (evaluateCallee_follows hc) ?_
  rintro q hq ⟨f, this⟩ ⟨f', this'⟩ ⟨hf, hthis⟩
  dsimp only at hf hthis ⊢
  have hid := hf.id?
  generalize f.id? = i at hid
  generalize f'.id? = j at hid
  cases hid with
  | none => exact typeError_follows _
  | @some i j hid =>
    refine .read_bind (V := .same) (fun hm => ?_) ?_
    · refine Matching.option_same (p := q) ?_
      exact Matching.option_map ((S.matched hm).heap.get? hid) fun _ _ ho =>
        congrArg₂ Prod.mk ho.isCallable_eq ho.callsAsMember
    · rintro kind _ rfl
      split
      · refine .bind (evaluateArguments_follows hargs) fun r hr xs ys hxs => ?_
        exact .perform (.call (hr hid) (Matching.option_mono Matching.id_mono hr hthis) hxs false)
          fun _ _ h => nomatch h
      · refine .bind (evaluateArguments_follows hargs) fun r hr xs ys hxs => ?_
        refine .bind (toText_follows (argument_matches hxs 0)) ?_
        rintro s hs name _ rfl
        exact readMember_follows (hf.mono (hr.trans hs)) name
      · exact typeError_follows _

theorem construct_follows (h : p.ids a b) (hxs : Matching.list Value.Matches p xs ys) :
    S.Follows js p Value.Matches (construct a xs) (construct b ys) := by
  unfold construct
  refine .bind (prototypeOf_follows h) fun q hq proto proto' hproto => ?_
  have ho : Object.Matches q { Object.empty (some proto) with maker := some a }
      { Object.empty (some proto') with maker := some b } :=
    { Object.Matches.empty (.some hproto) with maker := .some (hq h) }
  have hnew := Object.ordinary_empty (some proto)
  refine .bind (.alloc_plain ho ⟨hnew.payload, hnew.links, hnew.tidy.congr rfl⟩ rfl) fun r hr i j hi => ?_
  have hcall : S.Follows js r Value.Matches (Script.perform (.call a (some i) xs true))
      (Script.perform (.call b (some j) ys true)) :=
    .perform (.call (hr (hq h)) (.some hi) (Matching.list_mono Value.Matches.mono (hq.trans hr) hxs)
      true) fun _ _ h => nomatch h
  refine .bracket_bind (.pin hi) hcall fun s hs u u' hu => ?_
  cases hu with
  | object id receiver => exact .pure (.ref id)
  | _ => exact .pure (.ref (hs hi))

theorem evaluateNew_follows {callee : Expression} {args : List Expression}
    (hc : S.Sound callee.trees) (hargs : S.Sound (Expression.treesOf args)) :
    S.Follows js p Value.Matches (evaluateNew callee args) (evaluateNew callee args) := by
  unfold evaluateNew
  refine .bind (.evaluate hc) fun q _ u u' hu => ?_
  refine .bind (callable?_follows hu) fun r _ f f' hf => ?_
  cases hf with
  | none => exact typeError_follows _
  | some hf =>
    exact .bind (evaluateArguments_follows hargs) fun s hs xs ys hxs =>
      construct_follows (hs hf) hxs

/-! ## The called side -/

theorem newArguments_follows {f f' : ObjectId} (parameters : List String) (hf : p.ids f f')
    (h : p.ids a b) (hxs : Matching.list Value.Matches p xs ys) :
    S.Follows js p .id (newArguments f a parameters xs) (newArguments f' b parameters ys) := by
  unfold newArguments
  rw [Matching.list_length hxs]
  refine newArray_bind (f := fun _ => Object.becomeArguments f a parameters xs)
    (k := fun _ => Object.becomeArguments f' b parameters ys) _
    (fun hq hid hmade hm hneat => S.fill hm hid hmade (.becomeArguments parameters (hq hf) (hq h)
      (Matching.list_mono Value.Matches.mono hq hxs)) hneat) fun _ o ho hlength => ?_
  exact ho.becomeArguments f a parameters xs hlength

theorem runFunction_runs {g : S.Ghost} {k : Nat} (hroom : S.room g (k + 1))
    {f f' scope scope' this this' : ObjectId} (tree : FunctionTree) (constructing : Bool)
    (hf : p.ids f f') (hscope : p.ids scope scope') (hthis : p.ids this this')
    (hxs : Matching.list Value.Matches p xs ys) (ht : S.Sound tree.trees) :
    S.RunsAt g .going (.leaving (Statement.jumpsOf tree.body)) p Value.Matches
      (runFunction f tree scope this xs constructing)
      (runFunction f' tree scope' this' ys constructing) := by
  have hbody : S.Sound (Statement.treesOf tree.body) := ht.mono tree.treesOf_body_subset
  have hV := Matching.list_mono Value.Matches.mono
  unfold runFunction
  refine .bind (Runs.within (.alloc_empty hscope) g) fun q hq i j ⟨hi, hmade⟩ => ?_
  refine .bind ((newArguments_follows tree.parameters (hq hf) hi (hV hq hxs)).within g)
    fun r hr k l hk => ?_
  refine .bind (Runs.within (.fill (hr hi) hmade (.bindParameters tree.parameters hk
    (hV (hq.trans hr) hxs)) fun _ ho => (ho.putParameters _ _).addArguments _) g) fun s hs _ _ _ => ?_
  have hps := (hq.trans hr).trans hs
  refine within_runs hroom ⟨rfl, hs (hr hi), hps hscope, .nil, .some (hs hk), .some (hps hf),
    .some (hps hthis), rfl⟩ rfl fun g' _ => ?_
  refine Runs.within (.bind (hoist_follows tree.body (hs (hr hi)) hbody) fun t _ _ _ _ => ?_) g'
  exact .bind (runStatements_runs tree.body hbody) fun _ _ _ _ _ => .pure .undefined

theorem nativeFrame_matches {f f' this this' : ObjectId} (constructing : Bool) (hf : p.ids f f')
    (hthis : p.ids this this') :
    Frame.Matches p (nativeFrame f this constructing) (nativeFrame f' this' constructing) :=
  ⟨rfl, p.intrinsic_global, p.intrinsic_global, .nil, .none, .some hf, .some hthis, rfl⟩

/-- Runs what a function consists of, within its activation. -/
def runCallable (apply : Native → Value → List Value → Script Value) (f this : ObjectId)
    (args : List Value) (constructing : Bool) (callable : Callable) : Script Value :=
  match callable with
  | .script tree scope => runFunction f tree scope this args constructing
  | .native _ native =>
    within (nativeFrame f this constructing) (apply native (.ref this) args)

theorem runCallable_runs {g : S.Ghost} (hroom : S.room g 2) (htext : S.text)
    {f f' this this' : ObjectId} {c c' : Callable} (constructing : Bool) (hf : p.ids f f')
    (hthis : p.ids this this') (hxs : Matching.list Value.Matches p xs ys)
    (hc : Callable.Matches p c c')
    (ht : ∀ tree scope, c = .script tree scope → ∀ t ∈ tree.trees, S.sound t)
    (happly : ∀ name native, c = .native name native → ∀ g, S.room g 1 →
      S.RunsAt g .going (.leaving (.returned :: c.jumps xs)) p Value.Matches
        (apply native (.ref this) xs) (apply' native (.ref this') ys)) :
    S.RunsAt g .going (.leaving (.returned :: c.jumps xs)) p Value.Matches
      (runCallable apply f this xs constructing c)
      (runCallable apply' f' this' ys constructing c') := by
  cases hc with
  | script tree scope =>
    exact (runFunction_runs hroom tree constructing hf scope hthis hxs ⟨htext, ht tree _ rfl⟩).widen
      (List.subset_cons_self ..)
  | native name native =>
    exact within_runs hroom (nativeFrame_matches constructing hf hthis) rfl (happly name native rfl)

/-- Runs what a function consists of, one call deeper. -/
def deepen (apply : Native → Value → List Value → Script Value) (f : ObjectId)
    (this : Option ObjectId) (args : List Value) (constructing : Bool) (callable : Callable) :
    Script Value := do
  Script.modify fun m => { m with callDepth := m.callDepth + 1 }
  afterwards
    (do
      Script.log .trace fun m =>
        "call " ++ callable.name?.getD "<anonymous>" ++ " (depth " ++ toString m.callDepth ++ ")"
      returning (runCallable apply f (this.getD Intrinsic.globalObject) args constructing callable))
    fun m => { m with callDepth := m.callDepth - 1 }

/-- What a call does once it has found its function. -/
def enterCall (apply : Native → Value → List Value → Script Value) (limit : Nat) (f : ObjectId)
    (this : Option ObjectId) (args : List Value) (constructing : Bool) (callable : Callable) :
    Script Value := do
  if limit ≤ (← Script.read Machine.callDepth) then
    Script.log .debug fun _ => "call depth limit " ++ toString limit ++ " reached"
    raise .general "Stack overflow"
  deepen apply f this args constructing callable

theorem enterCall_refused {limit : Nat} {f : ObjectId} {this : Option ObjectId}
    {constructing : Bool} {c : Callable} {e : Engine} {m : Machine} (h : limit ≤ m.callDepth) :
    enterCall apply limit f this xs constructing c e m
      = (do
          Script.log .debug fun _ => "call depth limit " ++ toString limit ++ " reached"
          raise .general "Stack overflow"
          deepen apply f this xs constructing c : Script Value) e m := by
  show (if limit ≤ m.callDepth then _ else _ : Script Value) e m = _
  rw [if_pos h]

theorem enterCall_granted {limit : Nat} {f : ObjectId} {this : Option ObjectId}
    {constructing : Bool} {c : Callable} {e : Engine} {m : Machine} (h : m.callDepth < limit) :
    enterCall apply limit f this xs constructing c e m = deepen apply f this xs constructing c e m := by
  show (if limit ≤ m.callDepth then _ else _ : Script Value) e m = _
  rw [if_neg (Nat.not_le.2 h)]

theorem enterCall_ends {f f' : ObjectId} {this this' : Option ObjectId}
    {c c' : Callable} (constructing : Bool) (hc : Callable.Matches p c c')
    (hthis : Matching.option .id p this this')
    (hrun : ∀ g, S.room g 2 → ∀ q, p ≤ q → ∀ a b, q.ids a b →
      S.RunsAt g .going (.leaving (.returned :: c.jumps xs)) q Value.Matches
        (runCallable apply f a xs constructing c) (runCallable apply' f' b ys constructing c'))
    (hjs : ∀ j ∈ c.jumps xs, j = .returned ∨ S.stray j) {limit : Nat} (hlimit : S.depth limit)
    {e e' : Engine} (he : S.Agree e e') {g : S.Ghost} {m m' : Machine} (hm : S.inv .going g p m m') :
    S.Ends (.leaving js) g p Value.Matches (enterCall apply limit f this xs constructing c e m)
      (enterCall apply' limit f' this' ys constructing c' e' m') := by
  have hdepth := (S.matched hm).callDepth
  rcases Nat.lt_or_ge m.callDepth limit with h | h
  · rw [enterCall_granted h, enterCall_granted (hdepth ▸ h)]
    refine Runs.call_bracket hlimit (fun g' hroom => ?_) he hm h
    refine .bind (V := .same) (Runs.within (.log fun hm => ?_) g') fun r hr _ _ _ => ?_
    · rw [hc.name?_eq, (S.matched hm).callDepth]
    · refine .returning (hrun g' hroom r hr _ _ ?_) fun j hj => ?_
      · exact Matching.option_getD (V := .id) (Matching.option_mono Matching.id_mono hr hthis)
          r.intrinsic_global
      · cases hj with
        | head => exact .inl rfl
        | tail _ hj => exact hjs j hj
  · rw [enterCall_refused h, enterCall_refused (hdepth ▸ h)]
    refine Runs.ends (.bind (V := .same) (.log fun _ => rfl) fun q hq _ _ _ => ?_) e e' he g m m' hm
    -- no value comes of raising an error
    exact .bind (V := fun _ _ _ => False) (raise_follows _ _) fun _ _ _ _ h => h.elim

/-! ## Literals -/

theorem evaluateArray_follows {elements : List (Option Expression)}
    (h : S.Sound (Expression.treesOfElements elements)) :
    S.Follows js p Value.Matches (evaluateArray elements) (evaluateArray elements) := by
  unfold evaluateArray
  refine .bind (newArray_follows _) fun q _ a b hi => ?_
  refine .bind (V := .same) ?_ fun r hr _ _ _ => .pure (.ref (hr hi))
  refine .fold (Matching.list_member _) Matching.member_mono rfl ?_
  rintro r hr _ _ ⟨element, i⟩ _ - ⟨rfl, hmem⟩
  have he : element ∈ elements := List.fst_mem_of_mem_zipIdx hmem
  cases element with
  | none => exact .pure rfl
  | some e =>
    refine .bind (.evaluate (h.mono (Expression.trees_subset_treesOfElements he)))
      fun s hs u u' hu => ?_
    exact .bind (writeMember_follows (hs (hr hi)) _ hu) fun _ _ _ _ _ => .pure rfl

theorem evaluateObject_follows {properties : List (PropertyKey × Expression)}
    (h : S.Sound (Expression.treesOfProperties properties)) :
    S.Follows js p Value.Matches (evaluateObject properties) (evaluateObject properties) := by
  unfold evaluateObject
  refine .bind newObject_follows fun q _ a b hi => ?_
  refine .bind (V := .same) ?_ fun r hr _ _ _ => .pure (.ref (hr hi))
  refine .fold (Matching.list_member _) Matching.member_mono rfl ?_
  rintro r hr _ _ ⟨key, e⟩ _ - ⟨rfl, hmem⟩
  refine .bind (.evaluate (h.mono (Expression.trees_subset_treesOfProperties hmem)))
    fun s hs u u' hu => ?_
  exact .bind (writeMember_follows (hs (hr hi)) _ hu) fun _ _ _ _ _ => .pure rfl

theorem evaluateFunction_follows {tree : FunctionTree} (h : S.Sound tree.trees) :
    S.Follows js p Value.Matches (evaluateFunction tree) (evaluateFunction tree) := by
  unfold evaluateFunction
  refine .read_bind (V := .id) (fun hm => (S.matched hm).frame.locals) fun a b hi => ?_
  cases tree.name with
  | none => exact .bind (newFunction_follows tree hi h) fun _ _ _ _ hf => .pure (.ref hf)
  | some name =>
    refine .bind (.alloc_empty hi) fun q _ c d ⟨hscope, hmade⟩ => ?_
    refine .bind (newFunction_follows tree hscope h) fun r hr f f' hf => ?_
    exact .bind (.fill (hr hscope) hmade (.put name hf) fun _ ho => ho.put name rfl) fun _ ht _ _ _ =>
      .pure (.ref (ht hf))

theorem evaluateTypeOf_follows {operand : Expression} (h : S.Sound operand.trees) :
    S.Follows js p Value.Matches (evaluateTypeOf operand) (evaluateTypeOf operand) := by
  have hname : ∀ {q : Pairing} {u u' : Value}, Value.Matches q u u' →
      S.Follows js q Value.Matches (do return .string (← typeName u))
        (do return .string (← typeName u')) := fun hu => by
    refine .bind (typeName_follows hu) ?_
    rintro _ _ s _ rfl
    exact .pure (.string s)
  have hother : S.Follows js p Value.Matches (do return .string (← typeName (← evaluate operand)))
      (do return .string (← typeName (← evaluate operand))) :=
    .bind (.evaluate h) fun _ _ _ _ hu => hname hu
  unfold evaluateTypeOf
  cases operand with
  | identifier name =>
    refine .read_bind (V := .option Binding.Matches) (fun hm => (S.matched hm).lookup name)
      fun x y hxy => ?_
    cases hxy with
    | none => exact .bind (.pure .undefined) fun _ _ _ _ hu => hname hu
    | some hxy => exact .bind (readVariable_follows hxy.location) fun _ _ _ _ hu => hname hu
  | _ => exact hother

/-! ## Forms -/

theorem evaluateUnary_follows (op : UnaryOp) {operand : Expression} (h : S.Sound operand.trees) :
    S.Follows js p Value.Matches (evaluateUnary op operand) (evaluateUnary op operand) := by
  have hother : S.Follows js p Value.Matches (do applyUnary op (← evaluate operand))
      (do applyUnary op (← evaluate operand)) :=
    .bind (.evaluate h) fun _ _ _ _ hu => applyUnary_follows op hu
  unfold evaluateUnary
  cases op with
  | typeOf => exact evaluateTypeOf_follows h
  | delete => exact delete_follows h
  | _ => exact hother

theorem readNamed_follows {object : Expression} {key : Script String} (h : S.Sound object.trees)
    (hkey : ∀ q, S.Follows js q .same key key) :
    S.Follows js p Value.Matches
      (do
        let (base, name) ← evaluateMember object key
        readMember base name)
      (do
        let (base, name) ← evaluateMember object key
        readMember base name) := by
  refine .bind (evaluateMember_follows h hkey) ?_
  rintro q _ ⟨u, name⟩ ⟨u', _⟩ ⟨hu, rfl⟩
  exact readMember_follows hu name

theorem expressionForm_follows {e : Expression} (h : S.Sound e.trees) :
    S.Follows js p Value.Matches (expressionForm e) (expressionForm e) := by
  unfold expressionForm
  cases e <;> rw [Expression.trees] at h
  case literal l => cases l <;> exact .pure (by constructor)
  case identifier name =>
    exact .bind (binding_follows name) fun _ _ _ _ hb => readVariable_follows hb.location
  case this =>
    refine .read fun hm => ?_
    have hthis := (S.matched hm).frame.this
    exact .ref (Matching.option_getD (V := .id) hthis p.intrinsic_global)
  case array elements => exact evaluateArray_follows h
  case object properties => exact evaluateObject_follows h
  case function tree => exact evaluateFunction_follows h
  case unary op operand => exact evaluateUnary_follows op h
  case binary op left right =>
    refine .bind (.evaluate h.left) fun q _ u u' hu => ?_
    exact .bind (.evaluate h.right) fun r hr x x' hx => applyBinary_follows op (hu.mono hr) hx
  case logical op left right =>
    refine .bind (.evaluate h.left) fun q _ u u' hu => ?_
    rw [hu.isTruthy_eq]
    split
    · exact .pure hu
    · exact .evaluate h.right
  case update op before target => exact update_follows op before h
  case assign op target value => exact assign_follows op h.left h.right
  case conditional test yes no =>
    refine .bind (.evaluate h.left.left) fun q _ u u' hu => ?_
    rw [hu.isTruthy_eq]
    split
    · exact .evaluate h.left.right
    · exact .evaluate h.right
  case call callee args => exact evaluateCall_follows h.left h.right
  case construct callee args => exact evaluateNew_follows h.left h.right
  case member object name => exact readNamed_follows h fun _ => name_follows name
  case index object key => exact readNamed_follows h.left fun _ => evaluateKey_follows h.right
  case sequence parts =>
    refine .fold (Matching.list_member parts) Matching.member_mono .undefined ?_
    rintro q _ _ _ e _ - ⟨rfl, he⟩
    exact .evaluate (h.mono (Expression.trees_subset_treesOf he))

end Simulation

end PageScript
