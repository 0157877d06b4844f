import PageScript.Proofs.Collection.Boundary
import PageScript.Proofs.Composed.Tasks
import PageScript.Proofs.Precedence
import PageScript.Proofs.Reads

/-! # Names in code given as text

`eval` runs its text in an activation of its own.  That shares the variables, the scope and the `this` of the
code that called `eval`, but has nothing in front of them: what `with` statements and the embedding program
have put in front of the caller's scope stays with the caller, and is searched from there.  The text therefore
finds a name exactly if its caller finds it.  Yet objects in front of the caller's scope come after that
scope, and not before it.
-/

set_option autoImplicit false

namespace PageScript

/-! ## Activations -/

/-- The activations that run script code: the outermost one, those of functions, and those of code given as
text. -/
inductive Frame.OfScript : Frame → Prop where
  | outermost (this : ObjectId) (withs : List WithEntry) : OfScript (.outermost this withs)
  | function {f : Frame} (kind : f.kind = .function) : OfScript f
  | text {f : Frame} (kind : f.kind = .eval) : OfScript f

/-- The activation of code given as text by the code of another activation. -/
def Frame.forText (f : Frame) : Frame := { f with kind := .eval, withs := [], constructing := false }

namespace Machine

variable {h : Heap} {name : String} {f : Frame} {fs : List Frame} {m : Machine}

/-- What is found beyond the innermost activation. -/
def lookupBeyond (m : Machine) (name : String) : Option Binding :=
  (lookupCallers m.heap name m.frame.isTransparent m.callers).or
    ((m.heap.findOwner Intrinsic.globalObject name).map fun owner => ⟨⟨owner, name⟩, none⟩)

theorem lookup_eq (m : Machine) (name : String) :
    m.lookup name = (lookupFrame m.heap name m.frame).or (m.lookupBeyond name) := by
  unfold lookup lookupBeyond
  cases lookupFrame m.heap name m.frame with
  | some b => rfl
  | none => cases lookupCallers m.heap name m.frame.isTransparent m.callers <;> rfl

/-- An activation searches what was put in front of it, and then what it would search without that. -/
theorem lookupFrame_eq (h : Heap) (name : String) (f : Frame) :
    lookupFrame h name f = (lookupWiths h name f.withs).or (lookupFrame h name { f with withs := [] }) := by
  unfold lookupFrame
  cases lookupWiths h name f.withs <;> rfl

/-- An object that has a variable of a name is the first one of its chain that has it. -/
theorem findOwner_of_owns {a : ObjectId} (howns : h.owns a name = true) : h.findOwner a name = some a := by
  unfold Heap.owns at howns
  unfold Heap.findOwner Heap.chainLimit Heap.findOwnerFrom
  cases ho : h.get? a with
  | none => rw [ho] at howns; cases howns
  | some o =>
    rw [ho] at howns
    exact if_pos howns

/-- The scope of script code is also what code given to it as text searches itself. -/
theorem lookupFrame_forText (hf : f.OfScript) :
    lookupFrame h name f = (lookupWiths h name f.withs).or (lookupFrame h name f.forText) := by
  rw [lookupFrame_eq]
  congr 1
  cases hf with
  | function kind =>
    unfold lookupFrame Frame.forText
    rw [kind]
    rfl
  | text kind =>
    unfold lookupFrame Frame.forText
    rw [kind]
  | outermost this withs =>
    -- the variables of the outermost activation are those of its scope
    change _ = if h.owns Intrinsic.globalObject name = true then _ else _
    split_ifs with howns
    · have hscope := findOwner_of_owns howns
      simp [lookupFrame, lookupWiths, Frame.outermost, Frame.forText, hscope]
    · rfl

/-- Code given as text sees through the activation of `eval` to the code that called it. -/
theorem lookupCallers_asking {asking : Frame} (hkind : asking.kind = .native) (hwiths : asking.withs = [])
    (hnone : h.owns f.locals name = false) :
    lookupCallers h name true (asking :: f :: fs)
      = (lookupWiths h name f.withs).or (lookupCallers h name f.isTransparent fs) := by
  have hthrough : asking.isTransparent = true := by
    unfold Frame.isTransparent
    rw [hkind]
    rfl
  have hall : f.withs.filter (fun w => w.everywhere || true) = f.withs := by
    rw [List.filter_eq_self]
    exact fun w _ => Bool.or_true _
  have hbehind : lookupBehind h name true f fs = lookupCallers h name f.isTransparent fs := by
    unfold lookupBehind
    rw [hnone, Bool.and_false, Bool.true_and]
    exact if_neg Bool.false_ne_true
  have hasking : lookupBehind h name true asking (f :: fs) = lookupCallers h name true (f :: fs) := by
    unfold lookupBehind
    rw [hkind, hthrough]
    exact if_neg Bool.false_ne_true
  rw [lookupCallers_cons, hwiths, hasking, lookupCallers_cons, hall, hbehind]
  rfl

theorem lookupFrame_forText_of_owns (howns : h.owns f.locals name = true) :
    lookupFrame h name f.forText = some ⟨⟨f.locals, name⟩, none⟩ := if_pos howns

theorem not_owns_of_forText (hnone : lookupFrame h name f.forText = none) : h.owns f.locals name = false := by
  cases howns : h.owns f.locals name with
  | false => rfl
  | true =>
    rw [lookupFrame_forText_of_owns howns] at hnone
    cases hnone

/-- The places in which code given as text looks up a name, and those in which its caller does: the caller
begins with what was put in front of its scope, and the text comes to that after the scope. -/
theorem lookup_forText {asking f : Frame} (hkind : asking.kind = .native) (hwiths : asking.withs = [])
    (hf : f.OfScript) {k : Machine} {ws : List WithEntry} (hframe : k.frame = { f.forText with withs := ws })
    (hcallers : k.callers = asking :: f :: fs) (name : String) :
    let asked : Machine := { k with frame := f, callers := fs }
    k.lookup name = (lookupWiths k.heap name ws).or ((lookupFrame k.heap name f.forText).or
        ((lookupWiths k.heap name f.withs).or (asked.lookupBeyond name))) ∧
      asked.lookup name = (lookupWiths k.heap name f.withs).or ((lookupFrame k.heap name f.forText).or
        (asked.lookupBeyond name)) := by
  intro asked
  have hown : lookupFrame k.heap name k.frame
      = (lookupWiths k.heap name ws).or (lookupFrame k.heap name f.forText) := by
    rw [lookupFrame_eq, hframe]
    rfl
  have hasked : lookupFrame asked.heap name asked.frame
      = (lookupWiths k.heap name f.withs).or (lookupFrame k.heap name f.forText) := lookupFrame_forText hf
  rw [lookup_eq, hown, lookup_eq, hasked, Option.or_assoc, Option.or_assoc]
  refine ⟨?_, rfl⟩
  cases hscope : lookupFrame k.heap name f.forText with
  | some b => rfl
  | none =>
    have hthrough : k.frame.isTransparent = true := by rw [hframe]; rfl
    have hbeyond : k.lookupBeyond name
        = (lookupWiths k.heap name f.withs).or (asked.lookupBeyond name) := by
      unfold lookupBeyond
      rw [hthrough, hcallers, lookupCallers_asking hkind hwiths (not_owns_of_forText hscope), Option.or_assoc]
    rw [hbeyond]

end Machine

/-! ## Calls of `eval` -/

/-- Whether a function is the built-in one that runs text. -/
def Callable.isEval : Callable → Bool
  | .native _ (.global .eval) => true
  | _ => false

theorem Callable.native_of_any {c : Option Callable} (h : c.any isEval = true) :
    ∃ name, c = some (.native name (.global .eval)) := by
  cases c with
  | none => cases h
  | some c =>
    cases c with
    | script tree scope => cases h
    | native name native =>
      cases native with
      | global f =>
        cases f with
        | eval => exact ⟨name, rfl⟩
        | _ => cases h
      | _ => cases h

namespace Script

variable {e : Engine} {m : Machine}

/-- An ending is the same whether a return is taken before or after something is done to the machine. -/
theorem returning_afterwards (x : Script Value) (g : Machine → Machine) :
    returning (afterwards x g) = afterwards (returning x) g := by
  funext e m
  unfold returning afterwards
  dsimp only
  cases x e m with
  | abrupt c n => cases c <;> rfl
  | _ => rfl

theorem afterwards_afterwards {α : Type} (x : Script α) (g g' : Machine → Machine) :
    afterwards (afterwards x g) g' = afterwards x fun n => g' (g n) := by
  funext e m
  unfold afterwards
  cases x e m <;> rfl

theorem returning_congr {x y : Script Value} {n : Machine} (h : x e m = y e n) :
    returning x e m = returning y e n := by
  unfold returning
  rw [h]

theorem afterwards_congr {α : Type} {x y : Script α} {n : Machine} (h : x e m = y e n)
    (g : Machine → Machine) : afterwards x g e m = afterwards y g e n := by
  unfold afterwards
  rw [h]

/-- Text that can be read runs in an activation for it, within that of `eval`. -/
theorem step_eval (host : Host) {f : ObjectId} {name source : String} {body : List Statement}
    (hf : (m.heap.get? f).bind Object.callable = some (.native name (.global .eval)))
    (hdepth : m.callDepth < e.config.maxDepth) (hparse : Program.parse source = .ok body)
    (this : Option ObjectId) (args : List Value) (constructing : Bool) :
    ∃ events, step host (.call f this (.string source :: args) constructing) e m
      = afterwards (returning (do hoist body m.frame.locals; runStatements body)) (fun n => n.pop.pop.surface) e
          ((({ m.submerge with events := events } : Machine).push
            (nativeFrame f (this.getD Intrinsic.globalObject) constructing)).push m.frame.forText) := by
  obtain ⟨events, hlog, -⟩ := Simulation.log_value .trace
    (fun n => "call " ++ (Callable.native name (.global .eval)).name?.getD "<anonymous>" ++ " (depth "
      ++ toString n.callDepth ++ ")") e m.submerge
  let asking : Frame := nativeFrame f (this.getD Intrinsic.globalObject) constructing
  let called : Machine := { m.submerge with events := events }
  let x : Script Value := do hoist body m.frame.locals; runStatements body
  have hrun : deepened host f (this.getD Intrinsic.globalObject) (.string source :: args) constructing
        (.native name (.global .eval)) e m.submerge
      = returning (within asking (runSource source)) e called := bind_of_value hlog _
  have hsource : runSource source e (called.push asking)
      = afterwards x Machine.pop e ((called.push asking).push m.frame.forText) := by
    unfold runSource
    rw [hparse]
    rfl
  refine ⟨events, ?_⟩
  calc step host (.call f this (.string source :: args) constructing) e m
    _ = afterwards (returning (within asking (runSource source))) Machine.surface e called :=
        (step_granted hf hdepth).trans (afterwards_congr hrun _)
    _ = afterwards (returning (afterwards (runSource source) Machine.pop)) Machine.surface e
          (called.push asking) := rfl
    _ = afterwards (returning (runSource source)) (fun n => n.pop.surface) e (called.push asking) := by
        rw [returning_afterwards, afterwards_afterwards]
    _ = afterwards (returning (afterwards x Machine.pop)) (fun n => n.pop.surface) e
          ((called.push asking).push m.frame.forText) := afterwards_congr (returning_congr hsource) _
    _ = afterwards (returning x) (fun n => n.pop.pop.surface) e
          ((called.push asking).push m.frame.forText) := by
        rw [returning_afterwards, afterwards_afterwards]

/-- When the code of an activation calls `eval` with text that can be read, the text runs in an activation
that shares the variables, the scope and the `this` of the caller's.  At any time until it ends, and whatever
its own `with` statements have in front, a name is looked up in these, then in what is in front of the caller's
scope, then beyond the caller; the caller looks in front of its scope first.  So the text finds a name exactly if
its caller does, and the same variable unless the caller has it both in its scope and in front of that. -/
theorem eval_lookup (config : Config) (host : Host) (limit : Nat) {m : Machine} {f : ObjectId}
    {name source : String} {body : List Statement}
    (hf : (m.heap.get? f).bind Object.callable = some (.native name (.global .eval)))
    (hdepth : m.callDepth < config.maxDepth) (hparse : Program.parse source = .ok body)
    (hframe : m.frame.OfScript) (this : Option ObjectId) (args : List Value) (constructing : Bool) :
    ∃ n : Machine, n.heap = m.heap ∧ n.frame = m.frame.forText ∧
      performUpTo config host (limit + 1) (.call f this (.string source :: args) constructing) m
        = afterwards (returning (do hoist body m.frame.locals; runStatements body))
            (fun k => k.pop.pop.surface) (.upTo config host limit) n ∧
      ∀ (k : Machine) (ws : List WithEntry), k.frame = { n.frame with withs := ws } → k.callers = n.callers →
        ∀ x,
          let asked : Machine := { k with frame := m.frame, callers := m.callers }
          let inner := Machine.lookupWiths k.heap x ws
          let scope := Machine.lookupFrame k.heap x n.frame
          let front := Machine.lookupWiths k.heap x m.frame.withs
          k.lookup x = inner.or (scope.or (front.or (asked.lookupBeyond x))) ∧
          asked.lookup x = front.or (scope.or (asked.lookupBeyond x)) ∧
          (inner = none → (k.lookup x = none ↔ asked.lookup x = none)) ∧
          (inner = none → front = none ∨ scope = none → k.lookup x = asked.lookup x) := by
  obtain ⟨events, hstep⟩ := step_eval (e := .upTo config host limit) host hf hdepth hparse this args constructing
  let asking : Frame := nativeFrame f (this.getD Intrinsic.globalObject) constructing
  refine ⟨(({ m.submerge with events := events } : Machine).push asking).push m.frame.forText, rfl, rfl, hstep,
    fun k ws hk hcallers x => ?_⟩
  intro asked inner scope front
  have hboth : k.lookup x = inner.or (scope.or (front.or (asked.lookupBeyond x))) ∧
      asked.lookup x = front.or (scope.or (asked.lookupBeyond x)) :=
    @Machine.lookup_forText _ asking m.frame rfl rfl hframe k ws hk hcallers x
  obtain ⟨htext, hasked⟩ := hboth
  refine ⟨htext, hasked, fun hinner => ?_, fun hinner heither => ?_⟩
  · rw [htext, hasked, hinner]
    simp only [Option.none_or, Option.or_eq_none_iff]
    tauto
  · rw [htext, hasked, hinner, Option.none_or]
    rcases heither with hfront | hscope
    · rw [hfront, Option.none_or, Option.none_or]
    · rw [hscope, Option.none_or, Option.none_or]

/-- The code of a function has put the prototype of arrays in front of its scope, and has a variable
`toString`.  It finds the method of arrays under that name, and the text it gives to `eval` finds the
variable. -/
theorem eval_lookup_shadowed :
    let host := Stock.printer (Stock.scripted none [] [])
    let m : Machine := { Interpreter.initialMachine {} with
      frame := { kind := .function, locals := Intrinsic.object, scope := Intrinsic.globalObject,
                 withs := [⟨Intrinsic.array, false⟩], arguments := none, callee := none, this := none,
                 constructing := false }
      callers := [Frame.outermost Intrinsic.globalObject []] }
    ∃ n body, n.frame = m.frame.forText ∧
      performUpTo {} host 101 (.call ⟨148⟩ none [.string "toString"] false) m
        = afterwards (returning (do hoist body m.frame.locals; runStatements body))
            (fun k => k.pop.pop.surface) (.upTo {} host 100) n ∧
      n.lookup "toString" = some ⟨⟨Intrinsic.object, "toString"⟩, none⟩ ∧
      ({ n with frame := m.frame, callers := m.callers } : Machine).lookup "toString"
        = some ⟨⟨Intrinsic.array, "toString"⟩, some Intrinsic.array⟩ := by
  intro host m
  have hparse : (Program.parse "toString").isOk = true := by decide +kernel
  have hcallable : ((m.heap.get? ⟨148⟩).bind Object.callable).any Callable.isEval = true := by decide +kernel
  have howns : m.heap.owns Intrinsic.object "toString" = true := by decide +kernel
  have hwiths : m.heap.owns Intrinsic.array "toString" = true := by decide +kernel
  cases hbody : Program.parse "toString" with
  | error _ =>
    rw [hbody] at hparse
    cases hparse
  | ok body =>
    obtain ⟨name, hc⟩ := Callable.native_of_any hcallable
    obtain ⟨n, hheap, hframe, hrun, hlookup⟩ := eval_lookup {} host 100 hc (by decide) hbody (.function rfl)
      none [] false
    have hscope : Machine.lookupFrame n.heap "toString" n.frame
        = some ⟨⟨Intrinsic.object, "toString"⟩, none⟩ := by
      rw [hheap, hframe]
      exact Machine.lookupFrame_forText_of_owns howns
    have hfront : Machine.lookupWiths n.heap "toString" m.frame.withs
        = some ⟨⟨Intrinsic.array, "toString"⟩, some Intrinsic.array⟩ := by
      rw [hheap]
      unfold Machine.lookupWiths
      rw [Machine.findOwner_of_owns hwiths]
    obtain ⟨htext, hasked, -⟩ := hlookup n [] (by rw [hframe]; rfl) rfl "toString"
    refine ⟨n, body, hframe, hrun, ?_, ?_⟩
    · rw [htext, hscope]
      rfl
    · rw [hasked, hfront]
      rfl

end Script

end PageScript
