import PageScript.Proofs.Arrays.Lists
import PageScript.Proofs.Fresh
import PageScript.Proofs.OwnCode
import PageScript.Proofs.Properties

/-! # Declarations of an activation

The names that are declared before a list of statements runs are those that any of its statements may declare
while it runs: the statements that an activation comes to are the substatements of its list.
-/

set_option autoImplicit false

namespace PageScript

open Script

/-! ## Statements of an activation -/

namespace Script

open Classical in
/-- Performs tasks for the code of one activation, with an alarm in place of any statement that is not one of
`own` or that an expression performs.  Calls and hooks are left to their own activations. -/
noncomputable def performOwn (own : Statement → Prop) (alarm : Outcome Value) (config : Config) (host : Host) :
    Nat → Task → Machine → Outcome Value
  | 0, _, m => .exhausted m
  | limit + 1, .expression e, m =>
    step host (.expression e)
      ⟨config, host.toObserver, performOwn (fun _ => False) alarm config host limit, limit⟩ m
  | limit + 1, .statement s labels, m =>
    if own s then
      step host (.statement s labels)
        ⟨config, host.toObserver, performOwn own alarm config host limit, limit⟩ m
    else alarm
  | limit + 1, t, m => performUpTo config host (limit + 1) t m

end Script

/-- An engine for the code of one activation, which consists of some statements. -/
noncomputable def Engine.own (own : Statement → Prop) (alarm : Outcome Value) (config : Config) (host : Host)
    (limit : Nat) : Engine :=
  ⟨config, host.toObserver, performOwn own alarm config host limit, limit⟩

namespace Script

variable {α : Type} {own : Statement → Prop} {config : Config} {host : Host} {alarm : Outcome Value}
  {body : List Statement}

/-- No task raises the alarm if the statements that an activation may perform are closed under
substatements. -/
theorem performOwn_eq (hclosed : ∀ s, own s → ∀ t ∈ s.form.substatements, own t) (limit : Nat) (t : Task)
    (ht : t.Within own) :
    performOwn own alarm config host limit t = performUpTo config host limit t := by
  induction limit generalizing own t with
  | zero =>
    funext m
    cases t <;> rfl
  | succ limit ih =>
    funext m
    cases t with
    | expression e =>
      have hposes : Poses (fun _ => False) (runExpression e) := .runExpression e
      exact congrFun (hposes (.upTo config host limit) _ fun t ht => ih (fun _ h => h.elim) t ht) m
    | statement s labels =>
      have hposes : Poses own (runStatement s labels) := .runStatement (hclosed s ht) labels
      unfold performOwn
      rw [if_pos (show own s from ht)]
      exact congrFun (hposes (.upTo config host limit) _ fun t ht => ih hclosed t ht) m
    | _ => rfl

theorem Poses.own_eq {x : Script α} (hx : Poses own x)
    (hclosed : ∀ s, own s → ∀ t ∈ s.form.substatements, own t)
    (alarm : Outcome Value) (config : Config) (host : Host) (limit : Nat) :
    x (.own own alarm config host limit) = x (.upTo config host limit) :=
  hx (.upTo config host limit) _ fun t ht => performOwn_eq hclosed limit t ht

/-! ### Programs -/

theorem Poses.hoist (body : List Statement) (scope : ObjectId) : Poses own (Script.hoist body scope) := by
  refine .bind (.fold (fun _ _ _ => .declare _ _) _) fun _ => .fold (fun tree _ _ => ?_) _
  unfold Script.declareFunction
  cases tree.name with
  | none => exact .pure _
  | some name => exact fun _ _ _ => rfl

theorem Poses.runTopLevel {s : Statement} (hs : own s) (last : Value) :
    Poses own (Script.runTopLevel last s) := by
  have hcollect : Poses own Script.collectIfDue := by
    refine .bind (fun _ _ _ => rfl) fun limit => .bind (.read _) fun due => ?_
    split
    · exact .bind (fun _ _ _ => rfl) fun _ => .pure _
    · exact .pure _
  refine .bind (.attempt (.runInner hs)) fun c => ?_
  split
  · exact .pure _
  · refine .bind (.read _) fun stopped => ?_
    split
    · exact .pure _
    · exact .bind (.modify _) fun _ => .bind hcollect fun _ => .pure _

theorem Poses.runProgram (hbody : ∀ s ∈ body, own s) (this : Option ObjectId) (withs : List ObjectId) :
    Poses own (Script.runProgram body this withs) :=
  .bind (.modify _) fun _ => .bind (fun _ _ _ => rfl) fun _ => .bind (.hoist _ _) fun _ =>
    .bind (.foldUntil (fun s hs last => .runTopLevel (hbody s hs) last) _) fun _ => .bind (.modify _) fun _ =>
      .bind (fun _ _ _ => rfl) fun _ => .bind (.modify _) fun _ => .pure _

end Script

/-! ## Variables that are there -/

namespace Object

theorem names_update {f : Variable → Variable} (hf : ∀ x, (f x).name = x.name) (name : String) (o : Object) :
    (o.update name f).names = o.names := by
  unfold update
  split
  · exact names_modify hf _ _
  · rfl

end Object

/-- Whether an object is still live on a later machine, and has all the names that it had. -/
structure Machine.Retains (scope : ObjectId) (m n : Machine) : Prop where
  sound : n.heap.Sound
  live : n.heap.isLive scope = true
  names : m.heap.names scope ⊆ n.heap.names scope

theorem Machine.Retains.trans {scope : ObjectId} {m n k : Machine} (h : m.Retains scope n)
    (h' : n.Retains scope k) : m.Retains scope k :=
  ⟨h'.sound, h'.live, List.Subset.trans h.names h'.names⟩

/-- A change that leaves an object as it is changes nothing. -/
theorem Heap.modify_eq_self {h : Heap} {a : ObjectId} {f : Object → Object}
    (hf : ∀ o, h.get? a = some o → f o = o) : h.modify a f = h := by
  have hslots : h.slots.modify a.index (Option.map fun s => { s with object := f s.object }) = h.slots := by
    refine Array.ext_getElem? fun i => ?_
    rw [Array.getElem?_modify]
    split
    · rename_i hi
      subst hi
      cases hs : h.slots[a.index]? with
      | none => rfl
      | some slot =>
        cases slot with
        | none => rfl
        | some s =>
          have ho : h.get? a = some s.object := by rw [Heap.get?, Heap.slot?, hs]; rfl
          simp [hf s.object ho]
    · rfl
  show { h with slots := _ } = h
  rw [hslots]

namespace Script

variable {m n : Machine} {scope : ObjectId} {name : String}

theorem retains_modify (hm : m.heap.Sound) (hlive : m.heap.isLive scope = true) {f : Object → Object}
    (hf : ∀ o : Object, o.names <+: (f o).names) :
    m.Retains scope { m with heap := m.heap.modify scope f } where
  sound := hm.modifySlot _
  live := (Heap.isLive_modifySlot _).trans hlive
  names := (Heap.names_modify_prefix (fun o _ => hf o) scope).subset

theorem names_declared (name : String) (o : Object) :
    o.names <+: (if o.has name then o
      else o.push { Variable.plain name .undefined with permanent := true }).names := by
  split
  · exact List.prefix_rfl
  · rw [Object.names_push]
    exact List.prefix_append ..

theorem declare_owns (hm : m.heap.Sound) (hlive : m.heap.isLive scope = true) (name : String) (e : Engine) :
    ∃ n, declare scope name e m = .value () n ∧ m.Retains scope n ∧ n.heap.owns scope name = true := by
  refine ⟨_, rfl, retains_modify hm hlive (names_declared name), ?_⟩
  obtain ⟨s, hs⟩ := Option.isSome_iff_exists.1 hlive
  have ho : m.heap.get? scope = some s.object := by rw [Heap.get?, hs]; rfl
  rw [Heap.owns_eq_has (Heap.get?_modify_self ho)]
  cases hhas : s.object.has name with
  | true => simp [hhas]
  | false => simp [Object.has_iff, Variable.plain]

/-- To declare a name that is there changes nothing. -/
theorem declare_of_owns (howns : m.heap.owns scope name = true) (e : Engine) :
    declare scope name e m = .value () m := by
  show Outcome.value () { m with heap := m.heap.modify scope _ } = _
  rw [Heap.modify_eq_self]
  intro o ho
  rw [Heap.owns_eq_has ho] at howns
  rw [if_pos howns]

theorem declareFunction_retains (hm : m.heap.Sound) (hlive : m.heap.isLive scope = true)
    (tree : FunctionTree) (e : Engine) :
    ∃ n, declareFunction scope tree e m = .value () n ∧ m.Retains scope n := by
  unfold declareFunction
  cases tree.name with
  | none => exact ⟨m, rfl, hm, hlive, List.Subset.refl _⟩
  | some name =>
    let o : Object := { (Object.empty (some Intrinsic.function)).putHidden "length"
      (.ofNat tree.parameters.length) with callable := some (.script tree scope) }
    let made : Machine := { m with heap := (m.heap.alloc o).2 }
    have hslot : made.heap.slot? scope = m.heap.slot? scope := by
      rw [Heap.slot?_alloc hm, if_neg (Heap.alloc_ne hm hlive o)]
    have hmade : m.Retains scope made := by
      refine ⟨hm.alloc o, by rw [Heap.isLive, hslot]; exact hlive, ?_⟩
      rw [Heap.names, Heap.names, Heap.get?, Heap.get?, hslot]
      exact List.Subset.refl _
    obtain ⟨k, hdeclare, hk, -⟩ := declare_owns hmade.sound hmade.live name e
    have hmake : newFunction tree scope e m = .value (m.heap.alloc o).1 made := rfl
    let bound (v : Variable) : Variable := { v with value := .ref (m.heap.alloc o).1 }
    have hnames : ∀ o : Object, o.names <+: (o.update name bound).names := fun o => by
      rw [Object.names_update (f := bound) fun _ => rfl]
    exact ⟨_, (bind_of_value hmake _).trans (bind_of_value hdeclare _),
      hmade.trans (hk.trans (retains_modify hk.sound hk.live hnames))⟩

theorem fold_retains {β : Type} {step : Unit → β → Script Unit} {P : β → Machine → Prop} {e : Engine}
    (hP : ∀ b n k, P b n → n.Retains scope k → P b k) {items : List β}
    (hstep : ∀ b ∈ items, ∀ m : Machine, m.heap.Sound → m.heap.isLive scope = true →
      ∃ n, step () b e m = .value () n ∧ m.Retains scope n ∧ P b n)
    (hm : m.heap.Sound) (hlive : m.heap.isLive scope = true) :
    ∃ n, fold step items () e m = .value () n ∧ m.Retains scope n ∧ ∀ b ∈ items, P b n := by
  induction items generalizing m with
  | nil => exact ⟨m, rfl, ⟨hm, hlive, List.Subset.refl _⟩, nofun⟩
  | cons b rest ih =>
    obtain ⟨n, hfirst, hn, hb⟩ := hstep b (.head _) m hm hlive
    obtain ⟨k, hrest, hk, hall⟩ := ih (fun c hc => hstep c (.tail _ hc)) hn.sound hn.live
    refine ⟨k, (bind_of_value hfirst fun s => fold step rest s).trans hrest, hn.trans hk, fun c hc => ?_⟩
    rcases List.mem_cons.1 hc with rfl | hc
    · exact hP c n k hb hk
    · exact hall c hc

/-- All variables of a list of statements are there before it runs. -/
theorem hoist_owns (body : List Statement) (hm : m.heap.Sound) (hlive : m.heap.isLive scope = true)
    (e : Engine) :
    ∃ n, hoist body scope e m = .value () n ∧ ∀ name ∈ hoistedNames body, n.heap.owns scope name = true := by
  have hkept : ∀ name (n k : Machine), n.heap.owns scope name = true → n.Retains scope k →
      k.heap.owns scope name = true := fun name n k howns hk =>
    Heap.owns_iff.2 (hk.names (Heap.owns_iff.1 howns))
  obtain ⟨n, hnames, hn, hall⟩ : ∃ n, fold (fun _ name => declare scope name) (hoistedNames body) () e m
      = .value () n ∧ m.Retains scope n ∧ ∀ name ∈ hoistedNames body, n.heap.owns scope name = true :=
    fold_retains hkept (fun name _ m hm hlive => declare_owns hm hlive name e) hm hlive
  obtain ⟨k, hfunctions, hk, -⟩ : ∃ k, fold (fun _ tree => declareFunction scope tree)
      (Statement.functionsOf body) () e n = .value () k ∧ n.Retains scope k ∧
        ∀ tree ∈ Statement.functionsOf body, True :=
    fold_retains (fun _ _ _ _ _ => trivial) (fun tree _ m hm hlive => by
      obtain ⟨n, hdeclare, hn⟩ := declareFunction_retains hm hlive tree e
      exact ⟨n, hdeclare, hn, trivial⟩) hn.sound hn.live
  exact ⟨k, (bind_of_value hnames _).trans hfunctions, fun name hname => hkept name n k (hall name hname) hk⟩

/-! ## Statements that declare -/

/-- Declares variables one after another, each with its initial value, if they are among some names, and
refuses any other. -/
def declareAmong (names : List String) (refuse : Script Unit) (declarators : List Declarator) : Script Unit := do
  let locals ← read (·.frame.locals)
  fold (fun _ d => do
    match d with
    | .mk name initial =>
      if name ∈ names then declare locals name else refuse
      if let some e := initial then
        let _ ← writeVariable ⟨locals, name⟩ (← evaluate e)) declarators ()

/-- Runs a form of statement, with something else in place of the declaration of its own variables. -/
def runDeclaring (declaring : Script Unit) (form : StatementForm) (labels : List String) : Script Value := do
  match form with
  | .declare _ =>
    declaring
    return .undefined
  | .forLoop (.declare _) test update body =>
    declaring
    iterate (fun last => do
      if ← testHolds test then runBody labels body last (runForUpdate update)
      else return .inr last) Value.undefined
  | .forVariable d object body =>
    declaring
    runForIn object (fun name => do
      let locals ← read (·.frame.locals)
      let _ ← writeVariable ⟨locals, d.name⟩ name) body labels
  | form => statementForm form labels

theorem statementForm_eq (form : StatementForm) (labels : List String) :
    statementForm form labels = runDeclaring (declareVariables form.declarators) form labels := by
  cases form with
  | forLoop start test update body => cases start <;> rfl
  | _ => rfl

theorem fold_congr {β σ : Type} {step step' : σ → β → Script σ} {items : List β}
    (h : ∀ b ∈ items, ∀ s, step s b = step' s b) (s : σ) : fold step items s = fold step' items s := by
  induction items generalizing s with
  | nil => rfl
  | cons b rest ih =>
    rw [fold_cons, fold_cons, h b (.head _)]
    exact congrArg (Script.bind _) (funext fun s => ih (fun c hc => h c (.tail _ hc)) s)

theorem declareAmong_eq {names : List String} {declarators : List Declarator}
    (hnames : ∀ d ∈ declarators, d.name ∈ names) (refuse : Script Unit) :
    declareAmong names refuse declarators = declareVariables declarators := by
  unfold declareAmong declareVariables
  refine congrArg (Script.bind _) (funext fun locals => fold_congr (fun d hd _ => ?_) ())
  obtain ⟨name, initial⟩ := d
  have hname : name ∈ names := hnames _ hd
  exact if_pos hname

/-! ## Coverage -/

/-- What is declared before a list of statements runs is what stands declared in it outside nested functions:
each variable once, in the order of first occurrence, and all functions in source order.  However it runs, its
activation comes to the statements of the list only, and these declare no variable that is not there then. -/
theorem hoisting_covers (body : List Statement) :
    let parts := Statement.substatementsOf body
    (∀ name, name ∈ hoistedNames body ↔ ∃ s ∈ parts, name ∈ s.declares) ∧
    (hoistedNames body).Nodup ∧
    (hoistedNames body).Pairwise (fun s t =>
      (parts.flatMap Statement.declares).idxOf s < (parts.flatMap Statement.declares).idxOf t) ∧
    Statement.functionsOf body = parts.filterMap (fun s => s.form.function?) ∧
    (∀ alarm config host limit,
      runStatements body (.own (· ∈ parts) alarm config host limit)
        = runStatements body (.upTo config host limit) ∧
      ∀ this withs, runProgram body this withs (.own (· ∈ parts) alarm config host limit)
        = runProgram body this withs (.upTo config host limit)) ∧
    (∀ s ∈ parts, ∀ refuse labels, statementForm s.form labels
      = runDeclaring (declareAmong (hoistedNames body) refuse s.form.declarators) s.form labels) ∧
    ∀ e (m : Machine) scope, m.heap.Sound → m.heap.isLive scope = true →
      (∃ n, hoist body scope e m = .value () n ∧
        ∀ name ∈ hoistedNames body, n.heap.owns scope name = true) ∧
      ∀ name, m.heap.owns scope name = true → declare scope name e m = .value () m := by
  intro parts
  have hbody : ∀ s ∈ body, s ∈ parts := fun s hs =>
    Statement.substatements_subset_substatementsOf hs (Statement.mem_substatements_self s)
  have hclosed : ∀ s, s ∈ parts → ∀ t ∈ s.form.substatements, t ∈ parts := fun s hs t ht =>
    Statement.form_substatementsOf_subset body hs ht
  refine ⟨fun name => mem_hoistedNames, nodup_firstOccurrences [] _, ?_, Statement.functionsOf_eq body, ?_, ?_, ?_⟩
  · rw [← Statement.namesOf_eq]
    exact firstOccurrences_ordered [] _
  · intro alarm config host limit
    refine ⟨(Poses.runStatements hbody).own_eq hclosed alarm config host limit, fun this withs => ?_⟩
    exact (Poses.runProgram hbody this withs).own_eq hclosed alarm config host limit
  · intro s hs refuse labels
    rw [statementForm_eq, declareAmong_eq]
    exact fun d hd => mem_hoistedNames.2 ⟨s, hs, List.mem_map_of_mem hd⟩
  · intro e m scope hm hlive
    exact ⟨hoist_owns body hm hlive e, fun name howns => declare_of_owns howns e⟩

/-- A function behind a label, and variables in the head of a loop, in a handler and after it. -/
theorem hoisting_covers_nested :
    let tree : FunctionTree := .mk (some "f") [] [.mk 4 (.declare [.mk "inner" none])] 4
    let body : List Statement :=
      [.mk 1 (.forVariable (.mk "key" none) .this (.mk 1 (.tryCatchFinally
        [.mk 2 (.declare [.mk "x" (some .this)])] "error" [.mk 3 (.declare [.mk "y" none, .mk "x" none])]
        [.mk 4 (.labeled "label" (.mk 4 (.function tree)))])))]
    hoistedNames body = ["key", "x", "y"] ∧ Statement.functionsOf body = [tree] ∧
      ∀ e, ∃ n, hoist body Intrinsic.globalObject e (Interpreter.initialMachine {}) = .value () n ∧
        ∀ name ∈ ["key", "x", "y"], n.heap.owns Intrinsic.globalObject name = true := by
  intro tree body
  have hnames : hoistedNames body = ["key", "x", "y"] := by decide +kernel
  have hlive : Realm.heap.isLive Intrinsic.globalObject = true := by decide +kernel
  refine ⟨hnames, rfl, fun e => ?_⟩
  rw [← hnames]
  obtain ⟨-, -, -, -, -, -, hhoist⟩ := hoisting_covers body
  exact (hhoist e (Interpreter.initialMachine {}) Intrinsic.globalObject Realm.heap_sound hlive).1

end Script

end PageScript
