import PageScript.Proofs.Fresh
import PageScript.Proofs.Simulation.Foreign

/-! # The interface of interpreters

An embedding program comes to a machine by making an interpreter, running scripts and using the interface of
the interpreter.  Its functions and hooks use the same interface while scripts run.
-/

set_option autoImplicit false

namespace PageScript

open Script

/-! ## Code of the embedding program -/

/-- Defines a function of the embedding program on an object. -/
def Script.register (object : ObjectId) (name : String) (arity : Nat) (behavior : String) :
    Script ObjectId := do
  let f ← alloc (Object.foreign name arity behavior)
  defineHidden object name (.ref f)
  return f

/-- A computation that is composed of the functions of the interface. -/
inductive Interface : (α : Type) → Script α → Prop where
  | pure {α : Type} (a : α) : Interface α (pure a)
  | bind {α β : Type} {x : Script α} {f : α → Script β} (first : Interface α x)
      (next : ∀ a, Interface β (f a)) : Interface β (x >>= f)
  | abrupt {α : Type} (c : Abrupt) : Interface α (Script.abrupt c)
  | print (text : String) : Interface Unit (Script.emit (.printed text))
  | display (v : Value) : Interface String (Script.display v)
  | newObject : Interface ObjectId Script.newObject
  | newArray (elements : List Value) : Interface ObjectId (Script.arrayOf elements)
  | register (object : ObjectId) (name : String) (arity : Nat) (behavior : String) :
      Interface ObjectId (Script.register object name arity behavior)
  | getProperty (object : ObjectId) (name : String) : Interface Value (Script.getProperty object name)
  | setProperty (object : ObjectId) (name : String) (v : Value) :
      Interface Unit (Script.setProperty object name v)
  | addHook (object : ObjectId) (name behavior : String) (owner : ObjectId) :
      Interface Unit (Script.addHook object name behavior owner)
  | setAdditionHook (object : ObjectId) (behavior : Option String) :
      Interface Unit (Script.modifyObject object fun o =>
        { o with additionHook := behavior.map AdditionHook.host })
  | setCallsAsMember (object : ObjectId) (on : Bool) :
      Interface Unit (Script.modifyObject object fun o => { o with callsAsMember := on })
  | protect (object : ObjectId) (name : String) (key : Nat) :
      Interface Unit (Script.modifyObject object (·.update name fun v => { v with key := key }))
  | setKey (key : Nat) : Interface Unit (Script.modify fun m => { m with key := key })
  | keep (object : ObjectId) (on : Bool) :
      Interface Unit (Script.modify fun m =>
        { m with heap := if on then m.heap.pin object else m.heap.unpin object })
  | collectGarbage : Interface Heap.Census Script.collectGarbage
  | isLive (object : ObjectId) : Interface Bool (Script.read fun m => m.heap.isLive object)
  | wasStopped : Interface Bool (Script.read Machine.stopped)
  | returnValue : Interface Value (Script.read Machine.result)

namespace Interface

variable {α β : Type}

theorem fold {step : α → β → Script α} (hstep : ∀ s b, Interface α (step s b)) (items : List β) (s : α) :
    Interface α (Script.fold step items s) := by
  induction items generalizing s with
  | nil => exact .pure s
  | cons b items ih => exact .bind (hstep s b) ih

theorem each {f : β → Script α} (hf : ∀ b, Interface α (f b)) (items : List β) :
    Interface (List α) (Script.each f items) :=
  .bind (fold (fun _ b => .bind (hf b) fun _ => .pure _) items []) fun _ => .pure _

end Interface

/-- Whether the functions and hooks of an embedding program use nothing but the interface. -/
structure Host.Conforms (host : Host) : Prop where
  native : ∀ behavior this args, Interface Value (host.native behavior this args)
  readHook : ∀ behavior owner, Interface Value (host.readHook behavior owner)
  writeHook : ∀ behavior owner v, Interface Value (host.writeHook behavior owner v)
  offer : ∀ behavior object name, Interface Bool (host.offer behavior object name)

/-! ## Machines between two runs -/

/-- The machines that an embedding program can come to by scripts and the interface. -/
inductive Interpreter.Visited (config : Config) (host : Host) : Machine → Prop where
  | new : Visited config host (Interpreter.new config host).machine
  | run {m : Machine} {source : String} {body : List Statement} (before : Visited config host m)
      (parsed : Program.parse source = .ok body) (this : Option ObjectId) (withs : List ObjectId)
      (limit : Nat) :
      Visited config host (Script.runProgram body this withs (.upTo config host limit) m).machine
  | refused {m : Machine} {source : String} {e : SyntaxError} (before : Visited config host m)
      (parsed : Program.parse source = .error e) (limit : Nat) :
      Visited config host (Interpreter.showSyntaxError source e (.upTo config host limit) m).machine
  | use {m : Machine} {α : Type} {x : Script α} (before : Visited config host m) (code : Interface α x)
      (limit : Nat) : Visited config host (x (.upTo config host limit) m).machine

theorem Interpreter.register_machine (object : ObjectId) (name : String) (arity : Nat) (behavior : String)
    (i : Interpreter) (e : Engine) :
    (i.register object name arity behavior).2.machine
      = (Script.register object name arity behavior e i.machine).machine := rfl

/-- A new interpreter with some functions of the embedding program is one that it can come to. -/
theorem Interpreter.visited_fresh {config : Config} {host : Host} (functions : List Registration) :
    Visited config host (fresh config host functions).machine := by
  have hfold : ∀ i : Interpreter, Visited config host i.machine →
      Visited config host (functions.foldl (fun i f =>
        (i.register Intrinsic.globalObject f.name f.arity f.behavior).2) i).machine := by
    induction functions with
    | nil => exact fun i hi => hi
    | cons f rest ih =>
      refine fun i hi => ih _ ?_
      rw [register_machine _ _ _ _ i (.upTo config host 0)]
      exact .use hi (.register _ f.name f.arity f.behavior) 0
  exact hfold _ .new

/-! ## The stock of behaviors -/

namespace Stock

theorem print_interface (args : List Value) : Interface Value (print args) :=
  .bind (.each .display args) fun _ => .bind (.print _) fun _ => .pure _

theorem native_interface (behavior : String) (this : Value) (args : List Value) :
    Interface Value (native behavior this args) := by
  unfold native
  split
  · exact print_interface args
  · exact .pure _
  · exact .abrupt _
  · exact .abrupt _
  · exact .pure _
  · exact .pure _
  · exact .pure _
  · exact .bind (.newArray args) fun _ => .pure _
  · exact .abrupt _
  · exact .abrupt _
  · exact .abrupt _
  · exact .pure _

theorem readHook_interface (behavior : String) (owner : ObjectId) :
    Interface Value (readHook behavior owner) := by
  unfold readHook
  split
  · exact .pure _
  · exact .getProperty owner "raw"
  · exact .getProperty owner "raw"
  · exact .abrupt _
  · exact .pure _

theorem writeHook_interface (behavior : String) (owner : ObjectId) (v : Value) :
    Interface Value (writeHook behavior owner v) := by
  unfold writeHook
  split
  · exact .bind (.setProperty owner "last" v) fun _ => .pure _
  · exact .bind (.display v) fun _ => .bind (.setProperty owner "raw" _) fun _ => .pure _
  · exact .abrupt _
  · exact .abrupt _
  · exact .pure _

theorem offer_interface (behavior : String) (object : ObjectId) (name : String) :
    Interface Bool (offer behavior object name) := by
  unfold offer
  split
  · split
    · exact .bind (.addHook object name "answer" object) fun _ => .pure _
    · exact .pure _
  · exact .pure _

theorem host_conforms (observer : Observer) : (host observer).Conforms :=
  ⟨native_interface, readHook_interface, writeHook_interface, offer_interface⟩

/-- A name that the stock does not take up leaves the machine as it was. -/
theorem host_declines (observer : Observer) (config : Config) (limit : Nat) :
    (Engine.upTo config (host observer) limit).Declines := by
  intro behavior a name m v n h hfalse howns
  cases limit with
  | zero => cases h
  | succ limit =>
    change Script.bind (offer behavior a name) (fun taken => Pure.pure (Value.boolean taken)) _ m = _ at h
    unfold offer at h
    split at h
    · split at h
      · cases h
        cases hfalse
      · cases h
        exact howns
    · cases h
      exact howns

/-- A new interpreter whose scripts can print, and whose global object lets a hook take up new names. -/
def offering (observer : Observer) : Machine :=
  (modifyObject Intrinsic.globalObject (fun o => { o with additionHook := some (.host "v-names") })
    (.upTo {} (host observer) 0)
    (Interpreter.fresh {} (host observer) [⟨"print", 1, "print"⟩]).machine).machine

theorem visited_offering (observer : Observer) :
    Interpreter.Visited {} (host observer) (offering observer) :=
  .use (Interpreter.visited_fresh _) (.setAdditionHook Intrinsic.globalObject (some "v-names")) 0

end Stock

end PageScript
