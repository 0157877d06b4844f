import PageScript.Proofs.Reads
import PageScript.Proofs.Tidiness

/-! # Receivers of functions

A function that was read as a member remembers its object, but no variable stores that, on all machines that
an embedding program can come to and in the course of all runs.  So a function that is called by the name of
a variable has the global object as `this`, whatever object it was read from.
-/

set_option autoImplicit false

namespace PageScript

/-- No variable of an object stores a value that remembers a receiver. -/
def Heap.Unbound (h : Heap) : Prop :=
  ∀ a o, h.get? a = some o → ∀ x ∈ o.members, x.value.receiver? = none

namespace Heap

variable {h : Heap} {a : ObjectId} {name : String} {x : Variable}

theorem unbound_of_tidy {unique : Prop} (ht : h.Tidy unique) : h.Unbound := fun a o ho => (ht a o ho).unbound

theorem Unbound.own? (hh : h.Unbound) (hx : h.own? a name = some x) : x.value.receiver? = none := by
  obtain ⟨o, ho, hfind⟩ := Option.bind_eq_some_iff.1 hx
  exact hh a o ho x (Array.mem_of_find?_eq_some hfind)

end Heap

/-! ## Reads -/

namespace Script

variable {e : Engine} {m : Machine} {place : Location} {x : Variable} {a f : ObjectId} {o : Object}

/-- A variable without a hook that the key allows to read is the value that stands in it. -/
theorem readVariable_value (hx : m.heap.own? (m.heap.resolve place).object (m.heap.resolve place).name = some x)
    (hlink : ∀ hook owner, x.link ≠ .hook hook owner) (hkey : x.key = 0 ∨ x.key = m.key) (e : Engine) :
    readVariable place e m = .value x.value m := by
  rw [readVariable_eq hx hkey]
  cases hl : x.link with
  | hook hook owner => exact absurd hl (hlink hook owner)
  | _ => rfl

/-- A function that is read as a member remembers the object it was read from. -/
theorem readMember_bound {name : String} {holder : ObjectId} (hholder : m.heap.findOwner a name = some holder)
    (hx : m.heap.own? (m.heap.resolve ⟨holder, name⟩).object (m.heap.resolve ⟨holder, name⟩).name = some x)
    (hlink : ∀ hook owner, x.link ≠ .hook hook owner) (hkey : x.key = 0 ∨ x.key = m.key)
    (hf : x.value.id? = some f) (ho : m.heap.get? f = some o) (hcallable : o.isCallable = true)
    (receiver : Option ObjectId) (e : Engine) :
    readMember (.object a receiver) name e m = .value (.object f (some a)) m := by
  refine (readObjectMember_eq hholder e).trans ?_
  refine (bind_of_value (readVariable_value hx hlink hkey e) _).trans ?_
  cases hv : x.value with
  | object id r =>
    rw [hv] at hf
    cases hf
    have hfound : callable? (.object f r) e m = .value (some f) m := by
      unfold callable? read
      dsimp only
      rw [ho]
      exact congrArg (Outcome.value · m) (if_pos hcallable)
    exact bind_of_value hfound _
  | _ =>
    rw [hv] at hf
    cases hf

/-! ## Calls -/

/-- A call without a `this` has the global object in its place. -/
theorem perform_global (config : Config) (host : Host) (limit : Nat) (f : ObjectId) (args : List Value)
    (constructing : Bool) :
    performUpTo config host limit (.call f none args constructing)
      = performUpTo config host limit (.call f (some Intrinsic.globalObject) args constructing) := by
  cases limit <;> rfl

/-- A function that stands in a variable is called without the object that it was read from. -/
theorem evaluateCall_unbound (hm : m.heap.Unbound) {name : String} {b : Binding}
    (hb : m.lookup name = some b) (hreceiver : b.receiver = none)
    (hx : m.heap.own? (m.heap.resolve b.location).object (m.heap.resolve b.location).name = some x)
    (hlink : ∀ hook owner, x.link ≠ .hook hook owner) (hkey : x.key = 0 ∨ x.key = m.key)
    (hf : x.value.id? = some f) (ho : m.heap.get? f = some o) (hcallable : o.isCallable = true)
    (args : List Expression) (e : Engine) :
    evaluateCall (.identifier name) args e m
      = (do let values ← evaluateArguments args; perform (.call f none values false) : Script Value) e m := by
  have hbinding : binding name e m = .value b m := by
    unfold binding
    rw [bind_read, hb]
    rfl
  have hcallee : evaluateCallee (.identifier name) e m = .value ⟨x.value, none⟩ m := by
    refine (bind_of_value hbinding _).trans ?_
    refine (bind_of_value (readVariable_value hx hlink hkey e) _).trans ?_
    rw [hreceiver, hm.own? hx]
    rfl
  have hkind : (read fun m => (m.heap.get? f).map fun o => (o.isCallable, o.callsAsMember)) e m
      = .value (some (true, o.callsAsMember)) m := by
    rw [← hcallable]
    exact congrArg (fun o => Outcome.value (Option.map _ o) m) ho
  refine (bind_of_value hcallee _).trans ?_
  dsimp only
  rw [hf]
  exact bind_of_value hkind _

end Script

/-! ## All runs -/

/-- No variable stores a value that remembers a receiver when a task begins or ends, or a built-in function
begins. -/
def Check.unbound : Check where
  task _ m o := m.heap.Unbound ∧ o.machine.heap.Unbound
  native m := m.heap.Unbound

theorem Check.unbound_allowsTidy {unique : Prop} : Check.unbound.AllowsTidy unique where
  task hm ho := ⟨Heap.unbound_of_tidy hm, Heap.unbound_of_tidy ho⟩
  native hm := Heap.unbound_of_tidy hm

namespace Script

/-- No variable stores a value that remembers a receiver, on all machines that an embedding program can come
to and in the course of all tasks and programs that run there.  A function that is read as a member
remembers the object.  Yet where no variable stores that, a function that stands in a variable is called with
the global object as `this` by a name that brings no receiver along. -/
theorem receivers_unbound {config : Config} {host : Host} (hhost : host.Conforms) {m : Machine}
    (hm : Interpreter.Visited config host m) (alarm : Outcome Value) (limit : Nat) :
    m.heap.Unbound ∧
    (∀ t, performChecked .unbound alarm config host limit t m = performUpTo config host limit t m) ∧
    (∀ body this withs, runProgram body this withs (.checked .unbound alarm config host limit) m
      = runProgram body this withs (.upTo config host limit) m) ∧
    ∀ n : Machine, ∀ place x f o,
      n.heap.own? (n.heap.resolve place).object (n.heap.resolve place).name = some x →
      (∀ hook owner, x.link ≠ .hook hook owner) → (x.key = 0 ∨ x.key = n.key) →
      x.value.id? = some f → n.heap.get? f = some o → o.isCallable = true →
      (∀ a receiver, n.heap.findOwner a place.name = some place.object →
        readMember (.object a receiver) place.name (.upTo config host limit) n
          = .value (.object f (some a)) n) ∧
      (n.heap.Unbound → ∀ name args, n.lookup name = some ⟨place, none⟩ →
        evaluateCall (.identifier name) args (.upTo config host limit) n
          = (do
              let values ← evaluateArguments args
              perform (.call f (some Intrinsic.globalObject) values false) : Script Value)
            (.upTo config host limit) n) := by
  -- Values are unbound even where a hook adds a variable of a name that it declines.
  have hdeclines : False → ∀ limit, (Engine.upTo config host limit).Declines := False.elim
  have htidy : m.heap.Tidy False := Machine.tidy_of_visited hhost hdeclines hm
  have hruns := Machine.tidy_runs hhost hdeclines Check.unbound_allowsTidy htidy alarm limit
  refine ⟨Heap.unbound_of_tidy htidy, hruns.1, hruns.2, ?_⟩
  intro n place x f o hx hlink hkey hf ho hcallable
  refine ⟨fun a receiver hholder => ?_, fun hn name args hb => ?_⟩
  · exact readMember_bound hholder hx hlink hkey hf ho hcallable receiver _
  · rw [evaluateCall_unbound hn hb rfl hx hlink hkey hf ho hcallable args]
    show Script.bind _ _ _ _ = Script.bind _ _ _ _
    unfold Script.bind
    split
    · exact congrFun (perform_global config host limit f _ false) _
    · rfl
    · rfl

/-- A new interpreter whose global object lets a hook take up new names. -/
theorem receivers_unbound_offering :
    (Stock.host (Stock.scripted none [] [])).Conforms ∧
      Interpreter.Visited {} (Stock.host (Stock.scripted none [] []))
        (Stock.offering (Stock.scripted none [] [])) ∧
      (Stock.offering (Stock.scripted none [] [])).heap.Unbound := by
  have hhost := Stock.host_conforms (Stock.scripted none [] [])
  have hm := Stock.visited_offering (Stock.scripted none [] [])
  exact ⟨hhost, hm,
    (receivers_unbound hhost hm (.exhausted (Stock.offering (Stock.scripted none [] []))) 0).1⟩

end Script

end PageScript
