import PageScript.Proofs.Alike
import PageScript.Proofs.Hidden

/-! # Protected variables

A variable that the embedding program protected with a key cannot be read under another key.  Machines
that differ only in its value are alike, whatever scripts do with it: they may write it, delete it, list
its name or find it in scope.  Variables named `prototype` are left out, as objects are made with the
prototype that stands there without a look at its key.
-/

set_option autoImplicit false

namespace PageScript

/-! ## Scripts -/

/-- All of the interface but for what deals in keys, and collections. -/
abbrev Permit.keyless : Permit := ⟨fun _ => True, True, False, True, True, False, True⟩

namespace Interpreter

variable {config : Config} {host : Host}

theorem alike_withValue {m : Machine} {a : ObjectId} {name : String} {x : Variable} {v : Value}
    (hhost : host.Uses .keyless .keyless) (hlog : host.IgnoresLog) (hx : m.heap.own? a name = some x)
    (hlocked : x.key ≠ 0) (hkey : x.key ≠ m.key) (hname : name ≠ "prototype") (hm : m.Closed)
    (hm' : (m.withValue a name v).Closed) :
    Alike (· = x.key) ⟨config, host, m⟩ ⟨config, host, m.withValue a name v⟩ where
  hosts := Simulation.ofRenaming_hosts (fun h => h.elim) hhost hlog config.collectAbove config.collectAbove
  machines :=
    have hmatched : Machine.Matches (.equal (· = x.key) hlocked.symm False) m (m.withValue a name v) :=
      .withValue hx (.inl rfl) hkey.symm hname
    ⟨_, hmatched.renamed rfl hm hm' rfl⟩

/-- A script shows the embedding program the same events and comes to the same result, whatever the value
of a variable is that is protected with another key than that of the interpreter, and that is not named
`prototype`. -/
theorem protected_unread (config : Config) (host : Host) (hhost : host.Uses .keyless .keyless)
    (hlog : host.IgnoresLog) (m : Machine) (a : ObjectId) (name : String) (x : Variable)
    (hx : m.heap.own? a name = some x) (hlocked : x.key ≠ 0) (hkey : x.key ≠ m.key)
    (hname : name ≠ "prototype") (v : Value) (hm : m.Closed) (hm' : (m.withValue a name v).Closed)
    (source : String) :
    SameOutcome (runScript source ⟨config, host, m⟩)
      (runScript source ⟨config, host, m.withValue a name v⟩) :=
  (alike_withValue hhost hlog hx hlocked hkey hname hm hm').runScript source

/-- A new interpreter whose `Math` is protected. -/
def lockedMath : Machine :=
  { initialMachine {} with
    heap := Realm.heap.modify Intrinsic.globalObject (·.update "Math" fun x => { x with key := 7 }) }

set_option maxRecDepth 100000 in
theorem protected_unread_math :
    (Stock.printer (Stock.scripted none [] [])).Uses .keyless .keyless ∧
      (Stock.scripted none [] []).IgnoresLog ∧
      (lockedMath.heap.own? Intrinsic.globalObject "Math").map Variable.key = some 7 ∧
      lockedMath.Closed ∧
      (lockedMath.withValue Intrinsic.globalObject "Math" (.string "hidden")).Closed ∧
      SameOutcome
        (runScript "try { Math.abs(1); } catch (e) { e; }"
          ⟨{}, Stock.printer (Stock.scripted none [] []), lockedMath⟩)
        (runScript "try { Math.abs(1); } catch (e) { e; }"
          ⟨{}, Stock.printer (Stock.scripted none [] []),
            lockedMath.withValue Intrinsic.globalObject "Math" (.string "hidden")⟩) := by
  have hhost : (Stock.printer (Stock.scripted none [] [])).Uses .keyless .keyless :=
    Stock.printer_uses _
  have hlog := Stock.scripted_ignoresLog none [] []
  have hmath : (lockedMath.heap.own? Intrinsic.globalObject "Math").map Variable.key = some 7 := by
    decide +kernel
  have hclosed : lockedMath.Closed := (initialMachine_closed {}).modify _ fun _ _ h =>
    .of_update (g := fun x => { x with key := 7 }) (fun _ => .inl rfl) (fun _ => rfl) h
  have hclosed' : (lockedMath.withValue Intrinsic.globalObject "Math" (.string "hidden")).Closed :=
    hclosed.modify _ fun _ _ h =>
      .of_update (g := fun x => { x with value := .string "hidden" }) (fun _ => .inr rfl) (fun _ => rfl) h
  obtain ⟨x, hx, hkey⟩ := Option.map_eq_some_iff.1 hmath
  refine ⟨hhost, hlog, hmath, hclosed, hclosed', ?_⟩
  exact protected_unread {} _ hhost hlog lockedMath _ _ x hx (by rw [hkey]; decide)
    (by rw [hkey]; decide) (by decide) _ hclosed hclosed' _

end Interpreter

end PageScript
