import PageScript.Proofs.ControlFlow.Parsing
import PageScript.Proofs.Reachable

/-! # Completions of calls

The parser lets no `break`, no `return` and no `continue` without a label stand where nothing in the same
function takes it up.  So a call completes with none of these, and neither does a top-level statement.
The label of a `continue` need not be that of a loop, and such a `continue` does leave its function.
-/

set_option autoImplicit false

namespace PageScript

/-! ## Jumps that may be left over -/

/-- Whether a jump is a `continue` with a label. -/
def Jump.IsLabeledContinue (j : Jump) : Prop := ∃ label, j = .continued (some label)

/-- Whether a function ends with no jumps but `return` and `continue` with a label. -/
def FunctionTree.Contained (t : FunctionTree) : Prop :=
  ∀ j ∈ Statement.jumpsOf t.body, j = .returned ∨ j.IsLabeledContinue

theorem Jump.of_grants_program {j : Jump} (h : Surroundings.program.Grants j) : j.IsLabeledContinue := by
  cases j with
  | returned => cases h
  | broken label =>
    cases label with
    | none => rcases h with h | h <;> cases h
    | some label => cases h
  | continued label =>
    cases label with
    | none => cases h
    | some label => exact ⟨label, rfl⟩

theorem Program.jumps {source : String} {body : List Statement}
    (h : Program.parse source = .ok body) : ∀ j ∈ Statement.jumpsOf body, j.IsLabeledContinue :=
  fun j hj => Jump.of_grants_program ((Program.parse_orderly h).jumps j hj)

/-- Whether all functions of script code on a sound heap are contained. -/
structure Heap.Contained (h : Heap) : Prop where
  sound : h.Sound
  functions : ∀ {a o tree scope}, h.get? a = some o → o.callable = some (.script tree scope) →
    ∀ t ∈ tree.trees, t.Contained

namespace Heap

variable {h n : Heap}

theorem Contained.modifySlot (hc : h.Contained) (a : ObjectId) {f : Slot → Slot}
    (hf : ∀ s, (f s).object.callable = s.object.callable) : (h.modifySlot a f).Contained where
  sound := hc.sound.modifySlot _
  functions {id o tree scope} ho hcode := by
    rw [get?, slot?_modifySlot] at ho
    split at ho
    · rw [Option.map_map, Option.map_eq_some_iff] at ho
      obtain ⟨s, hs, rfl⟩ := ho
      exact hc.functions (a := id) (by rw [get?, hs]; rfl) ((hf s).symm.trans hcode)
    · exact hc.functions ho hcode

theorem Contained.alloc (hc : h.Contained) {o : Object}
    (ho : ∀ tree scope, o.callable = some (.script tree scope) → ∀ t ∈ tree.trees, t.Contained) :
    (h.alloc o).2.Contained where
  sound := hc.sound.alloc o
  functions {id o' tree scope} hget hcode := by
    rw [get?, slot?_alloc hc.sound] at hget
    split at hget
    · cases hget
      exact ho tree scope hcode
    · exact hc.functions hget hcode

/-- Functions stay contained when slots are emptied. -/
theorem Contained.emptied (hc : h.Contained) (hn : h.Sound → n.Sound)
    (hsub : ∀ a, n.slot? a = h.slot? a ∨ n.slot? a = none) : n.Contained where
  sound := hn hc.sound
  functions {id o tree scope} hget hcode := by
    rcases hsub id with hsame | hnone
    · refine hc.functions (a := id) ?_ hcode
      rw [get?, ← hsame]
      exact hget
    · rw [get?, hnone] at hget
      cases hget

end Heap

/-! ## The invariant -/

namespace Invariant

variable {config : Config} {host : Host} {m : Machine} {t : Task}

end Invariant

/-! ## Runs -/

/-- All of the interface, for functions that may end with `return`. -/
abbrev Permit.returning : Permit := ⟨(· = .returned), True, True, True, True, True, True⟩

namespace Invariant

variable {config : Config} {host : Host} {m : Machine} {t : Task}

end Invariant

namespace Realm

end Realm

namespace Script

variable {config : Config} {host : Host}

end Script

end PageScript
