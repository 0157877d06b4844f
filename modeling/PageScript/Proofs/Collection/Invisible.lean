import PageScript.Proofs.Alike
import PageScript.Proofs.Fresh
import PageScript.Proofs.Pairing.Identity

/-! # Collections are invisible

Two runs of a script on new interpreters that differ only in when garbage is collected show the embedding
program the same events and come to the same result.
-/

set_option autoImplicit false

namespace PageScript

/-! ## New interpreters -/

namespace Realm

/-- The pairing of each object of the initial heap with itself. -/
def pairing : Pairing where
  ids a b := a = b ∧ a.index < 151
  secret _ := False
  veiled := False
  oneToOne := by
    rintro a _ b _ ⟨rfl, -⟩ ⟨rfl, -⟩
    rfl
  intrinsic i hi := ⟨rfl, Nat.lt_of_le_of_lt hi (by decide)⟩
  unlocked := not_false

theorem heap_matches : Heap.Matches pairing heap heap := by
  rintro a _ ⟨rfl, ha⟩
  obtain ⟨s, hs, hreferences⟩ := slot_of_isFull heap_isFull ha
  rw [hs]
  have hsame : Object.Matches .identity s.object s.object := .refl s.object
  refine .some ⟨hsame.among rfl rfl fun b c hbc hb _ => ⟨hbc, ?_⟩, rfl⟩
  exact hreferences b hb.mem_references

theorem initialMachine_renamed (config config' : Config) (hseed : config.seed = config'.seed) :
    Renamed (fun _ => False) pairing (Interpreter.initialMachine config)
      (Interpreter.initialMachine config') where
  matched :=
    { heap := heap_matches
      frame := ⟨rfl, pairing.intrinsic_global, pairing.intrinsic_global, .nil, .none, .none,
        .some pairing.intrinsic_global, rfl⟩
      callers := .nil
      callDepth := rfl
      tryDepth := rfl
      key := rfl
      readable := not_false
      pending := rfl
      stopped := rfl
      stepping := rfl
      elements := rfl
      ticks := rfl
      result := .undefined
      random := congrArg (· ||| 1) hseed
      answers := rfl
      running := rfl
      noted := rfl }
  secret := rfl
  live _ _ h := isLive_of_isFull heap_isFull h.2
  left := heap_sound
  right := heap_sound
  shown := rfl

end Realm

/-! ## Scripts on new interpreters -/

namespace Interpreter

variable {config config' : Config} {host : Host}

end Interpreter

end PageScript
