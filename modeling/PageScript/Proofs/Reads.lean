import PageScript.Variables.Reading

/-! # Reads step by step

What a read of a variable or of a member comes to on a machine, once it is known which variable is read.
-/

set_option autoImplicit false

namespace PageScript.Script

variable {α β : Type} {e : Engine} {m n : Machine} {place : Location} {x : Variable} {id holder : ObjectId}
  {name : String}

/-! ## Sequences -/

/-- Two computations are alike on a machine if they begin alike. -/
theorem bind_congr_left {y z : Script α} (h : y e m = z e m) (f : α → Script β) :
    (y >>= f) e m = (z >>= f) e m := by
  show Script.bind y f e m = Script.bind z f e m
  unfold Script.bind
  rw [h]

/-- A computation goes on with the value that its first part has come to. -/
theorem bind_of_value {y : Script α} {v : α} (h : y e m = .value v n) (f : α → Script β) :
    (y >>= f) e m = f v e n := by
  show Script.bind y f e m = _
  unfold Script.bind
  rw [h]

theorem bind_read (view : Machine → α) (f : α → Script β) : (read view >>= f) e m = f (view m) e m := rfl

theorem bind_ask (view : Observer → Machine → α) (f : α → Script β) :
    (ask view >>= f) e m = f (view e.observer m) e m := rfl

/-! ## Variables and members -/

/-- A variable that the key allows to read is what its hook answers, or the value that stands in it. -/
theorem readVariable_eq (hx : m.heap.own? (m.heap.resolve place).object (m.heap.resolve place).name = some x)
    (hkey : x.key = 0 ∨ x.key = m.key) (e : Engine) :
    readVariable place e m
      = match x.link with
        | .hook hook owner => readThrough hook owner e m
        | _ => .value x.value m := by
  unfold readVariable
  rw [bind_read, bind_read, hx]
  show (if x.key ≠ 0 ∧ x.key ≠ m.key then _ else _ : Script Value) e m = _
  rw [if_neg fun h => hkey.elim h.1 h.2]
  cases x.link <;> rfl

/-- A member is read from the first object that has it, and bound to the one that it was asked of. -/
theorem readObjectMember_eq (hholder : m.heap.findOwner id name = some holder) (e : Engine) :
    readObjectMember id name e m = (readVariable ⟨holder, name⟩ >>= (bindReceiver · id)) e m := by
  unfold readObjectMember
  rw [bind_read, hholder]

end PageScript.Script
