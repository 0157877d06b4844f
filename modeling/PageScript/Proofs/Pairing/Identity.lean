import PageScript.Proofs.Pairing.Objects
import PageScript.Proofs.Simulation

/-! # The pairing of each object with itself

Data that match by this pairing are equal.  So a simulation that pairs each object with itself is an
invariant of a single machine.
-/

set_option autoImplicit false

namespace PageScript

open Pairing

/-! ## Equal data match -/

namespace Matching

variable {α : Type} {V : Matching α} {p : Pairing}

theorem list_refl (hV : ∀ a, V p a a) (xs : List α) : list V p xs xs := by
  induction xs with
  | nil => exact .nil
  | cons a xs ih => exact .cons (hV a) ih

theorem option_refl (hV : ∀ a, V p a a) (a : Option α) : option V p a a := by
  cases a with
  | none => exact .none
  | some a => exact .some (hV a)

theorem list_eq {xs ys : List α} (hV : ∀ a b, V p a b → a = b) (h : list V p xs ys) : xs = ys := by
  induction h with
  | nil => rfl
  | cons h _ ih => rw [hV _ _ h, ih]

theorem option_eq {a b : Option α} (hV : ∀ a b, V p a b → a = b) (h : option V p a b) : a = b := by
  cases h with
  | none => rfl
  | some h => exact congrArg some (hV _ _ h)

end Matching

theorem Pairing.eq_of_identity {a b : ObjectId} (h : identity.ids a b) : a = b := h

section

variable {secret : Nat → Prop} {unlocked : ¬secret 0} {veiled : Prop}

theorem Pairing.equal_refl (a : ObjectId) : (equal secret unlocked veiled).ids a a := rfl

theorem Value.Matches.refl (v : Value) : Value.Matches (equal secret unlocked veiled) v v := by
  cases v with
  | object id receiver => exact .object rfl (Matching.option_refl equal_refl receiver)
  | _ => constructor

theorem Variable.Matches.refl (x : Variable) : Variable.Matches (equal secret unlocked veiled) x x where
  name := rfl
  value _ := .refl x.value
  link := by
    cases x.link with
    | plain => exact .plain
    | hook hook owner => exact .hook hook rfl
    | synonym object name => exact .synonym name rfl
  key := rfl
  hidden := rfl
  permanent := rfl

theorem Callable.Matches.refl (c : Callable) : Callable.Matches (equal secret unlocked veiled) c c := by
  cases c with
  | script tree scope => exact .script tree rfl
  | native name native => exact .native name native

theorem Object.Matches.refl (o : Object) : Object.Matches (equal secret unlocked veiled) o o where
  members := Matching.list_refl Variable.Matches.refl _
  payload := rfl
  callable := Matching.option_refl Callable.Matches.refl _
  maker := Matching.option_refl equal_refl _
  proto := Matching.option_refl equal_refl _
  additionHook := rfl
  callsAsMember := rfl

theorem Heap.Matches.refl (h : Heap) : Heap.Matches (equal secret unlocked veiled) h h := by
  rintro a _ rfl
  exact Matching.option_refl (fun s => ⟨.refl s.object, rfl⟩) _

theorem Frame.Matches.refl (f : Frame) : Frame.Matches (equal secret unlocked veiled) f f where
  kind := rfl
  locals := rfl
  scope := rfl
  withs := Matching.list_refl (fun _ => ⟨rfl, rfl⟩) _
  arguments := Matching.option_refl equal_refl _
  callee := Matching.option_refl equal_refl _
  this := Matching.option_refl equal_refl _
  constructing := rfl

theorem Machine.Matches.refl (m : Machine) (h : ¬secret m.key) :
    Machine.Matches (equal secret unlocked veiled) m m where
  heap := .refl m.heap
  frame := .refl m.frame
  callers := Matching.list_refl Frame.Matches.refl _
  callDepth := rfl
  tryDepth := rfl
  key := rfl
  readable := h
  pending := rfl
  stopped := rfl
  stepping := rfl
  elements := rfl
  ticks := rfl
  result := .refl m.result
  random := rfl
  answers := rfl
  running := rfl
  noted := rfl

end

/-! ## Data that match are equal -/

theorem Value.Matches.eq {v w : Value} (h : Value.Matches identity v w) : v = w := by
  cases h with
  | object id receiver => rw [eq_of_identity id, Matching.option_eq (fun _ _ h => h) receiver]
  | _ => rfl

theorem Variable.Matches.eq {x y : Variable} (h : Variable.Matches identity x y) : x = y := by
  obtain ⟨name, value, link, key, hidden, permanent⟩ := x
  obtain ⟨name', value', link', key', hidden', permanent'⟩ := y
  have hlink : link = link' := by
    cases h.link with
    | plain => rfl
    | hook hook owner => rw [eq_of_identity owner]
    | synonym name object => rw [eq_of_identity object]
  have hname : name = name' := h.name
  have hvalue : value = value' := (h.value (reveals_of_open not_false fun h => h.elim)).eq
  have hkey : key = key' := h.key
  have hhidden : hidden = hidden' := h.hidden
  have hpermanent : permanent = permanent' := h.permanent
  rw [hlink, hname, hvalue, hkey, hhidden, hpermanent]

theorem Callable.Matches.eq {c d : Callable} (h : Callable.Matches identity c d) : c = d := by
  cases h with
  | script tree scope => rw [eq_of_identity scope]
  | native name native => rfl

theorem Object.Matches.eq {o o' : Object} (h : Object.Matches identity o o') : o = o' := by
  obtain ⟨members, payload, callable, maker, proto, additionHook, callsAsMember⟩ := o
  obtain ⟨members', payload', callable', maker', proto', additionHook', callsAsMember'⟩ := o'
  have hmembers : members = members' := Array.toList_inj.1
    (Matching.list_eq (fun _ _ h => Variable.Matches.eq h) h.members)
  have hpayload : payload = payload' := h.payload
  have hcallable : callable = callable' :=
    Matching.option_eq (fun _ _ h => Callable.Matches.eq h) h.callable
  have hmaker : maker = maker' := Matching.option_eq (fun _ _ h => h) h.maker
  have hproto : proto = proto' := Matching.option_eq (fun _ _ h => h) h.proto
  have hhook : additionHook = additionHook' := h.additionHook
  have hcalls : callsAsMember = callsAsMember' := h.callsAsMember
  rw [hmembers, hpayload, hcallable, hmaker, hproto, hhook, hcalls]

theorem Frame.Matches.eq {f f' : Frame} (h : Frame.Matches identity f f') : f = f' := by
  obtain ⟨kind, locals, scope, withs, arguments, callee, this, constructing⟩ := f
  obtain ⟨kind', locals', scope', withs', arguments', callee', this', constructing'⟩ := f'
  have hkind : kind = kind' := h.kind
  have hlocals : locals = locals' := h.locals
  have hscope : scope = scope' := h.scope
  have hwiths : withs = withs' := by
    refine Matching.list_eq ?_ h.withs
    rintro ⟨a, x⟩ ⟨b, y⟩ hab
    exact congrArg₂ WithEntry.mk hab.object hab.everywhere
  have harguments : arguments = arguments' := Matching.option_eq (fun _ _ h => h) h.arguments
  have hcallee : callee = callee' := Matching.option_eq (fun _ _ h => h) h.callee
  have hthis : this = this' := Matching.option_eq (fun _ _ h => h) h.this
  have hconstructing : constructing = constructing' := h.constructing
  rw [hkind, hlocals, hscope, hwiths, harguments, hcallee, hthis, hconstructing]

theorem Abrupt.Matches.eq {c d : Abrupt} (h : Abrupt.Matches identity c d) : c = d := by
  cases h with
  | returned h => rw [h.eq]
  | thrown h => rw [h.eq]
  | _ => rfl

theorem Object.Edit.eq {a : ObjectId} {f g : Object → Object} (e : Object.Edit identity a a f g) :
    f = g := by
  funext o
  exact (e.matches rfl (.refl o)).eq

theorem Object.Fill.eq {f g : Object → Object} (e : Object.Fill identity f g) : f = g := by
  funext o
  exact (e.matches (.refl o)).eq

theorem Object.Hooking.eq {f g : Object → Object} (e : Object.Hooking identity f g) : f = g := by
  funext o
  exact (e.matches (.refl o)).eq

theorem Bracket.eq {enter enter' leave leave' : Machine → Machine}
    (h : Bracket identity enter enter' leave leave') : enter = enter' ∧ leave = leave' := by
  cases h with
  | pin id => exact ⟨by rw [eq_of_identity id], by rw [eq_of_identity id]⟩
  | guard => exact ⟨rfl, rfl⟩
  | withObject id => exact ⟨by rw [eq_of_identity id], rfl⟩

end PageScript
