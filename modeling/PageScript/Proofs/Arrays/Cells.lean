import PageScript.Proofs.Arrays.Indices
import PageScript.Proofs.Properties

/-! # The variables of an array

An array is described by its length and by the value at each index that it has.  An element need not stand in
the array itself: it may be a synonym, and then stands where the synonyms lead to, in its cell.  As long as
the cells are plain variables and no two elements share one, an element is written, added or deleted without
any other one being touched.
-/

set_option autoImplicit false

namespace PageScript

/-! ## Changes of an object, name by name -/

namespace Object

variable {o : Object} {name other : String} {x : Variable} {v : Value} {f : Variable → Variable}

theorem find?_push (x : Variable) (o : Object) (name : String) :
    (o.push x).find? name = (o.find? name).or (if x.name = name then some x else none) := by
  unfold find? push
  rw [Array.find?_push]
  refine congrArg (Option.or _) ?_
  by_cases hname : x.name = name
  · rw [if_pos hname, if_pos (beq_iff_eq.2 hname)]
  · rw [if_neg hname, if_neg fun h => hname (beq_iff_eq.1 h)]

theorem find?_updateOrPush_of_ne (hf : ∀ x, (f x).name = x.name) (hne : name ≠ other) :
    (o.updateOrPush name f).find? other = o.find? other := by
  unfold updateOrPush
  split
  · rename_i i hi
    have hfind := find?_modify hf name other o.members.toList ((findIdx?_toList o.members name).trans hi)
    rw [if_neg hne, ← Array.toList_modify, Array.find?_toList, Array.find?_toList] at hfind
    exact hfind
  · rw [find?_push, hf, show (Variable.plain name .undefined).name = name from rfl, if_neg hne,
      Option.or_none]

theorem find?_store_of_ne (hne : name ≠ other) : (o.store name v).find? other = o.find? other := by
  unfold store
  split
  · rfl
  · exact find?_updateOrPush_of_ne (fun _ => rfl) hne

theorem find?_remove (hdistinct : o.names.Nodup) (name other : String) :
    (o.remove name).find? other = if other = name then none else o.find? other := by
  split
  · rename_i heq
    subst heq
    rw [find?_eq_none, names_remove]
    exact hdistinct.not_mem_erase
  · rename_i hne
    unfold remove
    split
    · rename_i i hi
      have hfind := find?_eraseIdx (Ne.symm hne) o.members.toList
        ((findIdx?_toList o.members name).trans hi)
      rw [← Array.toList_eraseIdxIfInBounds, Array.find?_toList, Array.find?_toList] at hfind
      exact hfind
    · rfl

theorem find?_setLength (current length : Nat) (o : Object) (name : String) :
    (o.setLength current length).find? name
      = if length < current ∧ ∃ i, ArrayIndex.ofName? name = some i ∧ length ≤ i then none
        else o.find? name := by
  unfold setLength
  dsimp only
  by_cases hlength : length < current
  · rw [if_pos hlength]
    unfold find?
    dsimp only
    rw [← Array.find?_toList, Array.toList_filter, List.find?_filter, ← Array.find?_toList]
    split
    · rename_i hdropped
      obtain ⟨-, i, hi, hle⟩ := hdropped
      refine List.find?_eq_none.2 fun x _ hx => ?_
      obtain ⟨hkept, hname⟩ := of_decide_eq_true hx
      rw [beq_iff_eq.1 hname, hi] at hkept
      exact absurd (of_decide_eq_true hkept) (Nat.not_lt.2 hle)
    · rename_i hkept
      refine congrArg (List.find? · _) (funext fun x => ?_)
      by_cases hx : x.name = name
      · rw [hx, beq_self_eq_true, decide_eq_true_iff]
        refine ⟨?_, rfl⟩
        cases hi : ArrayIndex.ofName? name with
        | none => rfl
        | some i => exact decide_eq_true (Nat.not_le.1 fun hle => hkept ⟨hlength, i, hi, hle⟩)
      · rw [show (x.name == name) = false from beq_eq_false_iff_ne.2 hx]
        exact decide_eq_false fun h => Bool.false_ne_true h.2
  · rw [if_neg hlength, if_neg fun h => hlength h.1]
    rfl

end Object

/-! ## Places -/

namespace Heap

variable {h n : Heap} {a b : ObjectId} {o : Object} {name : String} {p q : Location} {k : Nat}

/-- The variable at a place. -/
def at? (h : Heap) (place : Location) : Option Variable := h.own? place.object place.name

theorem at?_modify (ho : h.get? a = some o) (f : Object → Object) (p : Location) :
    (h.modify a f).at? p = if p.object = a then (f o).find? p.name else h.at? p := by
  unfold at? own?
  rw [modify, get?_modifySlot]
  by_cases ha : p.object = a
  · obtain ⟨s, hs, rfl⟩ := Option.map_eq_some_iff.1 ho
    rw [if_pos ha, if_pos ha.symm, ha, hs]
    rfl
  · rw [if_neg ha, if_neg (Ne.symm ha)]

theorem resolveUpTo_of_end (hp : ∀ b name, (h.at? p).map Variable.link ≠ some (.synonym b name)) (k : Nat) :
    h.resolveUpTo k p = p := by
  cases k with
  | zero => rfl
  | succ k =>
    unfold resolveUpTo
    split
    · rename_i b name hlink
      exact absurd hlink (hp b name)
    · rfl

theorem resolveUpTo_synonym (hp : (h.at? p).map Variable.link = some (.synonym b name)) (k : Nat) :
    h.resolveUpTo (k + 1) p = h.resolveUpTo k ⟨b, name⟩ := by
  have hlink : (h.own? p.object p.name).map Variable.link = some (.synonym b name) := hp
  rw [resolveUpTo, hlink]

/-- A place with a plain variable, or without any, stands for itself. -/
theorem resolve_of_end (hp : ∀ b name, (h.at? p).map Variable.link ≠ some (.synonym b name)) :
    h.resolve p = p := resolveUpTo_of_end hp _

theorem resolve_of_plain {x : Variable} (hx : h.at? p = some x) (hlink : x.link = .plain) :
    h.resolve p = p := by
  refine resolve_of_end fun b name hp => ?_
  rw [hx, Option.map_some, hlink] at hp
  cases hp

theorem resolve_of_none (hp : h.at? p = none) : h.resolve p = p :=
  resolve_of_end fun b name hlink => by rw [hp] at hlink; cases hlink

/-- Where synonyms end at a plain variable, more steps lead nowhere else. -/
theorem resolveUpTo_add {x : Variable} (hx : h.at? q = some x) (hlink : x.link = .plain)
    (hp : h.resolveUpTo k p = q) (j : Nat) : h.resolveUpTo (k + j) p = q := by
  have hplain : ∀ j, h.resolveUpTo j q = q := resolveUpTo_of_end fun b name hq => by
    rw [hx, Option.map_some, hlink] at hq
    cases hq
  induction k generalizing p with
  | zero =>
    cases hp
    exact hplain _
  | succ k ih =>
    cases hl : (h.at? p).map Variable.link with
    | none =>
      have hend := resolveUpTo_of_end (h := h) (p := p) fun b name h => by rw [hl] at h; cases h
      rw [hend] at hp ⊢
      exact hp
    | some link =>
      cases link with
      | synonym b name =>
        rw [resolveUpTo_synonym hl] at hp
        rw [show k + 1 + j = k + j + 1 by omega, resolveUpTo_synonym hl]
        exact ih hp
      | _ =>
        have hend := resolveUpTo_of_end (h := h) (p := p) fun b name h => by rw [hl] at h; cases h
        rw [hend] at hp ⊢
        exact hp

/-- Synonyms lead to the same plain variable as before if no place that leads there has changed its link. -/
theorem resolve_congr {x : Variable} (hx : h.at? q = some x) (hlink : x.link = .plain)
    (hp : h.resolve p = q)
    (hsame : ∀ r, h.resolve r = q → (n.at? r).map Variable.link = (h.at? r).map Variable.link) :
    n.resolve p = q := by
  have hsteps : ∀ k j p, k + j = synonymLimit → h.resolveUpTo k p = q → n.resolveUpTo k p = q := by
    intro k
    induction k with
    | zero => exact fun _ _ _ hp => hp
    | succ k ih =>
      intro j p hk hp
      have hr : h.resolve p = q := by
        have := resolveUpTo_add hx hlink hp j
        rwa [hk] at this
      cases hl : (h.at? p).map Variable.link with
      | none =>
        have hl' := (hsame p hr).trans hl
        rw [resolveUpTo_of_end fun b name h => by rw [hl] at h; cases h] at hp
        rwa [resolveUpTo_of_end fun b name h => by rw [hl'] at h; cases h]
      | some link =>
        have hl' := (hsame p hr).trans hl
        cases link with
        | synonym b name =>
          rw [resolveUpTo_synonym hl] at hp
          rw [resolveUpTo_synonym hl']
          exact ih (j + 1) _ (by omega) hp
        | _ =>
          rw [resolveUpTo_of_end fun b name h => by rw [hl] at h; cases h] at hp
          rwa [resolveUpTo_of_end fun b name h => by rw [hl'] at h; cases h]
  exact hsteps synonymLimit 0 p rfl hp

end Heap

end PageScript
