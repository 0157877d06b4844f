import PageScript.Proofs.Hoisting
import PageScript.Proofs.Inheritance
import PageScript.Proofs.Properties

/-! # The names that a loop visits

A loop over an object collects the names first: those that the nearest object with such a name does not hide,
in the order of the chain of prototypes and, within an object, of insertion.  Each name has one turn, and is
passed over if the object has lost it by then.
-/

set_option autoImplicit false

namespace PageScript

namespace Heap

variable {h : Heap} {a : ObjectId} {name s t : String} {seen : List String} {members : List Variable}

/-! ## Names that are not hidden -/

theorem mem_visibleNames :
    name ∈ visibleNames seen members ↔
      name ∉ seen ∧ ∃ x, members.find? (·.name == name) = some x ∧ x.hidden = false := by
  induction members generalizing seen with
  | nil => simp [visibleNames]
  | cons v rest ih =>
    unfold visibleNames
    by_cases hv : v.name = name
    · subst hv
      by_cases hseen : v.name ∈ seen
      · simp [hseen, ih]
      · cases hhidden : v.hidden <;> simp [hseen, hhidden, ih]
    · have hne : name ≠ v.name := fun h => hv h.symm
      split
      · simp [ih, hv]
      · split <;> simp [ih, hv, hne]

/-- The names that are listed stand in the order of the first variables that have them. -/
theorem visibleNames_ordered (seen : List String) (members : List Variable) :
    (visibleNames seen members).Pairwise fun s t =>
      (members.map Variable.name).idxOf s < (members.map Variable.name).idxOf t := by
  have hsub : (visibleNames seen members).Sublist (firstOccurrences seen (members.map Variable.name)) := by
    induction members generalizing seen with
    | nil => exact .slnil
    | cons v rest ih =>
      unfold visibleNames
      rw [List.map_cons]
      unfold firstOccurrences
      split
      · exact ih seen
      · split
        · exact (ih _).cons _
        · exact (ih _).cons_cons _
  exact (firstOccurrences_ordered seen _).sublist hsub

/-! ## Along the chain of prototypes -/

/-- The number of objects on the chain of prototypes before the one that a name comes from. -/
def distance (h : Heap) (a : ObjectId) (name : String) : Nat := (h.chain a).findIdx fun p => p.2.has name

/-- Whether a name comes before another one: its owner is nearer, or both have the same owner and it was
added to that earlier. -/
def Before (h : Heap) (a : ObjectId) (s t : String) : Prop :=
  h.distance a s < h.distance a t ∨
    ∃ owner, h.findOwner a s = some owner ∧ h.findOwner a t = some owner ∧
      (h.names owner).idxOf s < (h.names owner).idxOf t

theorem find?_flatMap_members (chain : List (ObjectId × Object)) (name : String) :
    (chain.flatMap fun p => p.2.members.toList).find? (·.name == name)
      = (chain.find? fun p => p.2.has name).bind fun p => p.2.find? name := by
  induction chain with
  | nil => rfl
  | cons p rest ih =>
    have hp : p.2.members.toList.find? (·.name == name) = p.2.find? name := Array.find?_toList
    rw [List.flatMap_cons, List.find?_append, hp, ih]
    cases hhas : p.2.has name with
    | true =>
      obtain ⟨x, hx⟩ := Option.ne_none_iff_exists'.1 fun hnone =>
        Object.find?_eq_none.1 hnone (Object.has_iff.1 hhas)
      simp [hhas, hx]
    | false => simp [hhas, Object.find?_eq_none.2 (Object.has_eq_false.1 hhas)]

theorem before_of_idxOf_lt {chain : List (ObjectId × Object)}
    (hlt : (chain.flatMap fun p => p.2.names).idxOf s < (chain.flatMap fun p => p.2.names).idxOf t) :
    chain.findIdx (fun p => p.2.has s) < chain.findIdx (fun p => p.2.has t) ∨
      ∃ p, chain.find? (fun p => p.2.has s) = some p ∧ chain.find? (fun p => p.2.has t) = some p ∧
        p.2.names.idxOf s < p.2.names.idxOf t := by
  induction chain with
  | nil => simp at hlt
  | cons p rest ih =>
    rw [List.flatMap_cons, List.idxOf_append, List.idxOf_append] at hlt
    cases hs : p.2.has s with
    | true =>
      rw [if_pos (Object.has_iff.1 hs)] at hlt
      cases ht : p.2.has t with
      | true =>
        rw [if_pos (Object.has_iff.1 ht)] at hlt
        exact .inr ⟨p, by simp [hs], by simp [ht], hlt⟩
      | false => exact .inl (by simp [List.findIdx_cons, hs, ht])
    | false =>
      rw [if_neg (Object.has_eq_false.1 hs)] at hlt
      cases ht : p.2.has t with
      | true =>
        have hlength := List.idxOf_lt_length_of_mem (Object.has_iff.1 ht)
        rw [if_pos (Object.has_iff.1 ht)] at hlt
        omega
      | false =>
        rw [if_neg (Object.has_eq_false.1 ht)] at hlt
        rcases ih (by omega) with h | ⟨q, hqs, hqt, hq⟩
        · exact .inl (by simpa [List.findIdx_cons, hs, ht] using h)
        · exact .inr ⟨q, by simpa [hs] using hqs, by simpa [ht] using hqt, hq⟩

/-! ## The names of an object -/

/-- A loop is shown a name exactly if the nearest object that has it does not hide it. -/
theorem mem_enumerable :
    name ∈ h.enumerable a ↔
      ∃ owner x, h.findOwner a name = some owner ∧ h.own? owner name = some x ∧ x.hidden = false := by
  unfold enumerable
  rw [mem_visibleNames, find?_flatMap_members, findOwner_eq]
  constructor
  · rintro ⟨-, x, hx, hhidden⟩
    obtain ⟨p, hp, hfind⟩ := Option.bind_eq_some_iff.1 hx
    refine ⟨p.1, x, by rw [hp]; rfl, ?_, hhidden⟩
    rw [own?, get?_of_mem_chainFrom (List.mem_of_find?_eq_some hp)]
    exact hfind
  · rintro ⟨owner, x, howner, hx, hhidden⟩
    obtain ⟨p, hp, rfl⟩ := Option.map_eq_some_iff.1 howner
    refine ⟨List.not_mem_nil, x, ?_, hhidden⟩
    rw [own?, get?_of_mem_chainFrom (List.mem_of_find?_eq_some hp)] at hx
    rw [hp]
    exact hx

theorem enumerable_ordered (h : Heap) (a : ObjectId) : (h.enumerable a).Pairwise (h.Before a) := by
  refine (visibleNames_ordered [] _).imp ?_
  intro s t hlt
  rw [List.map_flatMap] at hlt
  unfold Before distance
  rw [findOwner_eq, findOwner_eq]
  refine (before_of_idxOf_lt hlt).imp_right ?_
  rintro ⟨p, hs, ht, hp⟩
  refine ⟨p.1, by rw [hs]; rfl, by rw [ht]; rfl, ?_⟩
  rw [names, get?_of_mem_chainFrom (List.mem_of_find?_eq_some hs)]
  exact hp

theorem not_before (h : Heap) (a : ObjectId) (s : String) : ¬h.Before a s s := by
  rintro (hlt | ⟨owner, -, -, hlt⟩)
  · exact absurd hlt (Nat.lt_irrefl _)
  · exact absurd hlt (Nat.lt_irrefl _)

theorem nodup_enumerable (h : Heap) (a : ObjectId) : (h.enumerable a).Nodup := by
  refine (h.enumerable_ordered a).imp ?_
  rintro s t hst rfl
  exact h.not_before a s hst

end Heap

/-! ## The rounds of a loop -/

namespace Script

variable {e : Engine} {m k n : Machine} {id : ObjectId} {store : Value → Script Unit} {body : Statement}
  {labels names : List String} {last subject : Value} {turns : List (String × Machine)} {o : Outcome Value}

/-- How a loop ends with a round that is its last one. -/
def roundEnd? : Outcome (Sum Value Value) → Option (Outcome Value)
  | .value (.inl _) _ => none
  | .value (.inr result) m => some (.value result m)
  | .abrupt c m => some (.abrupt c m)
  | .exhausted m => some (.exhausted m)

/-- The turns of names that a loop over an object has collected, each with the machine that it comes to.  A
name that the object has then is stored and the body runs; one that it has not is passed over. -/
inductive NameTurns (id : ObjectId) (store : Value → Script Unit) (body : Statement) (labels : List String)
    (e : Engine) : List String → Value → Machine → List (String × Machine) → Outcome Value → Prop
  | done (last : Value) (m : Machine) : NameTurns id store body labels e [] last m [] (.value last m)
  | passed {name : String} {rest : List String} {last : Value} {m : Machine}
      {turns : List (String × Machine)} {o : Outcome Value} :
      m.heap.hasProperty id name = false → NameTurns id store body labels e rest last m turns o →
      NameTurns id store body labels e (name :: rest) last m ((name, m) :: turns) o
  | round {name : String} {rest : List String} {last next : Value} {m n : Machine}
      {turns : List (String × Machine)} {o : Outcome Value} :
      m.heap.hasProperty id name = true →
      (do store (.string name); runBody labels body last (return true) : Script _) e m
        = .value (.inl next) n →
      NameTurns id store body labels e rest next n turns o →
      NameTurns id store body labels e (name :: rest) last m ((name, m) :: turns) o
  | ended {name : String} {rest : List String} {last : Value} {m : Machine} {o : Outcome Value} :
      m.heap.hasProperty id name = true →
      roundEnd? ((do store (.string name); runBody labels body last (return true) : Script _) e m) = some o →
      NameTurns id store body labels e (name :: rest) last m [(name, m)] o

/-- The names that were visited: those that the object had when their turn came. -/
def visited (id : ObjectId) (turns : List (String × Machine)) : List String :=
  (turns.filter fun t => t.2.heap.hasProperty id t.1).map Prod.fst

theorem NameTurns.prefix (h : NameTurns id store body labels e names last m turns o) :
    turns.map Prod.fst <+: names := by
  induction h with
  | done => exact List.prefix_rfl
  | passed _ _ ih => exact List.cons_prefix_cons.2 ⟨rfl, ih⟩
  | round _ _ _ ih => exact List.cons_prefix_cons.2 ⟨rfl, ih⟩
  | ended => exact List.cons_prefix_cons.2 ⟨rfl, List.nil_prefix⟩

theorem NameTurns.visited_sublist (h : NameTurns id store body labels e names last m turns o) :
    (visited id turns).Sublist names :=
  (List.filter_sublist.map Prod.fst).trans h.prefix.sublist

theorem exists_nameTurns (id : ObjectId) (store : Value → Script Unit) (body : Statement) (labels : List String)
    (e : Engine) (names : List String) (last : Value) (m : Machine) :
    ∃ turns, NameTurns id store body labels e names last m turns
      (foldUntil (fun last name => do
        if ← read (·.heap.hasProperty id name) then
          store (.string name)
          runBody labels body last (return true)
        else return .inl last) names last e m) := by
  induction names generalizing last m with
  | nil => exact ⟨[], .done last m⟩
  | cons name rest ih =>
    unfold foldUntil foldOverUntil
    rw [bind_read]
    cases hhas : m.heap.hasProperty id name with
    | false =>
      obtain ⟨turns, hturns⟩ := ih last m
      exact ⟨_, .passed hhas hturns⟩
    | true =>
      rw [if_pos rfl]
      cases hround : (do store (.string name); runBody labels body last (return true) : Script _) e m with
      | value next n =>
        cases next with
        | inl next =>
          obtain ⟨turns, hturns⟩ := ih next n
          exact ⟨_, .round hhas hround hturns⟩
        | inr result => exact ⟨_, .ended hhas (by rw [hround]; rfl)⟩
      | abrupt c n => exact ⟨_, .ended hhas (by rw [hround]; rfl)⟩
      | exhausted n => exact ⟨_, .ended hhas (by rw [hround]; rfl)⟩

/-- A loop over an object visits each name that it has collected once and in order, unless the object has lost
it by the time of its turn.  The names are those that are not hidden in the nearest object that has them,
ordered by how far that is and then by insertion; what is added later is not among them. -/
theorem forIn_visits {object : Expression} (heval : evaluate object e m = .value subject k)
    (hsubject : subject.isNothing = false) (hid : toObject subject e k = .value id n)
    (store : Value → Script Unit) (body : Statement) (labels : List String) :
    (∀ name, name ∈ n.heap.enumerable id ↔
      ∃ owner x, n.heap.findOwner id name = some owner ∧ n.heap.own? owner name = some x ∧ x.hidden = false) ∧
    (n.heap.enumerable id).Pairwise (n.heap.Before id) ∧ (n.heap.enumerable id).Nodup ∧
    (∀ (o : Object) x name v, (o.push x).names = o.names ++ [x.name] ∧
      (o.put name v).names = (if name ∈ o.names then o.names else o.names ++ [name]) ∧
      (o.putHidden name v).names = (if name ∈ o.names then o.names else o.names ++ [name]) ∧
      (o.remove name).names = o.names.erase name) ∧
    ∃ turns, NameTurns id store body labels e (n.heap.enumerable id) .undefined n turns
        (runForIn object store body labels e m) ∧
      turns.map Prod.fst <+: n.heap.enumerable id ∧
      (visited id turns).Sublist (n.heap.enumerable id) ∧ (visited id turns).Nodup := by
  have hnodup := n.heap.nodup_enumerable id
  obtain ⟨turns, hturns⟩ := exists_nameTurns id store body labels e (n.heap.enumerable id) .undefined n
  have hrun : runForIn object store body labels e m
      = foldUntil (fun last name => do
          if ← read (·.heap.hasProperty id name) then
            store (.string name)
            runBody labels body last (return true)
          else return .inl last) (n.heap.enumerable id) .undefined e n := by
    unfold runForIn
    rw [bind_of_value heval, if_neg (by simp [hsubject]), bind_of_value hid]
    rfl
  rw [← hrun] at hturns
  refine ⟨fun name => Heap.mem_enumerable, n.heap.enumerable_ordered id, hnodup, fun o x name v => ?_,
    turns, hturns, hturns.prefix, hturns.visited_sublist, hnodup.sublist hturns.visited_sublist⟩
  refine ⟨Object.names_push x o, ?_, ?_, Object.names_remove name o⟩
  · exact Object.names_updateOrPush (f := fun x => { x with value := v }) (fun _ => rfl) name o
  · exact Object.names_updateOrPush (f := fun x => { x with value := v, hidden := true }) (fun _ => rfl) name o

/-- A loop whose body deletes one of the names, over an object that hides an inherited one. -/
theorem forIn_visits_deleting :
    let owner : Object := ((Object.empty (some ⟨0⟩)).put "x" .null).putHidden "y" .null |>.put "w" .null
    let proto : Object := ((Object.empty none).put "y" .null).put "z" .null
    let e : Engine := .upTo {} (Stock.host (Stock.scripted none [] [])) 10
    let m : Machine :=
      { (Interpreter.fresh {} (Stock.host (Stock.scripted none [] [])) []).machine with
        heap := ⟨#[some ⟨proto, 0⟩, some ⟨owner, 0⟩], [], 0⟩, frame := .outermost ⟨1⟩ [] }
    let store (name : Value) : Script Unit := do let _ ← writeVariable ⟨⟨1⟩, "key"⟩ name
    let body : Statement := .mk 1 (.expression (.unary .delete (.member .this "w")))
    ∃ k, evaluate .this e m = .value (.ref ⟨1⟩) k ∧ k.heap.enumerable ⟨1⟩ = ["x", "w", "z"] ∧
      ∃ turns, NameTurns ⟨1⟩ store body [] e ["x", "w", "z"] .undefined k turns
        (runForIn .this store body [] e m) ∧ (visited ⟨1⟩ turns).Sublist ["x", "w", "z"] := by
  intro owner proto e m store body
  have hnames : m.count.heap.enumerable ⟨1⟩ = ["x", "w", "z"] := by decide +kernel
  have heval : evaluate .this e m = .value (.ref ⟨1⟩) m.count := rfl
  obtain ⟨-, -, -, -, turns, hturns, -, hvisited, -⟩ := forIn_visits heval rfl rfl store body []
  rw [hnames] at hturns hvisited
  exact ⟨m.count, heval, hnames, turns, hturns, hvisited⟩

end Script

end PageScript
