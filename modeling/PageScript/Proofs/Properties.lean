import Mathlib.Data.List.InsertIdx
import PageScript.Proofs.Arrays.Length
import PageScript.Proofs.Hooked
import PageScript.Proofs.Tidiness

/-! # Names of properties

No object has two variables of the same name, on all machines that an embedding program can come to and in
the course of all runs.  So an assignment to a property that is there leaves it in its place, and a property
that was deleted is gone.
-/

set_option autoImplicit false

namespace PageScript

/-! ## Names of one object -/

namespace Object

variable {o : Object} {name : String} {v : Value} {x : Variable}

theorem mem_names_of_find? (h : o.find? name = some x) : name ∈ o.names := by
  by_contra hnew
  rw [find?_eq_none.2 hnew] at h
  cases h

/-- A value that is stored under a name leaves all names where they are, and adds its own behind them if it
is none of them. -/
theorem names_store (name : String) (v : Value) (o : Object) :
    (o.store name v).names = if name ∈ o.names then o.names else o.names ++ [name] := by
  unfold store
  split
  · rename_i hook owner hlink
    obtain ⟨x, hx, -⟩ := Option.map_eq_some_iff.1 hlink
    rw [if_pos (mem_names_of_find? hx)]
  · refine names_updateOrPush ?_ name o
    exact fun _ => rfl

/-- A value that no hook answers for is stored in the variable itself. -/
theorem find?_store (hx : o.find? name = some x) (hlink : ∀ hook owner, x.link ≠ .hook hook owner) :
    (o.store name v).find? name = some { x with value := v, hidden := false } := by
  have hstore : o.store name v = o.updateOrPush name fun x => { x with value := v, hidden := false } := by
    unfold store
    rw [hx, Option.map_some]
    split
    · rename_i hook owner h
      exact absurd (Option.some.inj h) (hlink hook owner)
    · rfl
  rw [hstore]
  refine (find?_updateOrPush ?_ name).trans ?_
  · exact fun _ => rfl
  · rw [hx, Option.getD_some]

/-- The names of an object after one variable of a name was removed. -/
theorem names_remove (name : String) (o : Object) : (o.remove name).names = o.names.erase name := by
  have hindex : o.names.idxOf? name = o.members.findIdx? (·.name == name) := by
    rw [← findIdx?_toList, names, List.idxOf?, List.findIdx?_map]
    rfl
  rw [List.erase_eq_eraseIdx, hindex]
  unfold remove
  cases o.members.findIdx? (·.name == name) with
  | none => rfl
  | some i =>
    show (o.members.eraseIdxIfInBounds i).toList.map Variable.name = o.names.eraseIdx i
    rw [Array.toList_eraseIdxIfInBounds, ← List.eraseIdx_map]
    rfl

/-- A length that is given to an array leaves all names that are no indices in their order. -/
theorem names_setLength (current length : Nat) (o : Object) :
    ∃ keep : String → Bool, (∀ name, ArrayIndex.ofName? name = none → keep name = true) ∧
      (o.setLength current length).names = o.names.filter keep := by
  by_cases hlength : length < current
  · refine ⟨fun name => (ArrayIndex.ofName? name).elim true (· < length), fun name hname => ?_, ?_⟩
    · exact congrArg (Option.elim · true fun i => decide (i < length)) hname
    unfold setLength names
    dsimp only
    rw [if_pos hlength, Array.toList_filter, List.filter_map]
    refine congrArg (List.map Variable.name) (List.filter_congr fun v _ => ?_)
    rw [Function.comp_apply]
    cases ArrayIndex.ofName? v.name <;> rfl
  · refine ⟨fun _ => true, fun _ _ => rfl, ?_⟩
    unfold setLength
    dsimp only
    rw [if_neg hlength, List.filter_true]
    rfl

end Object

/-! ## Names of all objects -/

namespace Heap

/-- The names of the variables of an object, in their order. -/
def names (h : Heap) (a : ObjectId) : List String := ((h.get? a).map Object.names).getD []

/-- No two variables of an object have the same name. -/
def Distinct (h : Heap) : Prop := ∀ a, (h.names a).Nodup

variable {h : Heap} {a : ObjectId} {name : String}

theorem distinct_of_tidy (ht : h.Tidy True) : h.Distinct := by
  intro a
  unfold names
  cases ho : h.get? a with
  | none => exact List.nodup_nil
  | some o => exact (ht a o ho).distinct trivial

/-- A change that only adds names to an object behind those that it has. -/
theorem names_modify_prefix {f : Object → Object} (hf : ∀ o, h.get? a = some o → o.names <+: (f o).names)
    (b : ObjectId) : h.names b <+: (h.modify a f).names b := by
  unfold names
  rw [modify, get?_modifySlot]
  split
  · rename_i hab
    subst hab
    cases hs : h.slot? a with
    | none =>
      rw [get?, hs]
      exact List.prefix_rfl
    | some s =>
      have ho : h.get? a = some s.object := by rw [get?, hs]; rfl
      rw [ho]
      exact hf s.object ho
  · exact List.prefix_rfl

/-- A change of an object changes its names only. -/
theorem names_modify {f : Object → Object} {g : List String → List String} (hg : g [] = [])
    (hf : ∀ o, h.get? a = some o → (f o).names = g o.names) (b : ObjectId) :
    (h.modify a f).names b = if b = a then g (h.names b) else h.names b := by
  unfold names
  rw [modify, get?_modifySlot]
  by_cases hab : a = b
  · subst hab
    rw [if_pos rfl, if_pos rfl]
    cases hs : h.slot? a with
    | none =>
      rw [get?, hs]
      exact hg.symm
    | some s =>
      have ho : h.get? a = some s.object := by rw [get?, hs]; rfl
      rw [ho]
      exact hf s.object ho
  · rw [if_neg hab, if_neg fun h => hab h.symm]

theorem owns_iff : h.owns a name = true ↔ name ∈ h.names a := by
  unfold owns names
  cases h.get? a with
  | none => exact iff_of_false Bool.false_ne_true List.not_mem_nil
  | some o => exact Object.has_iff

end Heap

/-! ## Assignments and deletions -/

namespace Script

variable {e : Engine} {m n : Machine} {place : Location} {x : Variable} {a : ObjectId} {name : String}
  {v w : Value}

/-- What becomes of the variables of all objects when a value is assigned to a variable that is there, by
itself or as a synonym of the one at a place.  All stay where they are, and the one at the place takes up
the value.  The length of an array keeps its place among what is not dropped, after the value was converted.
A hook of the embedding program answers for all else. -/
def Assigns (place : Location) (v : Value) (e : Engine) (m : Machine) (o : Outcome Value) : Prop :=
  match (m.heap.own? place.object place.name).map Variable.link with
  | some (.hook (.host behavior) owner) =>
    o = (do let _ ← perform (.writeHook behavior owner v.unbound); return v : Script Value) e m
  | some (.hook .arrayLength array) => ∀ w n, o = .value w n →
    ∃ number k, toNumber v.unbound e m = .value number k ∧
      ∃ keep : String → Bool, (∀ name, ArrayIndex.ofName? name = none → keep name = true) ∧
        ∀ a, n.heap.names a = if a = array then (k.heap.names a).filter keep else k.heap.names a
  | _ => ∃ n, o = .value v n ∧ (∀ a, m.heap.names a <+: n.heap.names a) ∧
    ∀ x, m.heap.own? place.object place.name = some x → (∀ a, n.heap.names a = m.heap.names a) ∧
      n.heap.own? place.object place.name = some { x with value := v.unbound, hidden := false }

/-- An assignment to a variable that is there writes that variable and nothing else. -/
theorem writeTarget_eq {target : Target} (htarget : target.StandsFor m place) (v : Value) (e : Engine) :
    ∃ found, m.heap.resolve found = place ∧
      writeTarget target v e m = (do let _ ← writeVariable found v; return v : Script Value) e m := by
  cases target with
  | «variable» found => exact ⟨found, htarget, rfl⟩
  | member object name =>
    refine ⟨⟨object, name⟩, htarget.2, ?_⟩
    show (if m.heap.owns object name = true then _ else _ : Script Value) e m = _
    rw [if_pos htarget.1]
    rfl

/-- Where there is no hook, all variables stay where they are, and the one at the place takes up the value. -/
theorem writeTarget_stored {target : Target} (htarget : target.StandsFor m place)
    (hlink : ∀ hook owner, (m.heap.own? place.object place.name).map Variable.link ≠ some (.hook hook owner))
    (v : Value) (e : Engine) :
    ∃ n, writeTarget target v e m = .value v n ∧ (∀ a, m.heap.names a <+: n.heap.names a) ∧
      ∀ x, m.heap.own? place.object place.name = some x → (∀ a, n.heap.names a = m.heap.names a) ∧
        n.heap.own? place.object place.name = some { x with value := v.unbound, hidden := false } := by
  obtain ⟨found, rfl, hwrite⟩ := writeTarget_eq htarget v e
  generalize hplace : m.heap.resolve found = place at hlink
  let stored : Heap := m.heap.modify place.object (Object.store place.name v.unbound)
  have hvariable : writeVariable found v e m = .value v.unbound { m with heap := stored } := by
    rw [Simulation.writeVariable_eq, hplace]
    split
    · rename_i hook owner h
      exact absurd h (hlink hook owner)
    · rfl
  refine ⟨{ m with heap := stored }, ?_, fun a => ?_, fun x hx => ⟨fun a => ?_, ?_⟩⟩
  · rw [hwrite]
    exact bind_of_value hvariable _
  · refine Heap.names_modify_prefix (fun o _ => ?_) a
    rw [Object.names_store]
    split
    · exact List.prefix_rfl
    · exact List.prefix_append _ _
  · obtain ⟨o, ho, hfind⟩ := Option.bind_eq_some_iff.1 hx
    refine (Heap.names_modify (g := id) rfl (fun o' ho' => ?_) a).trans (ite_self _)
    cases ho.symm.trans ho'
    exact (Object.names_store _ _ o).trans (if_pos (Object.mem_names_of_find? hfind))
  · obtain ⟨o, ho, hfind⟩ := Option.bind_eq_some_iff.1 hx
    show stored.own? _ _ = _
    rw [Heap.own?, Heap.get?_modify_self ho]
    refine Object.find?_store hfind fun hook owner h => hlink hook owner ?_
    rw [hx, Option.map_some, h]

/-- The length of an array stays in its place, and so does what it does not drop. -/
theorem writeTarget_length {target : Target} (htarget : target.StandsFor m place) {array : ObjectId}
    (hlink : (m.heap.own? place.object place.name).map Variable.link = some (.hook .arrayLength array))
    (h : writeTarget target v e m = .value w n) :
    ∃ number k, toNumber v.unbound e m = .value number k ∧
      ∃ keep : String → Bool, (∀ name, ArrayIndex.ofName? name = none → keep name = true) ∧
        ∀ a, n.heap.names a = if a = array then (k.heap.names a).filter keep else k.heap.names a := by
  obtain ⟨found, rfl, hwrite⟩ := writeTarget_eq htarget v e
  obtain ⟨u, n', hstore, hend⟩ := bind_value (hwrite.symm.trans h)
  cases hend
  rw [Simulation.writeVariable_eq, hlink] at hstore
  obtain ⟨number, k, length, hnumber, rfl⟩ := writeLength_value hstore
  refine ⟨number, k, hnumber, ?_⟩
  show ∃ keep : String → Bool, _ ∧ ∀ a, (k.heap.modify array _).names a = _
  cases ho : k.heap.get? array with
  | none =>
    refine ⟨fun _ => true, fun _ _ => rfl, fun a => Heap.names_modify rfl (fun o ho' => ?_) a⟩
    cases ho.symm.trans ho'
  | some o =>
    obtain ⟨keep, hkeep, hnames⟩ := Object.names_setLength (arrayLength m array) length o
    refine ⟨keep, hkeep, fun a => Heap.names_modify rfl (fun o' ho' => ?_) a⟩
    cases ho.symm.trans ho'
    exact hnames

theorem writeTarget_assigns {target : Target} (htarget : target.StandsFor m place) (v : Value) (e : Engine) :
    Assigns place v e m (writeTarget target v e m) := by
  unfold Assigns
  split
  · rename_i behavior owner hlink
    obtain ⟨x, hx, hlink⟩ := Option.map_eq_some_iff.1 hlink
    exact writeTarget_hooked htarget hx hlink v e
  · rename_i array hlink
    exact fun w n h => writeTarget_length htarget hlink h
  · rename_i hhost hlength
    refine writeTarget_stored htarget (fun hook owner hlink => ?_) v e
    cases hook with
    | host behavior => exact hhost behavior owner hlink
    | arrayLength => exact hlength owner hlink

/-- No variable of a name is left by its deletion. -/
theorem deleteMember_gone (hm : m.heap.Distinct) (h : deleteMember a name e m = .value true n) :
    n.heap.owns a name = false := by
  rw [Simulation.deleteMember_eq] at h
  rw [← Bool.not_eq_true, Heap.owns_iff]
  cases hx : m.heap.own? a name with
  | none =>
    rw [hx] at h
    cases h
    rw [← Heap.owns_iff, Heap.owns]
    unfold Heap.own? at hx
    cases ho : m.heap.get? a with
    | none => exact Bool.false_ne_true
    | some o =>
      rw [ho] at hx
      exact fun hhas => Object.find?_eq_none.1 hx (Object.has_iff.1 hhas)
  | some x =>
    obtain ⟨o, ho, hfind⟩ := Option.bind_eq_some_iff.1 hx
    rw [hx, Option.map_some] at h
    cases hpermanent : x.permanent with
    | true =>
      rw [hpermanent] at h
      cases h
    | false =>
      rw [hpermanent] at h
      cases h
      have hnames : ∀ o', m.heap.get? a = some o' → (o'.discard name).names = o'.names.erase name := by
        intro o' ho'
        cases ho.symm.trans ho'
        unfold Object.discard
        rw [hfind]
        dsimp only
        rw [if_neg (by rw [hpermanent]; exact Bool.false_ne_true), Object.names_remove]
      show name ∉ (m.heap.modify a _).names a
      rw [Heap.names_modify (g := (·.erase name)) rfl hnames, if_pos rfl]
      exact (hm a).not_mem_erase

end Script

/-! ## All runs -/

/-- No object has two variables of the same name when a task begins or ends, or a built-in function
begins. -/
def Check.distinct : Check where
  task _ m o := m.heap.Distinct ∧ o.machine.heap.Distinct
  native m := m.heap.Distinct

theorem Check.distinct_allowsTidy : Check.distinct.AllowsTidy True where
  task hm ho := ⟨Heap.distinct_of_tidy hm, Heap.distinct_of_tidy ho⟩
  native hm := Heap.distinct_of_tidy hm

namespace Script

/-- No object has two variables of the same name, on all machines that an embedding program can come to and
in the course of all tasks and programs that run there, if no hook adds a name that it declines.  Where no
object has any, an assignment to a variable that is there leaves it in its place, and what was deleted is
gone. -/
theorem names_distinct {config : Config} {host : Host} (hhost : host.Conforms)
    (hdeclines : ∀ limit, (Engine.upTo config host limit).Declines) {m : Machine}
    (hm : Interpreter.Visited config host m) (alarm : Outcome Value) (limit : Nat) :
    m.heap.Distinct ∧
    (∀ t, performChecked .distinct alarm config host limit t m = performUpTo config host limit t m) ∧
    (∀ body this withs, runProgram body this withs (.checked .distinct alarm config host limit) m
      = runProgram body this withs (.upTo config host limit) m) ∧
    ∀ e n, n.heap.Distinct →
      (∀ target place v, target.StandsFor n place → Assigns place v e n (writeTarget target v e n)) ∧
      ∀ a name k, deleteMember a name e n = .value true k → k.heap.owns a name = false := by
  have htidy : m.heap.Tidy True := Machine.tidy_of_visited hhost (fun _ => hdeclines) hm
  have hruns := Machine.tidy_runs hhost (fun _ => hdeclines) Check.distinct_allowsTidy htidy alarm limit
  refine ⟨Heap.distinct_of_tidy htidy, hruns.1, hruns.2, fun e n hn => ⟨?_, ?_⟩⟩
  · exact fun target place v htarget => writeTarget_assigns htarget v e
  · exact fun a name k h => deleteMember_gone hn h

/-- A new interpreter whose global object lets a hook take up new names. -/
theorem names_distinct_offering :
    (Stock.host (Stock.scripted none [] [])).Conforms ∧
      (∀ limit, (Engine.upTo {} (Stock.host (Stock.scripted none [] [])) limit).Declines) ∧
      Interpreter.Visited {} (Stock.host (Stock.scripted none [] []))
        (Stock.offering (Stock.scripted none [] [])) ∧
      (Stock.offering (Stock.scripted none [] [])).heap.Distinct := by
  have hhost := Stock.host_conforms (Stock.scripted none [] [])
  have hdeclines := Stock.host_declines (Stock.scripted none [] []) {}
  have hm := Stock.visited_offering (Stock.scripted none [] [])
  exact ⟨hhost, hdeclines, hm,
    (names_distinct hhost hdeclines hm (.exhausted (Stock.offering (Stock.scripted none [] []))) 0).1⟩

end Script

end PageScript
