import PageScript.Proofs.Interface
import PageScript.Proofs.Reachable
import PageScript.Proofs.Simulation.Checked

/-! # All objects are tidy

No value in the variables of an object remembers a receiver, on all machines that an embedding program can
come to, and in the course of all runs.  The names of the variables are distinct if no hook of the embedding
program adds a variable of a name that it declines.
-/

set_option autoImplicit false

namespace PageScript

/-! ## The invariant -/

/-- The tidiness of all objects as an invariant. -/
def Invariant.tidiness (unique : Prop) : Invariant where
  Ghost := Unit
  inv _ _ m := m.heap.Tidy unique
  spent _ m := m.heap.Tidy unique
  tidies := True
  unique := unique
  spend h := h
  edit h _ hneat := h.modify (hneat trivial)
  fill h _ _ hneat := h.modify (hneat trivial)
  setLength current length h _ := h.modify fun _ _ ho => ho.setLength current length
  alloc h ho _ := h.alloc ho.tidy.weaken
  pin a _ _ h := ⟨(), h.pins fun _ => rfl, fun hn => hn.pins fun _ => rfl, fun hn => hn.pins fun _ => rfl⟩
  frame {_ _ _} _ _ _ h := by
    refine ⟨(), trivial, h, fun {_ n} hn => ?_, fun {n} hn => ?_⟩ <;>
    · rw [Machine.pop_heap]
      exact hn

namespace Invariant

open Script

variable {α : Type} {js : List Jump} {p : Pairing} {config : Config} {host : Host} {m : Machine}
  {unique : Prop}

theorem tidiness_steady : (tidiness unique).Steady := ⟨fun h => h, fun h => h⟩

theorem tidiness_contained : (tidiness unique).toSimulation.Contained :=
  Simulation.contained_of_stray fun _ => trivial

theorem tidiness_programs : (tidiness unique).Programs () where
  collect hm _ hsub _ _ := hm.emptied hsub

/-! ## Code of the embedding program -/

/-- The machines of an invariant are only paired by the identity. -/
theorem follows_anywhere {V : Matching α} {x x' : Script α}
    (h : (tidiness unique).toSimulation.Follows js .identity V x x') :
    (tidiness unique).toSimulation.Follows js p V x x' := by
  refine ⟨fun e e' he g m m' hm => ?_⟩
  obtain ⟨rfl, -⟩ := id hm
  exact h.ends e e' he g m m' hm

theorem follows_same {V : Matching α} {x : Script α} (hV : V.Monotone)
    (heq : ∀ v w, V .identity v w → v = w) (h : (tidiness unique).toSimulation.Follows js .identity V x x) :
    (tidiness unique).toSimulation.Follows js .identity .same x x := by
  refine ⟨fun e e' he g m m' hm => ?_⟩
  have hends := h.ends e e' he g m m' hm
  generalize x e m = o at hends
  generalize x e' m' = o' at hends
  cases hends with
  | value hq hv hn => exact .value hq (heq _ _ (hV ((tidiness unique).diagonal.pairing hn) hv)) hn
  | abrupt hq hc hj hn => exact .abrupt hq hc hj hn
  | exhausted h => exact .exhausted h

theorem follows_of_same {V : Matching α} {x : Script α} (hV : ∀ v, V .identity v v)
    (h : (tidiness unique).toSimulation.Follows js .identity .same x x) :
    (tidiness unique).toSimulation.Follows js .identity V x x := by
  refine ⟨fun e e' he g m m' hm => ?_⟩
  have hends := h.ends e e' he g m m' hm
  generalize x e m = o at hends
  generalize x e' m' = o' at hends
  cases hends with
  | value hq hv hn =>
    cases hv
    obtain ⟨rfl, -⟩ := id hn
    exact .value hq (hV _) hn
  | abrupt hq hc hj hn => exact .abrupt hq hc hj hn
  | exhausted h => exact .exhausted h

theorem read_tidiness (f : Machine → α) :
    (tidiness unique).toSimulation.Follows js .identity .same (Script.read f) (Script.read f) :=
  .read fun hm => congrArg f hm.2.1.symm

theorem modify_tidiness {f : Machine → Machine} 
    (hf : ∀ m : Machine, m.heap.Tidy unique → (f m).heap.Tidy unique) :
    (tidiness unique).toSimulation.Follows js .identity .same (Script.modify f) (Script.modify f) :=
  .modify fun hm => ⟨hm.1, by rw [hm.2.1], hf _ hm.2.2⟩

theorem modifyObject_tidiness (a : ObjectId) {f : Object → Object} 
    (hf : ∀ o : Object, o.Tidy unique → (f o).Tidy unique) :
    (tidiness unique).toSimulation.Follows js .identity .same (Script.modifyObject a f)
      (Script.modifyObject a f) :=
  modify_tidiness fun _ hm => hm.modify fun o _ ho => hf o ho

theorem settled_tidiness {V : Matching α} {x x' : Script α}
    (h : (tidiness unique).toSimulation.Runs .going ⟨.halting, .halting, js⟩ p V x x') :
    (tidiness unique).toSimulation.Follows js p V x x' := .settled (fun hm => hm) h

theorem abrupt_tidiness (c : Abrupt) :
    (tidiness unique).toSimulation.Follows js .identity (.same : Matching α) (Script.abrupt c)
      (Script.abrupt c) := by
  have hallows : (tidiness unique).toSimulation.Allows js c := fun _ _ => .inl trivial
  cases c with
  | stopped => exact Simulation.Runs.stopped.halt
  | returned v => exact .abrupt (.returned (.refl v)) hallows nofun
  | thrown v => exact .abrupt (.thrown (.refl v)) hallows nofun
  | broken label => exact .abrupt (.broken label) hallows nofun
  | continued label => exact .abrupt (.continued label) hallows nofun

/-- Code that uses nothing but the interface leaves all objects tidy. -/
theorem interface_tidiness {x : Script α} (hx : Interface α x) :
    (tidiness unique).toSimulation.Follows js .identity .same x x := by
  have hids : ∀ a b : ObjectId, Matching.id .identity a b → a = b := fun _ _ h =>
    Pairing.eq_of_identity h
  induction hx with
  | pure a => exact .pure rfl
  | bind _ _ first next =>
    refine .bind first ?_
    rintro q - v _ rfl
    exact follows_anywhere (next v)
  | abrupt c => exact abrupt_tidiness c
  | print text => exact .emit _ rfl
  | display v => exact settled_tidiness (Simulation.display_runs (.refl v))
  | newObject => exact follows_same Matching.id_mono hids Simulation.newObject_follows
  | newArray elements =>
    exact follows_same Matching.id_mono hids
      (Simulation.arrayOf_follows (Matching.list_refl Value.Matches.refl elements))
  | register object name arity behavior =>
    have hnew : (tidiness unique).toSimulation.Follows js .identity .id
        (Script.alloc (Object.foreign name arity behavior))
        (Script.alloc (Object.foreign name arity behavior)) :=
      .alloc (.foreign name arity behavior) (Object.ordinary_foreign name arity behavior) nofun
    refine .bind (follows_same Matching.id_mono hids hnew) ?_
    rintro q - f _ rfl
    refine follows_anywhere (.bind (modifyObject_tidiness object fun _ ho => ho.putHidden name rfl) ?_)
    exact fun _ _ _ _ _ => .pure rfl
  | getProperty object name =>
    have hread : (tidiness unique).toSimulation.Follows js .identity Value.Matches
        (Script.readMember (.ref object) name) (Script.readMember (.ref object) name) :=
      Simulation.readMember_follows (.refl _) name
    exact follows_same Value.Matches.mono (fun _ _ h => h.eq)
      (settled_tidiness (.orElse hread fun _ _ => .undefined))
  | setProperty object name v =>
    have hwrite : (tidiness unique).toSimulation.Follows js .identity Value.Matches
        (Script.writeMember object name v) (Script.writeMember object name v) :=
      Simulation.writeMember_follows rfl name (.refl v)
    refine .bind (settled_tidiness (.orElse hwrite fun _ hq => (Value.Matches.refl v).mono hq)) ?_
    exact fun _ _ _ _ _ => .pure rfl
  | addHook object name behavior owner =>
    exact modifyObject_tidiness object fun _ ho => ho.updateOrPush name (fun _ => rfl) fun _ hx => hx
  | setAdditionHook object behavior => exact modifyObject_tidiness object fun _ ho => ho.congr rfl
  | setCallsAsMember object on => exact modifyObject_tidiness object fun _ ho => ho.congr rfl
  | protect object name key =>
    exact modifyObject_tidiness object fun _ ho => ho.update name (fun _ => rfl) fun _ hx => hx
  | setKey key => exact modify_tidiness fun _ hm => hm
  | keep object on =>
    refine modify_tidiness fun m hm => ?_
    show (if on then m.heap.pin object else m.heap.unpin object).Tidy unique
    split
    · exact hm.pins fun _ => rfl
    · exact hm.pins fun _ => rfl
  | collectGarbage =>
    refine .bind (V := .same) (b := .going) ⟨fun e e' he g m m' hm => ?_⟩ fun q _ census _ hcensus => ?_
    · obtain ⟨hp, rfl, hm⟩ := hm
      exact .value (le_refl _) rfl ⟨hp, rfl, hm.collect _⟩
    · cases hcensus
      exact .bind (V := .same) (.log fun _ => rfl) fun _ _ _ _ _ => .pure rfl
  | isLive object => exact read_tidiness _
  | wasStopped => exact read_tidiness _
  | returnValue => exact read_tidiness _

theorem interface_matches {V : Matching α} (hV : ∀ v, V .identity v v) {x : Script α} (hx : Interface α x)
    {x' : Script α} (hp : p = .identity → x' = x) : (tidiness unique).toSimulation.Follows js p V x x' := by
  refine ⟨fun e e' he g m m' hm => ?_⟩
  obtain ⟨rfl, -⟩ := id hm
  cases hp rfl
  exact (follows_of_same hV (interface_tidiness hx)).ends e e' he g m m' hm

theorem tidiness_embeds (hhost : host.Conforms) : (tidiness unique).toSimulation.Embeds host host where
  native behavior hv hxs := interface_matches .refl (hhost.native behavior _ _) fun hp => by
    subst hp
    rw [hv.eq, Matching.list_eq (fun _ _ h => h.eq) hxs]
  readHook behavior hab := interface_matches .refl (hhost.readHook behavior _) fun hp => by
    subst hp
    rw [Pairing.eq_of_identity hab]
  writeHook behavior hab hv := interface_matches .refl (hhost.writeHook behavior _ _) fun hp => by
    subst hp
    rw [Pairing.eq_of_identity hab, hv.eq]
  offer behavior hab name := interface_matches (fun _ => rfl) (hhost.offer behavior _ name) fun hp => by
    subst hp
    rw [Pairing.eq_of_identity hab]

theorem tidiness_hosts (hhost : host.Conforms)
    (hdeclines : unique → ∀ limit, (Engine.upTo config host limit).Declines) :
    (tidiness unique).Hosts config host where
  depth := trivial
  shows := trivial
  declines := hdeclines
  embeds := tidiness_embeds hhost

end Invariant

/-! ## The heap of the realm -/

namespace Realm

/-- Whether all objects of a heap are tidy, as far as it can be computed. -/
def isTidy (h : Heap) : Bool :=
  h.slots.toList.all fun slot =>
    match slot with
    | none => true
    | some s =>
      decide s.object.names.Nodup && s.object.members.toList.all fun x => x.value.receiver?.isNone

set_option maxRecDepth 100000 in
theorem heap_isTidy : isTidy heap = true := by
  decide +kernel

theorem heap_tidy : heap.Tidy True := by
  intro a o ho
  obtain ⟨s, hs, rfl⟩ := Option.map_eq_some_iff.1 ho
  have hall := List.all_eq_true.1 heap_isTidy (some s) ?_
  · rw [Bool.and_eq_true, decide_eq_true_eq, List.all_eq_true] at hall
    exact ⟨fun _ => hall.1, fun x hx => Option.isNone_iff_eq_none.1 (hall.2 x (Array.mem_toList_iff.2 hx))⟩
  · rw [Heap.slot?, Option.join_eq_some_iff] at hs
    exact Array.mem_toList_iff.2 (Array.mem_of_getElem? hs)

end Realm

/-! ## All runs -/

section

open Script

variable {config : Config} {host : Host} {m : Machine} {unique : Prop}

/-- Whether a check is content with machines whose objects are all tidy. -/
structure Check.AllowsTidy (unique : Prop) (check : Check) : Prop where
  task : ∀ {t m o}, m.heap.Tidy unique → o.machine.heap.Tidy unique → check.task t m o
  native : ∀ {m}, m.heap.Tidy unique → check.native m

theorem Check.AllowsTidy.ensures {check : Check} (h : check.AllowsTidy unique) :
    (Invariant.tidiness unique).Ensures check where
  task _ hm hends := by
    obtain ⟨g, hm⟩ := hm
    exact h.task hm ((hends g hm).steady Invariant.tidiness_steady)
  native hm := h.native hm

variable (hhost : host.Conforms)
    (hdeclines : unique → ∀ limit, (Engine.upTo config host limit).Declines)

include hhost hdeclines

theorem Machine.tidy_of_visited (hm : Interpreter.Visited config host m) : m.heap.Tidy unique := by
  have hhosts : (Invariant.tidiness unique).Hosts config host := Invariant.tidiness_hosts hhost hdeclines
  induction hm with
  | new =>
    obtain ⟨es, hnew, -⟩ := Interpreter.new_machine config host
    rw [hnew]
    exact fun a o ho => (Realm.heap_tidy a o ho).weaken
  | run _ parsed this withs limit ih =>
    refine (Invariant.runProgram_ends hhosts trivial Invariant.tidiness_contained
      Invariant.tidiness_programs limit (fun _ _ => trivial) fun e n hn => ?_).steady
      Invariant.tidiness_steady
    cases hn
    exact ih
  | refused _ _ limit ih =>
    show ((if config.showErrors then _ else _ : Script Unit) (.upTo config host limit)
      _).machine.heap.Tidy unique
    split
    · exact ih
    · exact ih
  | use _ code limit ih =>
    have hperform := Simulation.performUpTo_performs hhosts.toSimulation trivial
      Invariant.tidiness_contained limit
    have hfollows : (Invariant.tidiness unique).toSimulation.Follows [] .identity .same _ _ :=
      Invariant.interface_tidiness code
    have hends := hfollows.ends _ _ (hhosts.toSimulation.agree hperform limit) () _ _ ⟨rfl, rfl, ih⟩
    exact (Invariant.Ends.of_simulation hends).steady Invariant.tidiness_steady

/-- No task of a run comes upon an object that is not tidy, or leaves one behind. -/
theorem Machine.tidy_runs {check : Check} (hcheck : check.AllowsTidy unique) (hm : m.heap.Tidy unique)
    (alarm : Outcome Value) (limit : Nat) :
    (∀ t, performChecked check alarm config host limit t m = performUpTo config host limit t m) ∧
      ∀ body this withs, runProgram body this withs (.checked check alarm config host limit) m
        = runProgram body this withs (.upTo config host limit) m := by
  have hhosts : (Invariant.tidiness unique).Hosts config host := Invariant.tidiness_hosts hhost hdeclines
  refine ⟨fun t => ?_, fun body this withs => ?_⟩
  · exact (Invariant.perform_checked (g := ()) hhosts trivial Invariant.tidiness_contained hcheck.ensures
      alarm limit (Invariant.poses_of_trees (t := t) trivial fun _ _ => trivial) hm).1
  · refine (Invariant.runProgram_checked hhosts trivial Invariant.tidiness_contained hcheck.ensures
      Invariant.tidiness_programs alarm limit (fun _ _ => trivial) fun e n hn => ?_).1
    cases hn
    exact hm

end

end PageScript
