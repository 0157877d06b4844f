import PageScript.Proofs.Precedence

/-! # Names in functions

Code sees through the activations of `eval` and of built-in functions to their callers, but an activation
of a function is the end of the view.  Beyond it lie the objects that the embedding program has put in
front of the global object, which stand in the outermost activation alone, and the global object.  What a
name in a function stands for is therefore settled by the function's own activation, by these objects and
by the heap: no caller lends it a variable, an object of a `with` statement or its `this`.
-/

set_option autoImplicit false

namespace PageScript

/-! ## Confined entries -/

/-- Whether the outermost of some activations, inside out, is the only one with entries that are seen from
everywhere. -/
def Frame.Confined (fs : List Frame) : Prop := ∀ f ∈ fs.dropLast, f.Local

/-- Whether no activation but the outermost one has entries that are seen from everywhere. -/
def Machine.Confined (m : Machine) : Prop := Frame.Confined m.frames

/-- The outermost activation. -/
def Machine.outermost (m : Machine) : Frame := m.frames.getLast (List.cons_ne_nil _ _)

namespace Frame

variable {f g : Frame} {fs : List Frame} {w : WithEntry}

theorem Local.putFirst (hw : w.everywhere = false) (hf : f.Local) : (f.putFirst w).Local := by
  intro v hv
  rcases List.mem_cons.1 hv with rfl | hv
  · exact hw
  · exact hf v hv

theorem Local.tail (hf : f.Local) : Frame.Local { f with withs := f.withs.tail } :=
  fun v hv => hf v (List.mem_of_mem_tail hv)

theorem confined_single (f : Frame) : Confined [f] := fun _ hg => by cases hg

/-- With a caller around it, the innermost activation is not the outermost one. -/
theorem confined_cons : Confined (f :: g :: fs) ↔ f.Local ∧ Confined (g :: fs) := List.forall_mem_cons

theorem Confined.push (hf : f.withs = []) (h : Confined fs) : Confined (f :: fs) := by
  cases fs with
  | nil => exact confined_single f
  | cons g rest => exact confined_cons.2 ⟨fun w hw => by simp [hf] at hw, h⟩

/-- An innermost activation may be replaced by one that is local if the first one is. -/
theorem Confined.replace (hg : f.Local → g.Local) (h : Confined (f :: fs)) : Confined (g :: fs) := by
  cases fs with
  | nil => exact confined_single g
  | cons c rest => exact confined_cons.2 ((confined_cons.1 h).imp_left hg)

end Frame

/-! ## Lookup -/

namespace Machine

variable {h : Heap} {name : String} {ws : List WithEntry} {f : Frame} {fs : List Frame} {m : Machine}

theorem lookupWiths_eq_none_iff :
    lookupWiths h name ws = none ↔ ∀ w ∈ ws, h.findOwner w.object name = none := by
  induction ws with
  | nil => exact iff_of_true rfl fun _ hw => (List.not_mem_nil hw).elim
  | cons w rest ih =>
    rw [List.forall_mem_cons, ← ih, lookupWiths]
    cases h.findOwner w.object name with
    | none => exact ⟨fun hrest => ⟨rfl, hrest⟩, And.right⟩
    | some owner =>
      exact ⟨fun hsome => (Option.some_ne_none _ hsome).elim, fun hboth => (Option.some_ne_none _ hboth.1).elim⟩

theorem lookupWiths_filter (p : WithEntry → Bool) (hws : lookupWiths h name ws = none) :
    lookupWiths h name (ws.filter p) = none :=
  lookupWiths_eq_none_iff.2 fun w hw => lookupWiths_eq_none_iff.1 hws w (List.mem_of_mem_filter hw)

/-- What the activations around that of a function lend to it: the entries of the outermost one that are
seen from everywhere. -/
theorem lookupCallers_closed (hf : Frame.Confined (f :: fs)) :
    lookupCallers h name false (f :: fs)
      = lookupWiths h name (((f :: fs).getLast (List.cons_ne_nil _ _)).withs.filter (·.everywhere)) := by
  induction fs generalizing f with
  | nil =>
    rw [lookupCallers_cons]
    simp only [Bool.or_false, List.getLast_singleton]
    exact Option.or_none
  | cons g rest ih =>
    obtain ⟨hlocal, hrest⟩ := Frame.confined_cons.1 hf
    have hnone : f.withs.filter (fun w => w.everywhere || false) = [] := by
      rw [List.filter_eq_nil_iff]
      intro w hw
      rw [hlocal w hw]
      exact Bool.false_ne_true
    rw [lookupCallers_cons, hnone, List.getLast_cons (List.cons_ne_nil _ _)]
    exact ih hrest

theorem lookupFrame_withs (hnone : lookupFrame h name f = none) : lookupWiths h name f.withs = none := by
  unfold lookupFrame at hnone
  cases hws : lookupWiths h name f.withs with
  | none => rfl
  | some b => rw [hws] at hnone; cases hnone

theorem lookupCallers_function (hf : Frame.Confined (f :: fs)) (hnone : lookupFrame h name f = none) :
    lookupCallers h name false fs
      = lookupWiths h name (((f :: fs).getLast (List.cons_ne_nil _ _)).withs.filter (·.everywhere)) := by
  cases fs with
  | nil => exact (lookupWiths_filter _ (lookupFrame_withs hnone)).symm
  | cons g rest =>
    rw [List.getLast_cons (List.cons_ne_nil _ _)]
    exact lookupCallers_closed (Frame.confined_cons.1 hf).2

/-- Where a name in a function is looked up: in its own activation, in what the embedding program has put
in front of the global object, and in the global object. -/
theorem lookup_function (hm : m.Confined) (hkind : m.frame.kind = .function) (name : String) :
    m.lookup name = ((lookupFrame m.heap name m.frame).or
      (lookupWiths m.heap name (m.outermost.withs.filter (·.everywhere)))).or
        ((m.heap.findOwner Intrinsic.globalObject name).map fun owner => ⟨⟨owner, name⟩, none⟩) := by
  have hclosed : m.frame.isTransparent = false := by
    unfold Frame.isTransparent
    rw [hkind]
    rfl
  unfold lookup
  rw [hclosed]
  cases hframe : lookupFrame m.heap name m.frame with
  | some b => rfl
  | none =>
    have hcallers : lookupCallers m.heap name false m.callers
        = lookupWiths m.heap name (m.outermost.withs.filter (·.everywhere)) :=
      lookupCallers_function hm hframe
    rw [hcallers]
    cases lookupWiths m.heap name (m.outermost.withs.filter (·.everywhere)) <;> rfl

end Machine

/-! ## Runs -/

/-- All of the interface. -/
abbrev Permit.all : Permit := ⟨fun _ => True, True, True, True, True, True, True⟩

/-- The confinement of entries as an invariant: a part of a run finds its callers as it left them. -/
def Invariant.confined : Invariant where
  Ghost := List Frame
  inv _ g m := m.callers = g ∧ Frame.Confined (m.frame :: g)
  spent g m := m.callers = g ∧ Frame.Confined (m.frame :: g)
  spend h := h
  withObject a {g m} h := by
    have hleave : ∀ n : Machine, n.callers = g ∧ Frame.Confined (n.frame :: g) →
        n.callers = g ∧ Frame.Confined ({ n.frame with withs := n.frame.withs.tail } :: g) :=
      fun n hn => ⟨hn.1, hn.2.replace .tail⟩
    exact ⟨g, ⟨h.1, h.2.replace (.putFirst rfl)⟩, fun {_ n} hn => hleave n hn, fun {n} hn => hleave n hn⟩
  frame {g m k} f hwiths _ h := by
    have hpop : ∀ n : Machine, n.callers = m.frame :: g ∧ Frame.Confined (n.frame :: m.frame :: g) →
        n.pop.callers = g ∧ Frame.Confined (n.pop.frame :: g) := by
      rintro n ⟨hn, -⟩
      unfold Machine.pop
      rw [hn]
      exact ⟨rfl, h.2⟩
    exact ⟨m.frame :: g, trivial, ⟨congrArg (m.frame :: ·) h.1, h.2.push hwiths⟩,
      fun {_ n} hn => hpop n hn, fun {n} hn => hpop n hn⟩

/-- Entries are confined as each task starts, as it ends, and as each built-in function begins. -/
def Check.confined : Check where
  task _ m o := m.Confined ∧ o.machine.Confined
  native m := m.Confined

namespace Invariant

variable {config : Config} {host : Host} {functions hooks may : Permit} {m : Machine} {g : List Frame}

theorem confined_of_inv (h : confined.inv .going g m) : m.Confined := by
  obtain ⟨hcallers, hconfined⟩ := h
  unfold Machine.Confined Machine.frames
  rwa [hcallers]

theorem confined_steady : confined.Steady := ⟨fun h => h, fun h => h⟩

theorem confined_grants : confined.Grants may where
  collect _ _ _ hm := hm

theorem confined_hosts (hhost : host.Uses functions hooks) : confined.Hosts config host where
  depth := trivial
  shows := trivial
  embeds := .of_uses hhost confined_grants.toSimulation confined_grants.toSimulation
    (fun _ _ => .inr trivial) fun _ _ => trivial

theorem confined_ensures : confined.Ensures .confined where
  task {t m o} _ hm hends := by
    obtain ⟨g, hm⟩ := hm
    exact ⟨confined_of_inv hm, confined_of_inv ((hends g hm).steady confined_steady)⟩
  native hm := confined_of_inv hm

theorem confined_contained : confined.toSimulation.Contained :=
  Simulation.contained_of_stray fun _ => trivial

/-- A program has no callers around it. -/
theorem confined_programs : confined.Programs [] where
  outermost hm := ⟨hm.1, Frame.confined_single _⟩
  collect hm _ _ _ _ := hm

theorem confined_startRun {e : Engine} {this : Option ObjectId} {withs : List ObjectId} {n : Machine}
    (hn : Script.startRun this withs e m = .value () n) : confined.inv .going [] n := by
  cases hn
  exact ⟨rfl, Frame.confined_single _⟩

end Invariant

namespace Script

variable {config : Config} {host : Host} {m n : Machine}

theorem confined_of_reachable (hhost : host.Uses .all .all)
    (hm : Interpreter.Reachable .all config host m) : m.Confined := by
  obtain ⟨g, hg⟩ := Invariant.reachable [] Invariant.confined_steady (Invariant.confined_hosts hhost)
    trivial Invariant.confined_contained Invariant.confined_grants trivial (fun _ _ => .inl trivial)
    (fun es _ => ⟨[], rfl, Frame.confined_single _⟩)
    (fun _ => ⟨[], Invariant.confined_programs, fun e n hn => Invariant.confined_startRun hn⟩) hm
  exact Invariant.confined_of_inv hg

/-- Names in functions are looked up in lexical scope.  Entries are confined whenever a task starts or ends
or a built-in function begins, in the course of every program and of every task that starts so, and they
are on every machine that an embedding program can come to.  On two machines with confined entries, the
same heap, the same innermost activation, which is that of a function, and the same entries of the
outermost activation, every name stands for the same variable, whatever activations lie in between. -/
theorem lookup_lexical (config : Config) (host : Host) (hhost : host.Uses .all .all)
    (alarm : Outcome Value) (limit : Nat) (m : Machine) :
    (m.Confined → ∀ t,
      performChecked .confined alarm config host limit t m = performUpTo config host limit t m ∧
        (performUpTo config host limit t m).machine.Confined) ∧
    (∀ body this withs,
      runProgram body this withs (.checked .confined alarm config host limit) m
        = runProgram body this withs (.upTo config host limit) m) ∧
    (Interpreter.Reachable .all config host m → m.Confined) ∧
    (m.Confined → m.frame.kind = .function → ∀ n : Machine, n.Confined → n.heap = m.heap →
      n.frame = m.frame → n.outermost.withs = m.outermost.withs →
      ∀ name, n.lookup name = m.lookup name) := by
  have hhosts : Invariant.confined.Hosts config host := Invariant.confined_hosts hhost
  refine ⟨fun hm t => ?_, fun body this withs => ?_, confined_of_reachable hhost,
    fun hm hkind n hn hheap hframe hwiths name => ?_⟩
  · have hstart : Invariant.confined.inv .going m.callers m := ⟨rfl, hm⟩
    have hrun := Invariant.perform_checked hhosts trivial Invariant.confined_contained
      Invariant.confined_ensures alarm limit (Invariant.poses_of_trees (t := t) trivial fun _ _ => trivial)
      hstart
    exact ⟨hrun.1, Invariant.confined_of_inv (hrun.2.steady Invariant.confined_steady)⟩
  · exact (Invariant.runProgram_checked hhosts trivial Invariant.confined_contained
      Invariant.confined_ensures Invariant.confined_programs alarm limit (fun _ _ => trivial)
      fun e n hn => Invariant.confined_startRun hn).1
  · rw [Machine.lookup_function hm hkind, Machine.lookup_function hn (hframe ▸ hkind), hheap, hframe,
      hwiths]

/-- A function without variables, called from the top level of a run with a table, and called by another
function within a `with` statement: its `charAt` is not that of the `with` statement. -/
theorem lookup_lexical_within :
    let host := Stock.host (Stock.scripted none [] [])
    let within (callers : List Frame) : Machine :=
      { (Interpreter.fresh {} host [⟨"print", 1, "print"⟩]).machine with
        frame := ⟨.function, Intrinsic.error .uri, Intrinsic.globalObject, [], none, none, none, false⟩
        callers := callers ++ [Frame.outermost Intrinsic.globalObject (WithEntry.ofTable [Intrinsic.array])] }
    let caller : Frame := ⟨.function, Intrinsic.error .type, Intrinsic.globalObject,
      [⟨Intrinsic.string, false⟩], none, none, some Intrinsic.string, false⟩
    host.Uses .all .all ∧ (within []).Confined ∧ (within [caller]).Confined ∧
      (within [caller]).outermost.withs = (within []).outermost.withs ∧
      (Machine.lookupWiths (within []).heap "charAt" caller.withs).isSome = true ∧
      (∀ name, (within [caller]).lookup name = (within []).lookup name) ∧
      ((within [caller]).lookup "charAt").isSome = false := by
  intro host within caller
  have hhost : host.Uses .all .all := Stock.host_uses _
  have hdirect : (within []).Confined := by
    rintro f (_ | ⟨_, hf⟩)
    · exact fun w hw => (List.not_mem_nil hw).elim
    · exact (List.not_mem_nil hf).elim
  have hcalled : (within [caller]).Confined := by
    rintro f (_ | ⟨_, _ | ⟨_, hf⟩⟩)
    · exact fun w hw => (List.not_mem_nil hw).elim
    · rintro w (_ | ⟨_, hw⟩)
      · rfl
      · exact (List.not_mem_nil hw).elim
    · exact (List.not_mem_nil hf).elim
  have hsame := (lookup_lexical {} host hhost (.exhausted (within [])) 100 (within [])).2.2.2 hdirect rfl
    (within [caller]) hcalled rfl rfl rfl
  refine ⟨hhost, hdirect, hcalled, rfl, by decide +kernel, hsame, ?_⟩
  rw [hsame]
  decide +kernel

end Script

end PageScript
