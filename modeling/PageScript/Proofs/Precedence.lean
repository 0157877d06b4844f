import PageScript.Proofs.Reachable

/-! # Objects in front of the global object

An embedding program starts a run with a table of objects that are searched in front of the global
object.  They stand at the end of the outermost activation's entries, in the course of the whole run, and
no other activation has entries that are seen from everywhere.  A name that the innermost activation does
not find itself is therefore looked up in the table, the last object first.
-/

set_option autoImplicit false

namespace PageScript

/-! ## Tables -/

/-- The entries of a table, the last object first. -/
def WithEntry.ofTable (table : List ObjectId) : List WithEntry := table.reverse.map (⟨·, true⟩)

/-- The variable of a name in the last object of a table that has one, or in the prototypes of that
object. -/
def Heap.findLast (h : Heap) (name : String) (table : List ObjectId) : Option Binding :=
  table.reverse.findSome? fun object =>
    (h.findOwner object name).map fun owner => ⟨⟨owner, name⟩, some object⟩

/-- An activation without what is seen from everywhere. -/
def Frame.own (f : Frame) : Frame := { f with withs := f.withs.filter (!·.everywhere) }

/-- An activation with one more entry in front. -/
def Frame.putFirst (w : WithEntry) (f : Frame) : Frame := { f with withs := w :: f.withs }

/-- Whether nothing in front of an activation is seen from everywhere. -/
def Frame.Local (f : Frame) : Prop := ∀ w ∈ f.withs, w.everywhere = false

/-- Whether activations, inside out, have a table at the end of the outermost one, and nothing else that is
seen from everywhere. -/
def Frame.Tabled (table : List ObjectId) : List Frame → Prop
  | [] => False
  | [f] => ∃ inner : List WithEntry, f.withs = inner ++ WithEntry.ofTable table ∧
      ∀ w ∈ inner, w.everywhere = false
  | f :: g :: rest => f.Local ∧ Tabled table (g :: rest)

namespace Frame.Tabled

variable {table : List ObjectId} {f : Frame} {fs : List Frame} {w : WithEntry}

theorem push (hf : f.withs = []) (h : Tabled table fs) : Tabled table (f :: fs) := by
  cases fs with
  | nil => exact h.elim
  | cons g rest => exact ⟨fun w hw => by simp [hf] at hw, h⟩

/-- A `with` statement puts its object in front, where it does not matter to the table. -/
theorem pushWith (hw : w.everywhere = false) (h : Tabled table (f :: fs)) :
    Tabled table (f.putFirst w :: fs) := by
  cases fs with
  | nil =>
    obtain ⟨inner, hwiths, hinner⟩ := h
    refine ⟨w :: inner, congrArg (w :: ·) hwiths, fun v hv => ?_⟩
    rcases List.mem_cons.1 hv with rfl | hv
    · exact hw
    · exact hinner v hv
  | cons g rest =>
    refine ⟨fun v hv => ?_, h.2⟩
    rcases List.mem_cons.1 hv with rfl | hv
    · exact hw
    · exact h.1 v hv

theorem outermost (this : ObjectId) (table : List ObjectId) :
    Tabled table [Frame.outermost this (WithEntry.ofTable table)] := ⟨[], rfl, fun _ hw => by cases hw⟩

end Frame.Tabled

/-! ## Lookup -/

namespace Machine

variable {h : Heap} {name : String} {table : List ObjectId} {m : Machine} {b : Binding} {f : Frame}
  {fs : List Frame} {transparent : Bool} {ws us : List WithEntry}

theorem lookupWiths_append (hws : lookupWiths h name ws = none) :
    lookupWiths h name (ws ++ us) = lookupWiths h name us := by
  induction ws with
  | nil => rfl
  | cons w rest ih =>
    unfold lookupWiths at hws
    rw [List.cons_append, lookupWiths]
    cases ho : h.findOwner w.object name with
    | some owner => rw [ho] at hws; cases hws
    | none =>
      rw [ho] at hws
      exact ih hws

theorem lookupWiths_ofTable : lookupWiths h name (WithEntry.ofTable table) = h.findLast name table := by
  unfold WithEntry.ofTable Heap.findLast
  induction table.reverse with
  | nil => rfl
  | cons object rest ih =>
    rw [List.map_cons, lookupWiths, List.findSome?_cons]
    cases h.findOwner object name with
    | some owner => rfl
    | none => exact ih

/-- What is found in the variables of a caller or beyond it. -/
def lookupBehind (h : Heap) (name : String) (transparent : Bool) (f : Frame) (rest : List Frame) :
    Option Binding :=
  if transparent && f.kind != .native && h.owns f.locals name then some ⟨⟨f.locals, name⟩, none⟩
  else lookupCallers h name (transparent && f.isTransparent) rest

theorem lookupCallers_cons :
    lookupCallers h name transparent (f :: fs)
      = (lookupWiths h name (f.withs.filter fun w => w.everywhere || transparent)).or
          (lookupBehind h name transparent f fs) := by
  rw [lookupCallers]
  cases lookupWiths h name (f.withs.filter fun w => w.everywhere || transparent) <;> rfl

theorem own_of_local (hf : f.Local) : f.own = f := by
  have hwiths : f.withs.filter (!·.everywhere) = f.withs := by
    rw [List.filter_eq_self]
    intro w hw
    rw [hf w hw]
    rfl
  unfold Frame.own
  rw [hwiths]

theorem own_of_table (hwiths : f.withs = ws ++ WithEntry.ofTable table)
    (hws : ∀ w ∈ ws, w.everywhere = false) : f.own.withs = ws := by
  have htable : (WithEntry.ofTable table).filter (!·.everywhere) = [] := by
    rw [List.filter_eq_nil_iff]
    intro w hw
    obtain ⟨object, -, rfl⟩ := List.mem_map.1 hw
    exact Bool.false_ne_true
  have hlocal : ws.filter (!·.everywhere) = ws := by
    rw [List.filter_eq_self]
    intro w hw
    rw [hws w hw]
    rfl
  show f.withs.filter (!·.everywhere) = ws
  rw [hwiths, List.filter_append, hlocal, htable, List.append_nil]

/-- What the callers of an activation find without the table comes before it. -/
theorem lookupCallers_tabled (hfs : Frame.Tabled table fs) (hb : h.findLast name table = some b)
    (hnone : lookupCallers h name transparent (fs.map Frame.own) = none) :
    lookupCallers h name transparent fs = some b := by
  induction fs generalizing transparent with
  | nil => exact hfs.elim
  | cons f rest ih =>
    rw [List.map_cons, lookupCallers_cons, Option.or_eq_none_iff] at hnone
    obtain ⟨hwiths, hbehind⟩ := hnone
    rw [lookupCallers_cons]
    cases rest with
    | nil =>
      obtain ⟨inner, happend, hinner⟩ := hfs
      have htable : (WithEntry.ofTable table).filter (fun w => w.everywhere || transparent)
          = WithEntry.ofTable table := by
        rw [List.filter_eq_self]
        intro w hw
        obtain ⟨object, -, rfl⟩ := List.mem_map.1 hw
        rfl
      rw [own_of_table happend hinner] at hwiths
      rw [happend, List.filter_append, htable, lookupWiths_append hwiths, lookupWiths_ofTable, hb]
      rfl
    | cons g rest =>
      obtain ⟨hlocal, hrest⟩ := hfs
      rw [own_of_local hlocal] at hwiths hbehind
      rw [hwiths, Option.none_or]
      unfold lookupBehind at hbehind ⊢
      split at hbehind
      · cases hbehind
      · rw [if_neg (by assumption)]
        exact ih hrest hbehind

/-- Code of a function sees nothing of the activations around it but the table. -/
theorem lookupCallers_opaque (fs : List Frame) : lookupCallers h name false (fs.map Frame.own) = none := by
  induction fs with
  | nil => rfl
  | cons f rest ih =>
    have hwiths : f.own.withs.filter (fun w => w.everywhere || false) = [] := by
      rw [List.filter_eq_nil_iff]
      intro w hw
      have hlocal := (List.mem_filter.1 hw).2
      simpa using hlocal
    rw [List.map_cons, lookupCallers_cons, hwiths]
    exact ih

end Machine

/-- Whether names are looked up in a table before the global object: in the outermost activation if no
`with` statement around has the name, and in any other one if neither that activation has it nor, for code
that sees through to its callers, one of these. -/
structure Machine.Heeds (table : List ObjectId) (m : Machine) : Prop where
  outermost : m.callers = [] → ∀ {name b}, lookupWiths m.heap name m.frame.own.withs = none →
    m.heap.findLast name table = some b → m.lookup name = some b
  function : m.callers ≠ [] → m.frame.isTransparent = false → ∀ {name b},
    lookupFrame m.heap name m.frame = none → m.heap.findLast name table = some b → m.lookup name = some b
  transparent : m.callers ≠ [] → m.frame.isTransparent = true → ∀ {name b},
    lookupFrame m.heap name m.frame = none → lookupCallers m.heap name true (m.callers.map Frame.own) = none →
    m.heap.findLast name table = some b → m.lookup name = some b

theorem Machine.lookup_callers {m : Machine} {name : String} {b : Binding}
    (hnone : lookupFrame m.heap name m.frame = none)
    (hb : lookupCallers m.heap name m.frame.isTransparent m.callers = some b) : m.lookup name = some b := by
  unfold lookup
  rw [hnone, hb]

theorem Frame.Tabled.heeds {table : List ObjectId} {m : Machine} (h : Tabled table m.frames) :
    m.Heeds table := by
  have hcallers : m.callers ≠ [] → Tabled table m.callers := by
    intro hne
    obtain ⟨f, rest, hcons⟩ := List.exists_cons_of_ne_nil hne
    unfold Machine.frames at h
    rw [hcons] at h ⊢
    exact h.2
  refine ⟨fun hnil name b hnone hb => ?_, fun hne hclosed name b hnone hb => ?_,
    fun hne htransparent name b hnone hbefore hb => ?_⟩
  · unfold Machine.frames at h
    rw [hnil] at h
    obtain ⟨inner, hwiths, hinner⟩ := h
    rw [Machine.own_of_table hwiths hinner] at hnone
    have hframe : Machine.lookupFrame m.heap name m.frame = some b := by
      unfold Machine.lookupFrame
      rw [hwiths, Machine.lookupWiths_append hnone, Machine.lookupWiths_ofTable, hb]
    unfold Machine.lookup
    rw [hframe]
  · refine Machine.lookup_callers hnone ?_
    rw [hclosed]
    exact Machine.lookupCallers_tabled (hcallers hne) hb (Machine.lookupCallers_opaque m.callers)
  · refine Machine.lookup_callers hnone ?_
    rw [htransparent]
    exact Machine.lookupCallers_tabled (hcallers hne) hb hbefore

/-! ## Runs -/

/-- The activations as an invariant: a part of a run leaves them as it found them, and has a table at the
end of the outermost one. -/
def Invariant.tabled (table : List ObjectId) : Invariant where
  Ghost := Frame × List Frame
  inv _ g m := (m.frame = g.1 ∧ m.callers = g.2) ∧ Frame.Tabled table (g.1 :: g.2)
  spent g m := (m.frame = g.1 ∧ m.callers = g.2) ∧ Frame.Tabled table (g.1 :: g.2)
  spend h := h
  withObject a {g m} h := by
    obtain ⟨⟨hframe, hcallers⟩, htabled⟩ := h
    have hleave : ∀ n : Machine, n.frame = g.1.putFirst ⟨a, false⟩ ∧ n.callers = g.2 →
        { n.frame with withs := n.frame.withs.tail } = g.1 ∧ n.callers = g.2 := by
      rintro n ⟨hn, hcallers⟩
      rw [hn]
      exact ⟨rfl, hcallers⟩
    exact ⟨(g.1.putFirst ⟨a, false⟩, g.2),
      ⟨⟨congrArg (Frame.putFirst ⟨a, false⟩) hframe, hcallers⟩, htabled.pushWith rfl⟩,
      fun {_ n} hn => ⟨hleave n hn.1, htabled⟩,
      fun {n} hn => ⟨hleave n hn.1, htabled⟩⟩
  frame {g m k} f hwiths _ h := by
    obtain ⟨⟨hframe, hcallers⟩, htabled⟩ := h
    have hpop : ∀ n : Machine, n.frame = f ∧ n.callers = g.1 :: g.2 →
        n.pop.frame = g.1 ∧ n.pop.callers = g.2 := by
      rintro n ⟨-, hn⟩
      unfold Machine.pop
      rw [hn]
      exact ⟨rfl, rfl⟩
    refine ⟨(f, g.1 :: g.2), trivial, ⟨⟨rfl, ?_⟩, htabled.push hwiths⟩,
      fun {_ n} hn => ⟨hpop n hn.1, htabled⟩, fun {n} hn => ⟨hpop n hn.1, htabled⟩⟩
    rw [← hframe, ← hcallers]
    rfl

/-- Names are looked up in a table as each task starts, as it ends, and as each built-in function
begins. -/
def Check.heeds (table : List ObjectId) : Check where
  task _ m o := m.Heeds table ∧ o.machine.Heeds table
  native m := m.Heeds table

namespace Invariant

variable {table : List ObjectId} {config : Config} {host : Host} {functions hooks may : Permit} {m : Machine}
  {g : (tabled table).Ghost}

theorem tabled_frames (h : (tabled table).inv .going g m) : Frame.Tabled table m.frames := by
  obtain ⟨⟨hframe, hcallers⟩, htabled⟩ := h
  unfold Machine.frames
  rwa [hframe, hcallers]

theorem tabled_steady : (tabled table).Steady := ⟨fun h => h, fun h => h⟩

theorem tabled_grants : (tabled table).Grants may where
  collect _ _ _ hm := hm

theorem tabled_hosts (hhost : host.Uses functions hooks) : (tabled table).Hosts config host where
  depth := trivial
  shows := trivial
  embeds := .of_uses hhost tabled_grants.toSimulation tabled_grants.toSimulation
    (fun _ _ => .inr trivial) fun _ _ => trivial

theorem tabled_ensures : (tabled table).Ensures (.heeds table) where
  task {t m o} _ hm hends := by
    obtain ⟨g, hm⟩ := hm
    have hend : (tabled table).inv .going g o.machine := (hends g hm).steady tabled_steady
    exact ⟨(tabled_frames hm).heeds, (tabled_frames hend).heeds⟩
  native hm := (tabled_frames hm).heeds

theorem tabled_topLevel : (tabled table).TopLevel g where
  collect hm _ _ _ _ := hm

end Invariant

namespace Script

/-- In the course of every run with a table, a name that the innermost activation does not find itself is
looked up in the table before the global object, the last object first. -/
theorem runProgram_heedsTable (config : Config) (host : Host) {functions hooks : Permit}
    (hhost : host.Uses functions hooks) (alarm : Outcome Value) (limit : Nat) (body : List Statement)
    (this : Option ObjectId) (table : List ObjectId) (m : Machine) :
    runProgram body this table (.checked (.heeds table) alarm config host limit) m
      = runProgram body this table (.upTo config host limit) m := by
  refine Invariant.runProgram_unalarmed (g := (Frame.outermost (this.getD Intrinsic.globalObject)
    (WithEntry.ofTable table), [])) (Invariant.tabled_hosts hhost) trivial
    (Simulation.contained_of_stray fun _ => trivial) Invariant.tabled_ensures Invariant.tabled_topLevel alarm
    limit (fun _ _ => trivial) fun e n hn => ?_
  cases hn
  exact ⟨⟨rfl, rfl⟩, Frame.Tabled.outermost _ table⟩

/-- A function that reads a name of the table, called from the top level. -/
theorem runProgram_heedsTable_reading :
    let host := Stock.host (Stock.scripted none [] [])
    let m := (Interpreter.fresh {} host [⟨"print", 1, "print"⟩]).machine
    let body : List Statement := [
      .mk 1 (.function (.mk (some "read") [] [.mk 1 (.returnValue (some (.identifier "join")))] 0)),
      .mk 2 (.expression (.call (.identifier "print") [.call (.identifier "read") []]))]
    host.Proper (fun _ => True) (fun _ => True) ∧
      runProgram body none [Intrinsic.array] (.checked (.heeds [Intrinsic.array]) (.exhausted m) {} host 100) m
        = runProgram body none [Intrinsic.array] (.upTo {} host 100) m :=
  have hhost := Stock.host_uses (Stock.scripted none [] [])
  ⟨hhost, runProgram_heedsTable {} _ hhost _ 100 _ none [Intrinsic.array] _⟩

end Script

end PageScript
