import PageScript.Proofs.Collection.Exact
import PageScript.Proofs.Grounded
import PageScript.Proofs.Interface

/-! # Code that passes live objects on

An embedding program may remember objects for as long as it likes.  It is only to pass those on to the
interpreter that are live when it does.  Code that vouches for them is cut off where it would pass another
one, so that what comes of it up to there is all that can come of code that never does.
-/

set_option autoImplicit false

namespace PageScript

/-! ## Vouching -/

namespace Script

variable {α : Type} {x : Script α} {ids : List ObjectId} {e : Engine} {m : Machine}

/-- Goes on if some objects are live. -/
def vouching (ids : List ObjectId) (x : Script α) : Script α := fun e m =>
  if ids.all m.heap.isLive then x e m else .exhausted m

theorem vouching_of_live (h : ids.all m.heap.isLive = true) : vouching ids x e m = x e m := if_pos h

theorem vouching_of_dead (h : ids.all m.heap.isLive = false) : vouching ids x e m = .exhausted m :=
  if_neg (Bool.eq_false_iff.1 h)

end Script

/-- Code that uses the interface of interpreters with objects that are paired with themselves and with objects
that it vouches for.  It does not collect garbage, as a collection in the midst of a statement frees what the
statement still works with. -/
inductive Careful : (p : Pairing) → (α : Type) → Matching α → Script α → Prop where
  | uses {p : Pairing} {α : Type} {V : Matching α} {x : Script α} (code : Foreign .gentle p α V x x) :
      Careful p α V x
  | bind {p : Pairing} {α β : Type} {V : Matching α} {W : Matching β} {x : Script α} {f : α → Script β}
      (plain : ∀ q ≤ .identity, ∀ v w, V q v w → w = v) (first : Careful p α V x)
      (next : ∀ q, p ≤ q → ∀ v, V q v v → Careful q β W (f v)) : Careful p β W (x >>= f)
  | vouching {p : Pairing} {α : Type} {V : Matching α} {x : Script α} (ids : List ObjectId)
      (code : (∀ a ∈ ids, p.ids a a) → Careful p α V x) : Careful p α V (Script.vouching ids x)
  | register {p : Pairing} {object : ObjectId} (paired : p.ids object object) (name : String) (arity : Nat)
      (behavior : String) : Careful p ObjectId .id (Script.register object name arity behavior)

/-- Whether the functions and hooks of an embedding program use no objects but those that they are given, those
that they come to from there, and those that they vouch for. -/
structure Host.Careful (host : Host) : Prop where
  native : ∀ {p v xs} (behavior : String), Value.Matches p v v → Matching.list Value.Matches p xs xs →
    PageScript.Careful p Value Value.Matches (host.native behavior v xs)
  readHook : ∀ {p a} (behavior : String), p.ids a a →
    PageScript.Careful p Value Value.Matches (host.readHook behavior a)
  writeHook : ∀ {p a v} (behavior : String), p.ids a a → Value.Matches p v v →
    PageScript.Careful p Value Value.Matches (host.writeHook behavior a v)
  offer : ∀ {p a} (behavior : String), p.ids a a → ∀ name : String,
    PageScript.Careful p Bool .same (host.offer behavior a name)

namespace Machine

variable {m : Machine} {a : ObjectId}

theorem reaches_of_frame {f : Frame} (hf : f ∈ m.frames) (ha : a ∈ f.references) : m.Reaches a := by
  unfold Frame.references at ha
  simp only [List.cons_append, List.mem_cons, List.mem_append, List.mem_map, Option.mem_toList] at ha
  rcases ha with rfl | rfl | ((⟨w, hw, rfl⟩ | ha) | ha) | ha
  · exact .locals hf
  · exact .scope hf
  · exact .entry hf hw
  · exact .arguments hf ha
  · exact .callee hf ha
  · exact .this hf ha

theorem reaches_of_result (ha : a ∈ m.result.references) : m.Reaches a := by
  cases hv : m.result with
  | object id receiver =>
    rw [hv] at ha
    rcases List.mem_cons.1 ha with rfl | ha
    · exact .result hv
    · cases Option.mem_toList.1 ha
      exact .resultReceiver hv
  | _ => rw [hv] at ha; cases ha

/-- A machine can come to whatever is held from the roots of a collection. -/
theorem reaches_of_held (ha : m.heap.Held m.roots a) : m.Reaches a := by
  induction ha with
  | root hroot =>
    unfold roots at hroot
    rcases List.mem_append.1 hroot with hroot | hresult
    · rcases List.mem_append.1 hroot with hintrinsic | hframe
      · have hall : ∀ b ∈ Intrinsic.globalObject :: Intrinsic.prototypes, b.index ≤ 14 := by decide
        exact .intrinsic _ (hall _ hintrinsic)
      · obtain ⟨f, hf, ha⟩ := List.mem_flatMap.1 hframe
        exact reaches_of_frame hf ha
    · exact reaches_of_result hresult
  | pinned hs hpins => exact .pinned hs hpins
  | field _ ho hfield ih => exact .field ih ho hfield

end Machine

theorem Bracket.isLive {p : Pairing} {enter enter' leave leave' : Machine → Machine}
    (h : Bracket p enter enter' leave leave') (m : Machine) (a : ObjectId) :
    (enter m).heap.isLive a = m.heap.isLive a ∧ (leave m).heap.isLive a = m.heap.isLive a := by
  cases h with
  | pin id => exact ⟨Heap.isLive_modifySlot _, Heap.isLive_modifySlot _⟩
  | _ => exact ⟨rfl, rfl⟩

theorem Frame.Matches.outermost {p : Pairing} {this : ObjectId} {withs : List WithEntry}
    (hthis : p.ids this this) (hwiths : ∀ w ∈ withs, p.ids w.object w.object) :
    Frame.Matches p (Frame.outermost this withs) (Frame.outermost this withs) where
  kind := rfl
  locals := p.intrinsic_global
  scope := p.intrinsic_global
  withs := by
    show Matching.list WithEntry.Matches p withs withs
    induction withs with
    | nil => exact .nil
    | cons w rest ih =>
      exact .cons ⟨hwiths w (.head _), rfl⟩ (ih fun v hv => hwiths v (.tail _ hv))
  arguments := .none
  callee := .none
  this := .some hthis
  constructing := rfl

/-- A machine beside itself, with chains of prototypes that end, all of whose live objects are paired.  So they
lead to live objects only, whether or not the machine can come to them. -/
structure Tending (p : Pairing) (m m' : Machine) : Prop extends Grounding p m m' where
  living : ∀ a, m.heap.isLive a = true → p.ids a a

namespace Tending

variable {p : Pairing} {m m' n n' : Machine} {a b : ObjectId} {f f' : Object → Object}

theorem keep (h : Tending p m m') (hn : Grounding p n n') (hlive : ∀ a, n.heap.isLive a = m.heap.isLive a) :
    Tending p n n' := { hn with living := fun a ha => h.living a (hlive a ▸ ha) }

theorem modify (h : Tending p m m') (hab : p.ids a b)
    (hf : ∀ o o', Object.Matches p o o' → Object.Matches p (f o) (f' o')) (hr : (m.heap.modify a f).Rooted) :
    Tending p { m with heap := m.heap.modify a f } { m' with heap := m'.heap.modify b f' } :=
  h.keep (h.toGrounding.modify hab hf hr) fun _ => Heap.isLive_modifySlot _

theorem alloc (h : Tending p m m') {o o' : Object} (ho : Object.Matches p o o') :
    ∃ q, p ≤ q ∧ q.ids (m.heap.alloc o).1 (m'.heap.alloc o').1 ∧
      Tending q { m with heap := (m.heap.alloc o).2 } { m' with heap := (m'.heap.alloc o').2 } := by
  obtain ⟨q, hq, hnew, hn⟩ := h.toGrounding.alloc ho
  refine ⟨q, hq, hnew, { hn with living := fun a ha => ?_ }⟩
  rw [Heap.isLive, Heap.slot?_alloc h.renamed.left] at ha
  split at ha
  · rename_i hfresh
    have hsame := Pairing.eq_of_identity (hn.equal hnew)
    rw [← hfresh]
    exact hsame.symm ▸ hnew
  · exact hq (h.living a ha)

/-- A collection leaves the objects that the machine can come to, and no others. -/
theorem collected (h : Tending p m m') (es : List Event) :
    Tending (p.reached m m) { m with heap := m.collect.2.heap, events := es }
      { m with heap := m.collect.2.heap, events := es } := by
  refine { h.toGrounding.collected (.inr rfl) es with living := fun a ha => ?_ }
  -- a collection keeps nothing but what is held from its roots
  obtain ⟨hlive, hheld⟩ := Heap.isLive_collect_iff.1 ha
  have hreaches := Machine.reaches_of_held hheld
  exact ⟨h.living a hlive, hreaches, hreaches⟩

theorem relog (h : Tending p m m) (es : List Event) :
    Tending p { m with events := es } { m with events := es } :=
  h.keep ⟨{ h.renamed with matched := { h.renamed.matched with }, shown := rfl }, rfl, h.equal, h.rooted⟩
    fun _ => rfl

theorem withFrame (h : Tending p m m) {f : Frame} (hf : Frame.Matches p f f) :
    Tending p { m with frame := f } { m with frame := f } :=
  h.keep (h.toGrounding.step ({ · with frame := f })
    { h.renamed with matched := { h.renamed.matched with frame := hf } } h.rooted) fun _ => rfl

/-- A run starts from a machine as it is, with live objects as `this` and in front of the global object. -/
theorem started (h : Tending p m m) {this : Option ObjectId} {withs : List ObjectId}
    (hthis : ∀ a ∈ this, m.heap.isLive a = true) (hwiths : ∀ a ∈ withs, m.heap.isLive a = true) {e : Engine}
    (hn : Script.startRun this withs e m = .value () n) : Tending p n n := by
  have hframe : Frame.Matches p
      (Frame.outermost (this.getD Intrinsic.globalObject) (withs.reverse.map fun object => ⟨object, true⟩))
      (Frame.outermost (this.getD Intrinsic.globalObject) (withs.reverse.map fun object => ⟨object, true⟩)) := by
    refine .outermost ?_ fun w hw => ?_
    · cases this with
      | none => exact p.intrinsic_global
      | some a => exact h.living a (hthis a rfl)
    · obtain ⟨a, ha, rfl⟩ := List.mem_map.1 hw
      exact h.living a (hwiths a (List.mem_reverse.1 ha))
  cases hn
  have hmatched := h.renamed.matched
  refine h.keep ⟨{ h.renamed with matched := ?_, shown := rfl }, rfl, h.equal, h.rooted⟩ fun _ => rfl
  exact { hmatched with
    frame := hframe, callers := .nil, callDepth := rfl, tryDepth := rfl, pending := rfl, stopped := rfl,
    stepping := rfl, elements := rfl, answers := rfl, running := rfl, noted := rfl }

end Tending

/-! ## Runs -/

/-- Live objects that are all paired, and chains of prototypes that end, in a run beside itself. -/
def Simulation.tending : Simulation where
  Ghost := Unit
  inv _ _ := Tending
  spent _ m m' := m' = m ∧ m.heap.Rooted
  alike es es' := es' = es
  text := True
  sound _ := True
  stray _ := True
  shows _ := True
  inside _ _ := True
  room _ _ := True
  depth _ := True
  lengths _ _ := True
  made a := 14 < a.index
  tidies := False
  unique := False
  matched h := h.renamed.matched
  seen h := by rw [h.same]
  code _ _ _ _ _ := trivial
  parsed _ _ _ := trivial
  spend h := ⟨h.same, h.rooted⟩
  goOn h := h
  halt h := h
  settle h _ := h
  edit h hab he _ := h.modify hab (fun _ _ ho => he.matches hab ho) (h.rooted.modify _ he.makeup_eq)
  fill h hab hmade hf hneat :=
    h.keep (grounding.fill (g := ()) h.toGrounding hab hmade hf hneat) fun _ => Heap.isLive_modifySlot _
  makes o h := grounding.makes (g := ()) o h.toGrounding
  lengthHook h _ := ⟨(), trivial, h, fun _ hn => hn, fun hn => hn⟩
  setLength current length h hab _ :=
    h.modify hab (fun _ _ ho => ho.setLength current length)
      (h.rooted.modify _ fun _ => Object.setLength_makeup ..)
  alloc h ho _ _ := h.alloc ho
  see event he h := h.keep (@grounding.see .going () _ _ _ event he h.toGrounding) fun _ => rfl
  draw x h := h.keep (grounding.draw (g := ()) x h.toGrounding) fun _ => rfl
  note entry h ht hs := h.keep (grounding.note (g := ()) entry h.toGrounding ht hs) fun _ => rfl
  uncaught entry h := h.keep (grounding.uncaught (g := ()) entry h.toGrounding) fun _ => by split <;> rfl
  reveal h hp := h.keep (grounding.reveal (g := ()) h.toGrounding hp) fun _ => rfl
  report action hshows hs h :=
    h.keep (grounding.report (g := ()) action hshows hs h.toGrounding) fun _ => rfl
  suppress {_ _ _ _ kind message} hs h :=
    h.keep (@grounding.suppress () _ _ _ kind message hs h.toGrounding) fun _ => rfl
  count h hs := h.keep (grounding.count (g := ()) h.toGrounding hs) fun _ => rfl
  answerPoll a ha h := h.keep (grounding.answerPoll (g := ()) a ha h.toGrounding) fun _ => rfl
  obey {g p m m' a} h := by
    refine h.keep (grounding.obey (g := ()) h.toGrounding) fun b => ?_
    unfold Machine.obey
    split <;> rfl
  quit h := h.keep (grounding.quit (g := ()) h.toGrounding) fun _ => rfl
  statement s h := by
    obtain ⟨_, -, henter, hleave, hspent⟩ := grounding.statement (g := ()) s h.toGrounding
    exact ⟨(), trivial, h.keep henter fun _ => rfl,
      fun hq hn => hn.keep (hleave hq hn.toGrounding) fun _ => rfl, hspent⟩
  bracket {g p m m' enter enter' leave leave'} hb h := by
    obtain ⟨_, henter, hleave, hspent⟩ := grounding.bracket (g := ()) hb h.toGrounding
    exact ⟨(), h.keep henter fun a => (hb.isLive m a).1,
      fun {ph q n n'} hq hn => hn.keep (@hleave ph q n n' hq hn.toGrounding) fun a => (hb.isLive n a).2, hspent⟩
  call hd hl h := by
    obtain ⟨_, -, henter, hleave, hspent⟩ := grounding.call (g := ()) hd hl h.toGrounding
    exact ⟨(), trivial, h.keep henter fun _ => rfl,
      fun {ph q n n'} hq hn => hn.keep (@hleave ph q n n' hq hn.toGrounding) fun _ => rfl, hspent⟩
  frame {g p m m' f f' k} hf hwiths hroom h := by
    obtain ⟨_, -, henter, hleave, hspent⟩ := grounding.frame (g := ()) (k := k) hf hwiths hroom h.toGrounding
    exact ⟨(), trivial, h.keep henter fun _ => rfl,
      fun {ph q n n'} hq hn => hn.keep (@hleave ph q n n' hq hn.toGrounding) fun a => by rw [n.pop_heap], hspent⟩

namespace Simulation

variable {config : Config} {host : Host} {e e' : Engine} {p : Pairing} {m m' : Machine} {α : Type}
  {V : Matching α} {js : List Jump} {g : tending.Ghost}

theorem tending_diagonal : tending.Diagonal where
  machine h := h.same
  pairing h := h.equal
  spent h := h.1

theorem tending_grants : tending.Grants .gentle where
  untidied := not_false
  keep hmay _ _ _ _ _ _ h hab on := by
    refine h.keep (grounding_grants.keep hmay (g := ()) h.toGrounding hab on) fun a => ?_
    cases on <;> exact Heap.isLive_modifySlot _
  setKey hmay _ _ _ _ key h := h.keep (grounding_grants.setKey hmay (g := ()) key h.toGrounding) fun _ => rfl
  protect hmay _ _ _ _ _ _ name key h hab :=
    h.keep (grounding_grants.protect hmay (g := ()) name key h.toGrounding hab) fun _ =>
      Heap.isLive_modifySlot _
  settle _ _ _ _ _ h := h
  hook hmay _ _ _ _ _ _ _ _ h hab hf :=
    h.keep (grounding_grants.hook hmay (g := ()) h.toGrounding hab hf) fun _ => Heap.isLive_modifySlot _
  fill h := h.elim
  collect h := h.elim

/-- Code that vouches for the objects that it passes on finds them paired. -/
theorem careful_follows {x : Script α} (hx : Careful p α V x) : tending.Follows js p V x x := by
  induction hx with
  | uses code => exact foreign_follows tending_grants (fun _ _ => .inl trivial) code
  | bind plain _ _ first next =>
    refine ⟨fun e e' he g m m' hm => (first.ends e e' he g m m' hm).bind fun q v w n n' hq hv _ hn => ?_⟩
    cases plain q (Tending.toGrounding hn).equal v w hv
    exact (next q hq v hv).ends e e' he g n n' hn
  | @vouching p α V x ids _ code =>
    refine ⟨fun e e' he g m m' hm => ?_⟩
    cases tending_diagonal.machine hm
    cases hlive : ids.all m.heap.isLive with
    | true =>
      rw [Script.vouching_of_live hlive, Script.vouching_of_live hlive]
      exact (code fun a ha => Tending.living hm a (List.all_eq_true.1 hlive a ha)).ends e e' he g m m hm
    | false =>
      rw [Script.vouching_of_dead hlive, Script.vouching_of_dead hlive]
      exact .exhausted ⟨rfl, (Tending.toGrounding hm).rooted⟩
  | register paired name arity behavior =>
    refine .bind (.alloc (.foreign name arity behavior) (Object.ordinary_foreign name arity behavior) nofun)
      fun q hq a b hab => ?_
    refine .bind (V := .same) (.modify fun hm => ?_) fun r hr _ _ _ => .pure (hr hab)
    exact Tending.modify hm (hq paired) (fun _ _ ho => ho.putHidden name (.ref hab))
      ((Tending.toGrounding hm).rooted.modify _ fun _ => Object.putHidden_makeup ..)

/-- Only equals are paired on a machine beside itself. -/
theorem follows_of_equal {x x' : Script α} (h : p ≤ .identity → tending.Follows js p V x x') :
    tending.Follows js p V x x' :=
  ⟨fun e e' he g m m' hm => (h (tending_diagonal.pairing hm)).ends e e' he g m m' hm⟩

theorem tending_embeds (hhost : host.Careful) : tending.Embeds host host where
  native behavior hv hxs := by
    refine follows_of_equal fun hp => ?_
    cases (hv.mono hp).eq
    cases Matching.list_eq (fun _ _ h => Value.Matches.eq (h.mono hp)) hxs
    exact careful_follows (hhost.native behavior hv hxs)
  readHook behavior hab := by
    refine follows_of_equal fun hp => ?_
    cases Pairing.eq_of_identity (hp hab)
    exact careful_follows (hhost.readHook behavior hab)
  writeHook behavior hab hv := by
    refine follows_of_equal fun hp => ?_
    cases Pairing.eq_of_identity (hp hab)
    cases (hv.mono hp).eq
    exact careful_follows (hhost.writeHook behavior hab hv)
  offer behavior hab name := by
    refine follows_of_equal fun hp => ?_
    cases Pairing.eq_of_identity (hp hab)
    exact careful_follows (hhost.offer behavior hab name)

theorem tending_hosts (hhost : host.Careful) : tending.Hosts config config host host where
  maxDepth := rfl
  depth := trivial
  showErrors := rfl
  shows := trivial
  gmtOffset := rfl
  verbosity := rfl
  epoch := rfl
  feedback h n := by rw [h]
  onError h r := by rw [h]
  onStep h d := by rw [h]
  declines h := h.elim
  embeds := tending_embeds hhost

theorem tending_programs (he : tending.Agree e e') (hconfig : e.config = e'.config) :
    tending.Programs g e e' where
  agree := he
  result h hv := h.keep (h.toGrounding.withResult hv) fun _ => rfl
  collect {p m m'} h := by
    obtain rfl := tending_diagonal.machine h
    obtain ⟨hp, es, hrun, -, hheap⟩ := collectIfDue_or e m'
    have hrun' := (collectIfDue_congr hconfig m').symm.trans hrun
    rcases hheap with rfl | rfl
    · exact ⟨p, _, _, hrun, hrun', Tending.relog h es, rfl, rfl⟩
    · exact ⟨p.reached m' m', _, _, hrun, hrun', h.collected es, rfl, rfl⟩
  outermost h := by
    obtain rfl := tending_diagonal.machine h
    exact Tending.withFrame h (.outermost (Pairing.intrinsic_global _) nofun)

end Simulation

end PageScript
