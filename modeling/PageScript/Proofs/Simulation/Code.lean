import PageScript.Embedding.Host
import PageScript.Proofs.Simulation.Library

/-! # Code on two sides

Lists of statements, code given as text, and the built-in functions on functions.
-/

set_option autoImplicit false

namespace PageScript.Simulation

open Script

variable {S : Simulation} {α β : Type} {p q : Pairing} {V : Matching α} {W : Matching β}
  {js : List Jump} {a b : ObjectId} {v w v' w' : Value} {xs ys : List Value}

/-! ## Functions that may come into being -/

namespace Sound

variable {ts us : List FunctionTree}

theorem mono (h : S.Sound us) (hts : ts ⊆ us) : S.Sound ts :=
  ⟨h.text, fun t ht => h.trees t (hts ht)⟩

theorem left (h : S.Sound (ts ++ us)) : S.Sound ts := h.mono (List.subset_append_left ts us)

theorem right (h : S.Sound (ts ++ us)) : S.Sound us := h.mono (List.subset_append_right ts us)

end Sound

/-! ## Statements -/

theorem runStatements_runs (body : List Statement) (h : S.Sound (Statement.treesOf body)) :
    S.Follows (Statement.jumpsOf body) p Value.Matches (runStatements body) (runStatements body) := by
  refine .fold (Matching.list_member body) Matching.member_mono .undefined ?_
  rintro q hq last last' s _ hlast ⟨rfl, hs⟩
  have hrun := Runs.runInner (p := q) (h.mono (Statement.trees_subset_treesOf hs))
  refine .bind (hrun.widen (Statement.jumps_subset_jumpsOf hs)) fun r hr v v' hv => ?_
  split
  · exact .pure hv
  · exact .pure (hlast.mono hr)

theorem declareFunction_follows (tree : FunctionTree) (h : p.ids a b) (ht : S.Sound tree.trees) :
    S.Follows js p .same (declareFunction a tree) (declareFunction b tree) := by
  unfold declareFunction
  cases tree.name with
  | none => exact .pure rfl
  | some name =>
    refine .bind (newFunction_follows tree h ht) fun q hq i j hi => ?_
    refine .bind (declare_follows (hq h) name) fun r hr _ _ _ => ?_
    exact .modifyObject (hr (hq h)) (.bindFunction name (hr hi)) fun _ ho =>
      ho.update name (fun _ => rfl) fun _ _ => rfl

theorem hoist_follows (body : List Statement) (h : p.ids a b)
    (ht : S.Sound (Statement.treesOf body)) :
    S.Follows js p .same (hoist body a) (hoist body b) := by
  refine .bind (V := .same) (.fold (Matching.list_member _) Matching.member_mono rfl ?_)
    fun q hq _ _ _ => .fold (Matching.list_member _) Matching.member_mono rfl ?_
  · rintro q hq _ _ name _ - ⟨rfl, -⟩
    exact declare_follows (hq h) name
  · rintro r hr _ _ tree _ - ⟨rfl, hmem⟩
    exact declareFunction_follows tree (hr (hq h))
      (ht.mono (Statement.trees_of_mem_functionsOf body hmem))

/-- An activation, where there is room for one. -/
theorem within_runs {g : S.Ghost} {k : Nat} {f f' : Frame} {x x' : Script Value}
    (hroom : S.room g (k + 1)) (hf : Frame.Matches p f f') (hwiths : f.withs = [])
    (hx : ∀ g', S.room g' k → S.RunsAt g' .going (.leaving js) p Value.Matches x x') :
    S.RunsAt g .going (.leaving js) p Value.Matches (within f x) (within f' x') := by
  refine ⟨fun e e' he m m' hm => ?_⟩
  obtain ⟨g', hroom', henter, hleave, hspent⟩ := S.frame hf hwiths hroom hm
  exact (hx g' hroom').afterwards hleave hspent he henter

theorem headD_matches {fs fs' : List Frame} {f f' : Frame}
    (hfs : Matching.list Frame.Matches p fs fs') (hf : Frame.Matches p f f') :
    Frame.Matches p (fs.headD f) (fs'.headD f') := by
  cases hfs with
  | nil => exact hf
  | cons h _ => exact h

theorem runSource_runs {g : S.Ghost} (hroom : S.room g 1) (htext : S.text) (source : String)
    (hjs : ∀ body, Program.parse source = .ok body → Statement.jumpsOf body ⊆ js) :
    S.RunsAt g .going (.leaving js) p Value.Matches (runSource source) (runSource source) := by
  unfold runSource
  cases hparse : Program.parse source with
  | error e => exact (raise_follows _ _).within g
  | ok body =>
    have ht : S.Sound (Statement.treesOf body) := ⟨htext, S.parsed hparse⟩
    refine .read_bind (V := Frame.Matches)
      (fun hm => headD_matches (S.matched hm).callers (S.matched hm).frame) fun f f' hf => ?_
    refine within_runs hroom { hf with kind := rfl, withs := .nil, constructing := rfl } rfl fun g' _ => ?_
    refine Runs.within (.bind (hoist_follows body hf.locals ht) fun q _ _ _ _ => ?_) g'
    exact (runStatements_runs body ht).widen (hjs body hparse)

/-! ## Functions of the global object -/

/-- The jumps that a built-in function may end with: those of the text that `eval` is given. -/
def evalJumps (native : Native) (args : List Value) : List Jump :=
  match native, argument args 0 with
  | .global .eval, .string source =>
    match Program.parse source with
    | .ok body => Statement.jumpsOf body
    | .error _ => []
  | _, _ => []

theorem mapText_follows (f : List Char → List Char) (hv : Value.Matches p v w) :
    S.Follows js p Value.Matches (mapText f v) (mapText f w) := by
  refine .bind (toText_follows hv) ?_
  rintro _ _ s _ rfl
  exact .pure (.string _)

theorem applyGlobal_runs {g : S.Ghost} (hroom : S.room g 1) (htext : S.text) (f : GlobalFunction)
    (hxs : Matching.list Value.Matches p xs ys) (hjs : evalJumps (.global f) xs ⊆ js) :
    S.RunsAt g .going (.leaving js) p Value.Matches (applyGlobal f xs) (applyGlobal f ys) := by
  have hfirst := argument_matches hxs 0
  unfold applyGlobal
  cases f with
  | parseInt =>
    refine Runs.within (.bind (toText_follows hfirst) ?_) g
    rintro q hq text _ rfl
    refine .bind (toNumber_follows ((argument_matches hxs 1).mono hq)) ?_
    rintro _ _ radix _ rfl
    exact .pure (.number _)
  | parseFloat =>
    refine Runs.within (.bind (toText_follows hfirst) ?_) g
    rintro _ _ text _ rfl
    exact .pure (.number _)
  | isNaN =>
    refine Runs.within (.bind (toNumber_follows hfirst) ?_) g
    rintro _ _ n _ rfl
    exact .pure (.boolean _)
  | isFinite =>
    refine Runs.within (.bind (toNumber_follows hfirst) ?_) g
    rintro _ _ n _ rfl
    exact .pure (.boolean _)
  | eval =>
    unfold evalJumps at hjs
    generalize argument xs 0 = x at hfirst hjs
    generalize argument ys 0 = y at hfirst
    cases hfirst with
    | string source =>
      refine runSource_runs hroom htext source fun body hparse => ?_
      dsimp only at hjs
      rw [hparse] at hjs
      exact hjs
    | object id receiver => exact Runs.within (.pure (.object id receiver)) g
    | _ => exact Runs.within (.pure (by constructor)) g
  | escape => exact (mapText_follows _ hfirst).within g
  | unescape => exact (mapText_follows _ hfirst).within g

/-! ## Functions -/

theorem sound_of_soleFunction? {body : List Statement} {tree : FunctionTree}
    (h : S.Sound (Statement.treesOf body)) (htree : soleFunction? body = some tree) :
    S.Sound tree.trees := by
  unfold soleFunction? at htree
  split at htree
  · cases htree
    rw [Statement.treesOf, Statement.trees, StatementForm.trees] at h
    exact h.left
  · cases htree

theorem constructFunction_follows (htext : S.text) (hxs : Matching.list Value.Matches p xs ys) :
    S.Follows js p Value.Matches (constructFunction xs) (constructFunction ys) := by
  refine .bind (toTexts_follows hxs) fun q _ texts texts' ht => ?_
  rw [Matching.list_same ht]
  cases hparse : Program.parse (functionSource texts'.dropLast (texts'.getLast?.getD "")) with
  | error e => exact raise_follows _ _
  | ok body =>
    dsimp only
    cases htree : soleFunction? body with
    | none => exact raise_follows _ _
    | some tree =>
      exact .bind (newFunction_follows tree q.intrinsic_global
        (sound_of_soleFunction? ⟨htext, S.parsed hparse⟩ htree)) fun _ _ _ _ hi => .pure (.ref hi)

theorem toReceiver_follows (hv : Value.Matches p v w) :
    S.Follows js p (.option .id) (toReceiver v) (toReceiver w) := by
  unfold toReceiver
  rw [hv.isNothing_eq]
  split
  · exact .pure .none
  · exact .map (toObject_follows hv) fun _ _ _ _ hi => .some hi

theorem functionText_follows (hv : Value.Matches p v w) :
    S.Follows js p Value.Matches (functionText v) (functionText w) := by
  refine .read_bind (V := .option Callable.Matches) (fun hm => ?_) fun c c' hc => ?_
  · exact Matching.option_bind (Matching.option_bind hv.id? fun _ _ hi =>
      (S.matched hm).heap.get? hi) fun _ _ ho => ho.callable
  · cases hc with
    | none => exact typeError_follows _
    | some hc => cases hc <;> exact .pure (.string _)

theorem argumentsOf_follows (hv : Value.Matches p v w) :
    S.Follows js p (.list Value.Matches) (argumentsOf v) (argumentsOf w) := by
  have hid := hv.id?
  unfold argumentsOf
  rw [hv.isNothing_eq]
  split
  · exact .pure .nil
  · generalize v.id? = i at hid
    generalize w.id? = j at hid
    cases hid with
    | none => exact typeError_follows _
    | some hid => exact elementsAsArguments_follows hid

theorem applyFunction_follows (htext : S.text) (f : FunctionFunction) (hv : Value.Matches p v w)
    (hxs : Matching.list Value.Matches p xs ys) :
    S.Follows js p Value.Matches (applyFunction f v xs) (applyFunction f w ys) := by
  have hV := Matching.list_mono Value.Matches.mono
  unfold applyFunction
  cases f with
  | construct => exact constructFunction_follows htext hxs
  | toText => exact functionText_follows hv
  | call =>
    exact .bind (toReceiver_follows (argument_matches hxs 0)) fun q hq _ _ hi =>
      callValue_follows (hv.mono hq).unbound hi (Matching.list_drop (hV hq hxs) 1)
  | apply =>
    refine .bind (toReceiver_follows (argument_matches hxs 0)) fun q hq _ _ hi => ?_
    refine .bind (argumentsOf_follows ((argument_matches hxs 1).mono hq)) fun r hr _ _ hl => ?_
    exact callValue_follows (hv.mono (hq.trans hr)).unbound
      (Matching.option_mono Matching.id_mono hr hi) hl

/-! ## Built-in functions -/

/-- Whether functions and hooks of two embedding programs keep a simulation. -/
structure Embeds (S : Simulation) (host host' : Host) : Prop where
  native : ∀ {js p v w xs ys} (behavior : String), Value.Matches p v w →
    Matching.list Value.Matches p xs ys →
    S.Follows (.returned :: js) p Value.Matches (host.native behavior v xs)
      (host'.native behavior w ys)
  readHook : ∀ {js p a b} (behavior : String), p.ids a b →
    S.Follows js p Value.Matches (host.readHook behavior a) (host'.readHook behavior b)
  writeHook : ∀ {js p a b v w} (behavior : String), p.ids a b → Value.Matches p v w →
    S.Follows js p Value.Matches (host.writeHook behavior a v) (host'.writeHook behavior b w)
  offer : ∀ {js p a b} (behavior : String), p.ids a b → ∀ name : String,
    S.Follows js p .same (host.offer behavior a name) (host'.offer behavior b name)

theorem applyNative_runs {g : S.Ghost} (hroom : S.room g 1) {host host' : Host} (htext : S.text)
    (native : Native) (hhost : ∀ behavior, native = .host behavior → S.Embeds host host')
    (hv : Value.Matches p v w) (hxs : Matching.list Value.Matches p xs ys)
    (hjs : evalJumps native xs ⊆ js) :
    S.RunsAt g .going (.leaving (.returned :: js)) p Value.Matches (applyNative host.native native v xs)
      (applyNative host'.native native w ys) := by
  cases native with
  | object f => exact (applyObject_follows f hv hxs).within g
  | function f => exact (applyFunction_follows htext f hv hxs).within g
  | boolean f => exact (applyBoolean_follows f hv hxs).within g
  | number f => exact (applyNumber_follows f hv hxs).within g
  | global f => exact applyGlobal_runs hroom htext f hxs (List.Subset.trans hjs (List.subset_cons_self ..))
  | math f => exact (applyMath_follows f hxs).within g
  | string f => exact (applyString_follows f hv hxs).within g
  | array f => exact (applyArray_follows f hv hxs).within g
  | date f => exact (applyDate_follows f hv hxs).within g
  | error f => exact (applyError_follows f hv hxs).within g
  | host behavior => exact ((hhost behavior rfl).native behavior hv hxs).within g

end PageScript.Simulation
