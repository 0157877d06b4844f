import PageScript.Proofs.Simulation.Rules

/-! # Variables, members and conversions on two sides

Errors, reads, conversions and writes keep every simulation.
-/

set_option autoImplicit false

namespace PageScript.Simulation

open Script

variable {S : Simulation} {α β : Type} {p q : Pairing} {V : Matching α} {W : Matching β}
  {js : List Jump} {a b : ObjectId} {v w v' w' : Value}

/-! ## Errors -/

theorem newError_follows (kind : ErrorKind) (message : String) :
    S.Follows js p Value.Matches (newError kind message) (newError kind message) := by
  have ho : Object.Matches p (.empty (some (Intrinsic.error kind)))
      (.empty (some (Intrinsic.error kind))) := .empty (.some (p.intrinsic_error kind))
  have hnew := (Object.ordinary_empty (some (Intrinsic.error kind))).payload_set (.error kind) nofun
  refine .bind (.alloc_plain ((ho.payload_set (.error kind)).put "message" (.string message))
    (hnew.put "message" rfl) ?_) fun q _ i j hij => .pure (.ref hij)
  exact Object.callable_of_makeup (Object.put_makeup ..)

theorem raise_inside {e : Engine} {m : Machine} (kind : ErrorKind) (message : String)
    (h : 0 < m.tryDepth) :
    (raise kind message : Script α) e m
      = (newError kind message >>= fun v => Script.abrupt (.thrown v)) e m := by
  show (if 0 < m.tryDepth then (newError kind message >>= fun v => Script.abrupt (.thrown v))
    else _ : Script α) e m = _
  rw [if_pos h]

theorem raise_outside {e : Engine} {m : Machine} (kind : ErrorKind) (message : String)
    (h : m.tryDepth = 0) :
    (raise kind message : Script α) e m
      = if !m.stopped then (Script.note kind message >>= fun _ => Script.abrupt .stopped) e m
        else .abrupt .stopped m := by
  show (if 0 < m.tryDepth then _
    else (Script.read fun m => !m.stopped) >>= fun c : Bool =>
      (if c then (Script.note kind message >>= fun _ => Script.abrupt .stopped)
        else Script.abrupt .stopped) : Script α) e m = _
  rw [if_neg (by omega)]
  show (if !m.stopped then _ else _ : Script α) e m = _
  split <;> rfl

/-- The text of the remark about an error in the log. -/
def errorRemark (kind : ErrorKind) (message : String) : String :=
  "runtime error: " ++ kind.name ++ ": " ++ message

theorem note_quiet {e : Engine} {m : Machine} (kind : ErrorKind) (message : String)
    (h : ¬(m.pending.isNone ∧ LogLevel.rank .debug ≤ e.config.verbosity.rank)) :
    Script.note kind message e m = .value () (m.note (kind, message)) := by
  show (if m.pending.isNone = true then
      Script.bind (Script.log .debug fun _ => _) fun _ => Script.modify (Machine.note (kind, message))
    else Script.modify (Machine.note (kind, message)) : Script Unit) e m = _
  split
  · rename_i hpending
    unfold Script.bind Script.log
    rw [if_neg fun hl => h ⟨hpending, hl⟩]
    rfl
  · rfl

theorem note_logged {e : Engine} {m : Machine} (kind : ErrorKind) (message : String)
    (h : m.pending.isNone ∧ LogLevel.rank .debug ≤ e.config.verbosity.rank) :
    Script.note kind message e m = .value () (Machine.note (kind, message)
      { m with events := .logged .debug (errorRemark kind message) :: m.events }) := by
  show (if m.pending.isNone = true then
      Script.bind (Script.log .debug fun _ => _) fun _ => Script.modify (Machine.note (kind, message))
    else Script.modify (Machine.note (kind, message)) : Script Unit) e m = _
  rw [if_pos h.1]
  unfold Script.bind Script.log
  rw [if_pos h.2]
  rfl

theorem raise_follows (kind : ErrorKind) (message : String) :
    S.Follows js p V (raise kind message) (raise kind message) := by
  refine ⟨fun e e' he g m m' hm => ?_⟩
  have hM := S.matched hm
  by_cases ht : 0 < m.tryDepth
  · rw [raise_inside kind message ht, raise_inside kind message (hM.tryDepth ▸ ht)]
    exact (Runs.bind (newError_follows kind message) fun q _ v w hv => .thrown hv).ends
      e e' he g m m' hm
  · have ht : m.tryDepth = 0 := Nat.eq_zero_of_not_pos ht
    rw [raise_outside kind message ht, raise_outside kind message (hM.tryDepth ▸ ht), ← hM.stopped]
    split
    · rename_i hc
      rw [Bool.not_eq_true'] at hc
      show S.Ends _ g p V (Script.bind (Script.note kind message) _ e m)
        (Script.bind (Script.note kind message) _ e' m')
      unfold Script.bind
      by_cases hl : m.pending.isNone ∧ LogLevel.rank .debug ≤ e.config.verbosity.rank
      · rw [note_logged kind message hl,
          note_logged kind message (he.verbosity ▸ hM.pending ▸ hl)]
        exact .abrupt (le_refl p) .stopped allows_stopped (S.note (kind, message) (S.see _ rfl hm) ht hc)
      · rw [note_quiet kind message hl,
          note_quiet kind message (he.verbosity ▸ hM.pending ▸ hl)]
        exact .abrupt (le_refl p) .stopped allows_stopped (S.note (kind, message) hm ht hc)
    · exact .abrupt (le_refl p) .stopped allows_stopped (S.halt hm)

theorem typeError_follows (message : String) :
    S.Follows js p V (typeError message) (typeError message) := raise_follows .type message

/-! ## Functions and prototypes -/

theorem callable?_follows (h : Value.Matches p v w) :
    S.Follows js p (.option .id) (callable? v) (callable? w) := by
  refine .read fun hm => ?_
  cases h with
  | object id receiver =>
    have ho := (S.matched hm).heap.get? id
    dsimp only
    generalize Heap.get? _ _ = o at ho
    generalize Heap.get? _ _ = o' at ho
    cases ho with
    | none => exact .none
    | some ho =>
      dsimp only
      rw [ho.isCallable_eq]
      split
      · exact .some id
      · exact .none
  | _ => exact .none

theorem isScriptFunction_follows (h : p.ids a b) :
    S.Follows js p .same (isScriptFunction a) (isScriptFunction b) := by
  refine .read fun hm => ?_
  have ho := Matching.option_bind (W := Callable.Matches) (f := Object.callable)
    (g := Object.callable) ((S.matched hm).heap.get? h) fun _ _ ho => ho.callable
  generalize Option.bind _ _ = c at ho
  generalize Option.bind _ _ = c' at ho
  cases ho with
  | none => rfl
  | some ho => cases ho <;> rfl

theorem prototypeOf_follows (h : p.ids a b) :
    S.Follows js p .id (prototypeOf a) (prototypeOf b) := by
  unfold prototypeOf
  refine .read_bind (V := .option fun p x y => Variable.Matches p x y ∧ x.name = "prototype")
    (fun hm => (S.matched hm).heap.own?_named h "prototype") fun x y hxy => ?_
  have hid := Matching.option_bind (W := .id) hxy fun _ _ hx => (hx.1.value fun _ => hx.2).id?
  generalize Option.bind _ _ = i at hid
  generalize Option.bind _ _ = j at hid
  cases hid with
  | some hid => exact .pure hid
  | none =>
    have ho : Object.Matches p (.empty (some Intrinsic.object)) (.empty (some Intrinsic.object)) :=
      .empty (.some p.intrinsic_object)
    refine .bind (.alloc_plain (ho.putHidden "constructor" (.ref h))
      ((Object.ordinary_empty _).putHidden "constructor" rfl) ?_) fun q hq i j hij => ?_
    · exact Object.callable_of_makeup (Object.putHidden_makeup ..)
    · exact .bind (.modifyObject (hq h) (.putHidden "prototype" (.inr rfl) (.ref hij) rfl)
        fun _ ho => ho.putHidden "prototype" rfl) fun r hr _ _ _ => .pure (hr hij)

/-! ## Objects for primitives -/

theorem wrap_follows {proto : ObjectId} (payload : Payload) (hp : ∀ length, payload ≠ .array length)
    (h : p.ids proto proto) :
    S.Follows js p .id (wrap proto payload) (wrap proto payload) := by
  have ho : Object.Matches p (.empty (some proto)) (.empty (some proto)) := .empty (.some h)
  have hnew := Object.ordinary_empty (some proto)
  unfold wrap
  cases payload with
  | string s =>
    refine .alloc_plain ((ho.putHidden "length" (.ofNat s.length)).payload_set _)
      ((hnew.putHidden "length" rfl).payload_set _ hp) ?_
    exact Object.callable_of_makeup (Object.putHidden_makeup ..)
  | _ => exact .alloc_plain (ho.payload_set _) (hnew.payload_set _ hp) rfl

theorem toObject_follows (h : Value.Matches p v w) :
    S.Follows js p .id (toObject v) (toObject w) := by
  unfold toObject
  cases h with
  | undefined => exact typeError_follows _
  | null => exact typeError_follows _
  | boolean b => exact wrap_follows _ nofun p.intrinsic_boolean
  | number n => exact wrap_follows _ nofun p.intrinsic_number
  | string s => exact wrap_follows _ nofun p.intrinsic_string
  | object id receiver => exact .pure id

/-! ## Reading -/

theorem readThrough_follows (hook : Hook) (h : p.ids a b) :
    S.Follows js p Value.Matches (readThrough hook a) (readThrough hook b) := by
  cases hook with
  | arrayLength =>
    refine .read fun hm => ?_
    rw [(S.matched hm).arrayLength_eq h]
    exact .ofNat _
  | host behavior => exact .perform (.readHook behavior h) fun _ _ h => nomatch h

theorem readVariable_follows {x y : Location} (h : Location.Matches p x y) :
    S.Follows js p Value.Matches (readVariable x) (readVariable y) := by
  unfold readVariable
  refine .read_bind (V := Location.Matches) (fun hm => (S.matched hm).heap.resolve h)
    fun x y hxy => ?_
  refine .read_bind (V := .option Variable.Matches) (fun hm => ?_) fun u u' hu => ?_
  · rw [← hxy.name]
    exact (S.matched hm).heap.own? hxy.object x.name
  cases hu with
  | none => exact .pure .undefined
  | @some u u' hu =>
    refine .read_bind (V := fun p k l => k = l ∧ ¬p.secret k)
      (fun hm => ⟨(S.matched hm).key, (S.matched hm).readable⟩) ?_
    rintro key _ ⟨rfl, hkey⟩
    rw [hu.key, hu.name]
    split
    · exact raise_follows _ _
    · rename_i hopen
      have hsecret : ¬p.secret u.key := by
        rw [hu.key]
        by_cases hzero : u'.key = 0
        · exact hzero ▸ p.unlocked
        · exact Decidable.not_not.1 (fun h => hopen ⟨hzero, h⟩) ▸ hkey
      have hreveals : u.link.isHook = false → p.Reveals u := fun h =>
        Pairing.reveals_of_open hsecret fun _ => h
      have hl := hu.link
      generalize u.link = l at hl hreveals
      generalize u'.link = l' at hl
      cases hl with
      | hook hook owner => exact readThrough_follows hook owner
      | _ => exact .pure (hu.value (hreveals rfl))

theorem bindReceiver_follows (hv : Value.Matches p v w) (h : p.ids a b) :
    S.Follows js p Value.Matches (bindReceiver v a) (bindReceiver w b) := by
  refine .bind (callable?_follows hv) fun q hq f f' hf => ?_
  cases hf with
  | none => exact .pure (hv.mono hq)
  | some hf => exact .pure (.object hf (.some (hq h)))

theorem readObjectMember_follows (h : p.ids a b) (name : String) :
    S.Follows js p Value.Matches (readObjectMember a name) (readObjectMember b name) := by
  unfold readObjectMember
  refine .read_bind (V := .option .id) (fun hm => (S.matched hm).heap.findOwner h name)
    fun x y hxy => ?_
  cases hxy with
  | some hxy =>
    exact .bind (readVariable_follows ⟨hxy, rfl⟩) fun q hq v w hv =>
      bindReceiver_follows hv (hq h)
  | none =>
    dsimp only
    split
    · refine .bind (isScriptFunction_follows h) fun q hq c c' hc => ?_
      cases hc
      split
      · exact .bind (prototypeOf_follows (hq h)) fun r _ i j hij => .pure (.ref hij)
      · exact .pure .undefined
    · exact .pure .undefined

theorem readPrimitiveMember_follows {proto : ObjectId} (hv : Value.Matches p v w)
    (h : p.ids proto proto) (name : String) :
    S.Follows js p Value.Matches (readPrimitiveMember v proto name)
      (readPrimitiveMember w proto name) := by
  unfold readPrimitiveMember
  refine .read_bind (V := .option .id) (fun hm => (S.matched hm).heap.findOwner h name)
    fun x y hxy => ?_
  cases hxy with
  | none => exact .pure .undefined
  | some hxy =>
    refine .bind (readVariable_follows ⟨hxy, rfl⟩) fun q hq u u' hu => ?_
    refine .bind (callable?_follows hu) fun r hr f f' hf => ?_
    rw [Matching.option_isSome hf]
    split
    · exact .bind (toObject_follows (hv.mono (hq.trans hr))) fun s hs i j hij =>
        bindReceiver_follows (hu.mono (hr.trans hs)) hij
    · exact .pure (hu.mono hr)

theorem readMember_follows (h : Value.Matches p v w) (name : String) :
    S.Follows js p Value.Matches (readMember v name) (readMember w name) := by
  cases h with
  | undefined => exact typeError_follows _
  | null => exact typeError_follows _
  | boolean b => exact readPrimitiveMember_follows (.boolean b) p.intrinsic_boolean name
  | number n => exact readPrimitiveMember_follows (.number n) p.intrinsic_number name
  | string s =>
    show S.Follows js p _ (if name == "length" then _ else _) (if name == "length" then _ else _)
    split
    · exact .pure (Value.Matches.ofNat _)
    · exact readPrimitiveMember_follows (.string s) p.intrinsic_string name
  | object id receiver => exact readObjectMember_follows id name

theorem invoke_follows {xs ys : List Value} (h : p.ids a b) (name : String)
    (hxs : Matching.list Value.Matches p xs ys) :
    S.Follows js p (.option Value.Matches) (invoke a name xs) (invoke b name ys) := by
  refine .bind (readMember_follows (.ref h) name) fun q hq u u' hu => ?_
  refine .bind (callable?_follows hu) fun r hr f f' hf => ?_
  have hqr := hq.trans hr
  cases hf with
  | none => exact .pure .none
  | some hf =>
    exact .bind (.perform (.call hf (.some (hqr h))
      (Matching.list_mono Value.Matches.mono hqr hxs) false) fun _ _ h => nomatch h)
      fun s _ u u' hu => .pure (.some hu)

end PageScript.Simulation
