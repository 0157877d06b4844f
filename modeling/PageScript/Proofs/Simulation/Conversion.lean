import PageScript.Embedding.Properties
import PageScript.Proofs.Continuations
import PageScript.Proofs.Reads
import PageScript.Proofs.Simulation.Variables

/-! # Conversions and writes on two sides -/

set_option autoImplicit false

namespace PageScript.Simulation

open Script

variable {S : Simulation} {α β : Type} {p q : Pairing} {V : Matching α} {W : Matching β}
  {js : List Jump} {a b : ObjectId} {v w v' w' : Value}

/-! ## Conversions -/

theorem textByValue_follows (h : p.ids a b) :
    S.Follows js p .same (textByValue a) (textByValue b) := by
  have hclass : ∀ q, p ≤ q → S.Follows js q .same
      (do
        let className ← Script.read fun m =>
          ((m.heap.get? a).map Object.className).getD "Object"
        return "[object " ++ className ++ "]")
      (do
        let className ← Script.read fun m =>
          ((m.heap.get? b).map Object.className).getD "Object"
        return "[object " ++ className ++ "]") := fun q hq => by
    refine .read_bind (V := .same) (fun hm => ?_) fun c c' hc =>
      .pure (congrArg (fun c => "[object " ++ c ++ "]") hc)
    have ho := Matching.option_same (p := q) (Matching.option_map (f := Object.className)
      (g := Object.className) ((S.matched hm).heap.get? (hq h)) fun _ _ ho => ho.className_eq)
    exact congrArg (Option.getD · "Object") ho
  refine .bind (invoke_follows h "valueOf" .nil) fun q hq u u' hu => ?_
  cases hu with
  | none => exact hclass q hq
  | some hu =>
    cases hu with
    | null => exact hclass q hq
    | object _ _ => exact hclass q hq
    | _ => exact .pure rfl

theorem objectToString_follows (h : p.ids a b) :
    S.Follows js p .same (objectToString a) (objectToString b) := by
  refine .bind (invoke_follows h "toString" .nil) fun q hq u u' hu => ?_
  have hvalueOf : S.Follows js q .same (textByValue a) (textByValue b) :=
    textByValue_follows (hq h)
  cases hu with
  | none => exact hvalueOf
  | some hu =>
    cases hu with
    | null => exact hvalueOf
    | object _ _ => exact hvalueOf
    | _ => exact .pure rfl

theorem toText_follows (h : Value.Matches p v w) :
    S.Follows js p .same (toText v) (toText w) := by
  unfold toText
  cases h with
  | object id receiver => exact objectToString_follows id
  | _ => exact .pure rfl

theorem toNumber_follows (h : Value.Matches p v w) :
    S.Follows js p .same (toNumber v) (toNumber w) := by
  unfold toNumber
  cases h with
  | object id receiver =>
    refine .bind (invoke_follows id "valueOf" .nil) fun q hq u u' hu => ?_
    have htext : S.Follows js q .same
        (do return Number.ofText (← objectToString _)) (do return Number.ofText (← objectToString _)) :=
      .bind (objectToString_follows (hq id)) fun r _ s s' hs => .pure (congrArg _ hs)
    cases hu with
    | none => exact htext
    | some hu =>
      cases hu with
      | number n => exact .pure rfl
      | _ => exact htext
  | _ => exact .pure rfl

theorem toPosition_follows (h : Value.Matches p v w) :
    S.Follows js p .same (toPosition v) (toPosition w) :=
  .bind (toNumber_follows h) fun _ _ _ _ hn => .pure (congrArg _ hn)

theorem primitiveByText_follows (h : p.ids a b) :
    S.Follows js p Value.Matches (primitiveByText a) (primitiveByText b) := by
  refine .bind (invoke_follows h "toString" .nil) fun q hq u u' hu => ?_
  cases hu with
  | none => exact typeError_follows _
  | some hu =>
    cases hu with
    | object _ _ => exact typeError_follows _
    | _ => exact .pure (by constructor)

theorem toPrimitive_follows (h : Value.Matches p v w) :
    S.Follows js p Value.Matches (toPrimitive v) (toPrimitive w) := by
  unfold toPrimitive
  cases h with
  | object id receiver =>
    refine .bind (invoke_follows id "valueOf" .nil) fun q hq u u' hu => ?_
    have htext : S.Follows js q Value.Matches (primitiveByText _) (primitiveByText _) :=
      primitiveByText_follows (hq id)
    cases hu with
    | none => exact htext
    | some hu =>
      cases hu with
      | object _ _ => exact htext
      | _ => exact .pure (by constructor)
  | _ => exact .pure (by constructor)

theorem display_runs {stop : Phase} (h : Value.Matches p v w) :
    S.Runs .going ⟨.halting, stop, js⟩ p .same (display v) (display w) :=
  have htext : S.Follows [] p .same (toText v) (toText w) := toText_follows h
  .orElse htext fun _ _ => h.text_eq

/-! ## Comparisons -/

theorem primitivesEqual_follows (h : Value.Matches p v w) (h' : Value.Matches p v' w') :
    S.Follows js p .same (primitivesEqual v v') (primitivesEqual w w') := by
  have hnumbers : S.Follows js p .same (do return (← toNumber v).equal (← toNumber v'))
      (do return (← toNumber w).equal (← toNumber w')) := by
    refine .bind (toNumber_follows h) fun q hq x x' hx => ?_
    refine .bind (toNumber_follows (h'.mono hq)) fun r _ y y' hy => .pure ?_
    exact congrArg₂ Number.equal hx hy
  have ht := h.text_eq
  have ht' := h'.text_eq
  have hn' := h'.isNothing_eq
  unfold primitivesEqual
  cases h <;> cases h' <;> first
    | exact .pure rfl
    | exact hnumbers

theorem looselyEqual_follows (h : Value.Matches p v w) (h' : Value.Matches p v' w') :
    S.Follows js p .same (looselyEqual v v') (looselyEqual w w') := by
  have hleft : S.Follows js p .same (do primitivesEqual (← toPrimitive v) v')
      (do primitivesEqual (← toPrimitive w) w') :=
    .bind (toPrimitive_follows h) fun q hq _ _ hu => primitivesEqual_follows hu (h'.mono hq)
  have hright : S.Follows js p .same (do primitivesEqual v (← toPrimitive v'))
      (do primitivesEqual w (← toPrimitive w')) :=
    .bind (toPrimitive_follows h') fun q hq _ _ hu => primitivesEqual_follows (h.mono hq) hu
  have hplain : S.Follows js p .same (primitivesEqual v v') (primitivesEqual w w') :=
    primitivesEqual_follows h h'
  have hids : ∀ {i j i' j' : ObjectId}, p.ids i j → p.ids i' j' →
      S.Follows js p .same (pure (i == i')) (pure (j == j')) := fun hi hj =>
    .pure (Pairing.beq_eq hi hj)
  unfold looselyEqual
  cases h with
  | object id receiver =>
    cases h' with
    | object id' receiver' => exact hids id id'
    | undefined => exact .pure rfl
    | null => exact .pure rfl
    | _ => exact hleft
  | undefined =>
    cases h' with
    | object id' receiver' => exact .pure rfl
    | _ => exact hplain
  | null =>
    cases h' with
    | object id' receiver' => exact .pure rfl
    | _ => exact hplain
  | _ =>
    cases h' with
    | object id' receiver' => exact hright
    | _ => exact hplain

theorem compare_follows (h : Value.Matches p v w) (h' : Value.Matches p v' w') :
    S.Follows js p .same (compare v v') (compare w w') := by
  refine .bind (toPrimitive_follows h) fun q hq x x' hx => ?_
  refine .bind (toPrimitive_follows (h'.mono hq)) fun r hr y y' hy => ?_
  rw [hx.isString_eq, hy.isString_eq]
  split
  · refine .bind (toText_follows (hx.mono hr)) fun s hs t t' ht => ?_
    refine .bind (toText_follows (hy.mono hs)) fun _ _ u u' hu => .pure ?_
    exact congrArg₂ (fun t u => some (textOrder t u)) ht hu
  · refine .bind (toNumber_follows (hx.mono hr)) fun s hs t t' ht => ?_
    refine .bind (toNumber_follows (hy.mono hs)) fun _ _ u u' hu => .pure ?_
    exact congrArg₂ Number.ordering? ht hu

theorem addend_follows (h : Value.Matches p v w) :
    S.Follows js p Value.Matches (addend v) (addend w) := by
  unfold addend
  cases h with
  | @object i j r s id receiver =>
    have htext : ∀ q, p ≤ q → S.Follows js q Value.Matches
        (do return .string (← objectToString i)) (do return .string (← objectToString j)) :=
      fun q hq => .bind (objectToString_follows (hq id)) fun _ _ s s' hs => by
        cases hs
        exact .pure (.string s)
    refine .bind (callable?_follows (.object id receiver)) fun q hq f f' hf => ?_
    cases hf with
    | some _ => exact htext q hq
    | none =>
      refine .bind (invoke_follows (hq id) "valueOf" .nil) fun r hr u u' hu => ?_
      cases hu with
      | none => exact htext r (hq.trans hr)
      | some hu =>
        cases hu with
        | number n => exact .pure (.number n)
        | _ => exact htext r (hq.trans hr)
  | _ => exact .pure (by constructor)

theorem typeName_follows (h : Value.Matches p v w) :
    S.Follows js p .same (typeName v) (typeName w) := by
  unfold typeName
  cases h with
  | object id receiver =>
    refine .bind (callable?_follows (.object id receiver)) fun q _ f f' hf => .pure ?_
    rw [Matching.option_isSome hf]
    rfl
  | _ => exact .pure rfl

/-! ## Writes -/

theorem writeLength_within {g : S.Ghost} (hlengths : S.lengths g a) (h : p.ids a b)
    (hv : Value.Matches p v w) :
    S.RunsAt g .going (.leaving js) p Value.Matches (writeLength a v) (writeLength b w) := by
  unfold writeLength
  refine .read_bind (V := .same) (fun hm => (S.matched hm).arrayLength_eq h) ?_
  rintro current _ rfl
  refine .bind ((toNumber_follows hv).within g) ?_
  rintro q hq n _ rfl
  cases lengthOfNumber? n with
  | none => exact (raise_follows _ _).within g
  | some length =>
    refine .bind (.modify fun hm => S.setLength current length hm (hq h) hlengths)
      fun _ _ _ _ _ => ?_
    exact Runs.within (.pure (.ofNat length)) g

/-- A write to the length of an array.  What is known of the array when its hook is found is still known
after the conversion of the value. -/
theorem writeLength_ends {e e' : Engine} (he : S.Agree e e') {g : S.Ghost} {m m' : Machine}
    (hm : S.inv .going g p m m') {c : ObjectId} {name : String}
    (hlink : (m.heap.own? c name).map Variable.link = some (.hook .arrayLength a)) (h : p.ids a b)
    (hv : Value.Matches p v w) :
    S.Ends (.leaving js) g p Value.Matches (writeLength a v e m) (writeLength b w e' m') := by
  obtain ⟨g', hlengths, henter, hleave, hspent⟩ := S.lengthHook hm hlink
  have hends : S.Ends (.leaving js) g' p Value.Matches (writeLength a v e m) (writeLength b w e' m') :=
    (writeLength_within hlengths h hv).ends e e' he m m' henter
  generalize writeLength a v e m = o at hends
  generalize writeLength b w e' m' = o' at hends
  cases hends with
  | value hq hv hn => exact .value hq hv (hleave hq hn)
  | abrupt hq hc hj hn => exact .abrupt hq hc hj (hleave hq hn)
  | exhausted h => exact .exhausted (hspent h)

theorem store_of_no_hook (h : Heap) (a : ObjectId) (name : String) (v : Value)
    (hlink : ∀ hook owner, (h.own? a name).map Variable.link ≠ some (.hook hook owner)) :
    h.modify a (·.updateOrPush name fun x => { x with value := v, hidden := false })
      = h.modify a (·.store name v) := by
  refine Heap.modify_congr fun o ho => ?_
  rw [Heap.own?, ho, Option.bind_some] at hlink
  unfold Object.store
  split
  · rename_i hook owner hfound
    exact absurd hfound (hlink hook owner)
  · rfl

/-- A write is passed to the hook of the variable, or else stored where no hook is. -/
theorem writeVariable_eq (e : Engine) (m : Machine) (place : Location) (v : Value) :
    writeVariable place v e m
      = match (m.heap.own? (m.heap.resolve place).object (m.heap.resolve place).name).map
            Variable.link with
        | some (.hook hook owner) => writeThrough hook owner v.unbound e m
        | _ => .value v.unbound { m with
            heap := m.heap.modify (m.heap.resolve place).object
              (Object.store (m.heap.resolve place).name v.unbound) } := by
  have hstore := store_of_no_hook m.heap (m.heap.resolve place).object (m.heap.resolve place).name
    v.unbound
  show (match (m.heap.own? (m.heap.resolve place).object (m.heap.resolve place).name).map
      Variable.link with
    | some (.hook hook owner) => writeThrough hook owner v.unbound
    | _ => do
      modifyObject (m.heap.resolve place).object (·.updateOrPush (m.heap.resolve place).name
        fun x => { x with value := v.unbound, hidden := false })
      return v.unbound : Script Value) e m = _
  generalize Option.map Variable.link _ = l at hstore ⊢
  rcases l with _ | (_ | ⟨hook, owner⟩ | ⟨object, name⟩)
  · exact congrArg (fun heap => Outcome.value v.unbound { m with heap := heap }) (hstore nofun)
  · exact congrArg (fun heap => Outcome.value v.unbound { m with heap := heap }) (hstore nofun)
  · rfl
  · exact congrArg (fun heap => Outcome.value v.unbound { m with heap := heap }) (hstore nofun)

theorem writeVariable_follows {x y : Location} (h : Location.Matches p x y)
    (hv : Value.Matches p v w) :
    S.Follows js p Value.Matches (writeVariable x v) (writeVariable y w) := by
  refine ⟨fun e e' he g m m' hm => ?_⟩
  obtain ⟨hab, hname⟩ := (S.matched hm).heap.resolve h
  rw [writeVariable_eq, writeVariable_eq, ← hname]
  have hlink := Matching.option_map (f := Variable.link) (g := Variable.link)
    ((S.matched hm).heap.own? hab (m.heap.resolve x).name) fun _ _ hx => hx.link
  have hstore : S.Ends (.leaving js) g p Value.Matches
      (.value v.unbound { m with
        heap := m.heap.modify (m.heap.resolve x).object
          (Object.store (m.heap.resolve x).name v.unbound) })
      (.value w.unbound { m' with
        heap := m'.heap.modify (m'.heap.resolve y).object
          (Object.store (m.heap.resolve x).name w.unbound) }) :=
    .value (le_refl p) hv.unbound (S.edit hm hab (.store _ hv) fun _ _ _ ho =>
      ho.store _ v.receiver?_unbound)
  cases hl : (m.heap.own? (m.heap.resolve x).object (m.heap.resolve x).name).map Variable.link with
  | none =>
    rw [hl] at hlink
    generalize Option.map Variable.link _ = l' at hlink
    cases hlink
    exact hstore
  | some l =>
    rw [hl] at hlink
    generalize Option.map Variable.link _ = l' at hlink
    cases hlink with
    | some hlink =>
      cases hlink with
      | hook hook owner =>
        cases hook with
        | arrayLength => exact writeLength_ends he hm hl owner hv.unbound
        | host behavior =>
          have hrun : S.Follows js p Value.Matches (perform (.writeHook behavior _ v.unbound))
              (perform (.writeHook behavior _ w.unbound)) :=
            .perform (.writeHook behavior owner hv.unbound) fun _ _ h => nomatch h
          exact hrun.ends e e' he g m m' hm
      | _ => exact hstore

/-! ## New members -/

section

variable {e e' : Engine} {g : S.Ghost} {m m' n : Machine}

theorem offer_ends (he : S.Agree e e') (hm : S.inv .going g p m m') (hook : AdditionHook) (h : p.ids a b)
    (name : String) (hnew : m.heap.owns a name = false) :
    S.Ends (.leaving js) g p .same (offer hook a name e m) (offer hook b name e' m') := by
  cases hook with
  | arrayIndex =>
    unfold offer
    cases ArrayIndex.ofName? name with
    | none => exact .value (le_refl p) rfl hm
    | some index =>
      show S.Ends _ g p .same ((if (!m.heap.isLive a) = true then _ else _ : Script Bool) e m)
        ((if (!m'.heap.isLive b) = true then _ else _ : Script Bool) e' m')
      rw [← (S.matched hm).heap.isLive_eq h]
      split
      · exact .value (le_refl p) rfl hm
      · refine .value (le_refl p) rfl (S.edit hm h (.addElement name index) fun _ o ho htidy => ?_)
        exact htidy.addElement (Heap.not_mem_names hnew ho) index
  | host behavior =>
    have hrun : S.Follows js p .same (offer (.host behavior) a name) (offer (.host behavior) b name) :=
      .bind (.perform (.offer behavior h name) fun _ _ h => nomatch h) fun _ _ _ _ hu =>
        .pure hu.isTruthy_eq
    exact hrun.ends e e' he g m m' hm

/-- An object that did not take up a name has no variable of it. -/
theorem offer_declined (he : e.Declines) {hook : AdditionHook} {name : String}
    (h : offer hook a name e m = .value false n) (hnew : m.heap.owns a name = false) :
    n.heap.owns a name = false := by
  cases hook with
  | arrayIndex =>
    unfold offer at h
    cases hname : ArrayIndex.ofName? name with
    | none =>
      rw [hname] at h
      cases h
      exact hnew
    | some index =>
      rw [hname] at h
      change (if (!m.heap.isLive a) = true then _ else _ : Script Bool) e m = _ at h
      split at h <;> cases h
      exact hnew
  | host behavior =>
    change Script.bind (perform (.offer behavior a name)) (fun v => pure v.isTruthy) e m = _ at h
    unfold Script.bind at h
    cases ho : e.perform (.offer behavior a name) m with
    | value v k =>
      simp only [perform, ho] at h
      obtain ⟨htruthy, rfl⟩ := Outcome.value.inj h
      exact he behavior a name m v _ ho htruthy hnew
    | abrupt c k => simp only [perform, ho] at h; cases h
    | exhausted k => simp only [perform, ho] at h; cases h

/-- Whether an object has a variable of a name, or takes the name up. -/
def takeUp (id : ObjectId) (name : String) : Script Bool := do
  if ← read (·.heap.owns id name) then pure true
  else
    match (← read (·.heap.get? id)).bind (·.additionHook) with
    | some hook => offer hook id name
    | none => pure false

/-- Writes a member that is there, or else adds it. -/
def store (id : ObjectId) (name : String) (v : Value) (present : Bool) : Script Value := do
  if present then
    let _ ← writeVariable ⟨id, name⟩ v
    return v
  else
    modifyObject id (·.push (.plain name v.unbound))
    return v

theorem takeUp_eq (e : Engine) (m : Machine) (id : ObjectId) (name : String) :
    takeUp id name e m
      = if m.heap.owns id name = true then .value true m
        else match (m.heap.get? id).bind (·.additionHook) with
          | some hook => offer hook id name e m
          | none => .value false m := by
  show (if m.heap.owns id name = true then _ else _ : Script Bool) e m = _
  split
  · rfl
  · show (match (m.heap.get? id).bind (·.additionHook) with
      | some hook => offer hook id name
      | none => pure false : Script Bool) e m = _
    cases (m.heap.get? id).bind (·.additionHook) <;> rfl

theorem writeMember_eq (id : ObjectId) (name : String) (v : Value) :
    writeMember id name v = (takeUp id name >>= store id name v) := by
  funext e m
  show (if m.heap.owns id name = true then _ else _ : Script Value) e m
    = Script.bind (takeUp id name) (store id name v) e m
  unfold Script.bind
  rw [takeUp_eq]
  split
  · rfl
  · show (match (m.heap.get? id).bind (·.additionHook) with
      | some hook => offer hook id name >>= store id name v
      | none => store id name v false : Script Value) e m = _
    cases (m.heap.get? id).bind (·.additionHook) <;> rfl

theorem takeUp_ends (he : S.Agree e e') (hm : S.inv .going g p m m') (h : p.ids a b) (name : String) :
    S.Ends (.leaving js) g p .same (takeUp a name e m) (takeUp b name e' m') := by
  have hhook : (m.heap.get? a).bind (·.additionHook) = (m'.heap.get? b).bind (·.additionHook) := by
    have ho := (S.matched hm).heap.get? h
    generalize m.heap.get? a = o at ho
    generalize m'.heap.get? b = o' at ho
    cases ho with
    | none => rfl
    | some ho => exact ho.additionHook
  rw [takeUp_eq, takeUp_eq, ← (S.matched hm).heap.owns_eq h, ← hhook]
  split
  · exact .value (le_refl p) rfl hm
  · rename_i hnew
    cases (m.heap.get? a).bind (·.additionHook) with
    | none => exact .value (le_refl p) rfl hm
    | some hook => exact offer_ends he hm hook h name (Bool.not_eq_true _ ▸ hnew)

theorem takeUp_declined (he : e.Declines) {name : String}
    (h : takeUp a name e m = .value false n) : n.heap.owns a name = false := by
  rw [takeUp_eq] at h
  split at h
  · cases h
  · rename_i hnew
    have hnew : m.heap.owns a name = false := Bool.not_eq_true _ ▸ hnew
    split at h
    · exact offer_declined he h hnew
    · cases h
      exact hnew

theorem store_ends (he : S.Agree e e') (hm : S.inv .going g p m m') (h : p.ids a b) (name : String)
    (hv : Value.Matches p v w) (present : Bool)
    (hnew : present = false → S.unique → m.heap.owns a name = false) :
    S.Ends (.leaving js) g p Value.Matches (store a name v present e m) (store b name w present e' m') := by
  cases present with
  | true =>
    have hwrite : S.Follows js p Value.Matches (store a name v true) (store b name w true) :=
      .bind (writeVariable_follows ⟨h, rfl⟩ hv) fun _ hr _ _ _ => .pure (hv.mono hr)
    exact hwrite.ends e e' he g m m' hm
  | false =>
    refine .value (le_refl p) hv (S.edit hm h (.pushMember name hv) fun _ o ho htidy => ?_)
    exact htidy.push (fun hunique => Heap.not_mem_names (hnew rfl hunique) ho) v.receiver?_unbound

end

theorem writeMember_follows (h : p.ids a b) (name : String) (hv : Value.Matches p v w) :
    S.Follows js p Value.Matches (writeMember a name v) (writeMember b name w) := by
  refine ⟨fun e e' he g m m' hm => ?_⟩
  rw [writeMember_eq, writeMember_eq]
  refine (takeUp_ends he hm h name).bind ?_
  rintro q present _ n n' hq rfl htake hn
  refine store_ends he hn (hq h) name (hv.mono hq) present fun hpresent hunique => ?_
  subst hpresent
  exact takeUp_declined (he.declines hunique) htake

theorem deleteMember_eq (e : Engine) (m : Machine) (id : ObjectId) (name : String) :
    deleteMember id name e m
      = match (m.heap.own? id name).map Variable.permanent with
        | some true => .value false m
        | some false => .value true { m with heap := m.heap.modify id (·.discard name) }
        | none => .value true m := by
  unfold deleteMember
  rw [bind_read]
  cases hx : m.heap.own? id name with
  | none => rfl
  | some x =>
    rw [Option.map_some]
    cases hpermanent : x.permanent with
    | true =>
      dsimp only
      rw [if_pos hpermanent]
      rfl
    | false =>
      have hremove : m.heap.modify id (·.remove name) = m.heap.modify id (·.discard name) := by
        refine Heap.modify_congr fun o ho => ?_
        rw [Heap.own?, ho, Option.bind_some] at hx
        rw [Object.discard, hx]
        dsimp only
        rw [if_neg (by rw [hpermanent]; exact Bool.false_ne_true)]
      dsimp only
      rw [if_neg (by rw [hpermanent]; exact Bool.false_ne_true), ← hremove]
      rfl

theorem deleteMember_follows (h : p.ids a b) (name : String) :
    S.Follows js p .same (deleteMember a name) (deleteMember b name) := by
  refine ⟨fun e e' he g m m' hm => ?_⟩
  have hpermanent := Matching.option_map (W := .same) (f := Variable.permanent)
    (g := Variable.permanent) ((S.matched hm).heap.own? h name) fun _ _ hx => hx.permanent
  rw [deleteMember_eq, deleteMember_eq, ← Matching.option_same hpermanent]
  rcases Option.map Variable.permanent _ with _ | _ | _
  · exact .value (le_refl p) rfl hm
  · exact .value (le_refl p) rfl (S.edit hm h (.discard name) fun _ _ _ ho => ho.discard name)
  · exact .value (le_refl p) rfl hm

/-! ## Names and arrays -/

/-- A name that is found nowhere is none of the global object. -/
theorem owns_of_lookup {m : Machine} {name : String} (h : m.lookup name = none) :
    m.heap.owns Intrinsic.globalObject name = false := by
  unfold Machine.lookup at h
  split at h
  · cases h
  split at h
  · cases h
  have hglobal : m.heap.findOwnerFrom name (9999 + 1) (some Intrinsic.globalObject) = none :=
    Option.map_eq_none_iff.1 h
  unfold Heap.findOwnerFrom at hglobal
  unfold Heap.owns
  cases ho : m.heap.get? Intrinsic.globalObject with
  | none => rfl
  | some o =>
    rw [ho] at hglobal
    dsimp only at hglobal ⊢
    split at hglobal
    · cases hglobal
    · rename_i hnew
      exact Bool.not_eq_true _ ▸ hnew

theorem binding_follows (name : String) :
    S.Follows js p Binding.Matches (binding name) (binding name) := by
  refine ⟨fun e e' he g m m' hm => ?_⟩
  have hlookup := (S.matched hm).lookup name
  unfold binding
  rw [bind_read, bind_read]
  cases hx : m.lookup name with
  | some x =>
    rw [hx] at hlookup
    obtain ⟨y, hy, hxy⟩ := Matching.option_some hlookup
    rw [hy]
    exact .value (le_refl p) hxy hm
  | none =>
    rw [hx] at hlookup
    rw [Matching.option_none hlookup]
    refine .value (le_refl p) ⟨⟨p.intrinsic_global, rfl⟩, .none⟩
      (S.edit hm p.intrinsic_global (.pushGlobal name) fun _ o ho htidy => ?_)
    exact htidy.push (fun _ => Heap.not_mem_names (owns_of_lookup hx) ho) rfl

theorem declare_follows (h : p.ids a b) (name : String) :
    S.Follows js p .same (declare a name) (declare b name) :=
  .modifyObject h (.declare name) fun _ ho => ho.declare name

theorem newArray_follows (length : Nat) : S.Follows js p .id (newArray length) (newArray length) :=
  .bind (.alloc_empty p.intrinsic_array) fun _ _ _ _ hi =>
    .bind (.modifyObject hi.1 (.makeArray length) fun _ ho => ho.makeArray _ length) fun _ hr _ _ _ =>
      .pure (hr hi.1)

/-- A new array whose elements are added at once.  At that time it only has its length. -/
theorem newArray_bind {f k : ObjectId → Object → Object} (length : Nat)
    (hf : ∀ {g q m m' i j}, p ≤ q → q.ids i j → S.made i → S.inv .going g q m m' →
      (S.tidies → m.heap.Neat S.unique i (f i)) →
      S.inv .going g q { m with heap := m.heap.modify i (f i) }
        { m' with heap := m'.heap.modify j (k j) })
    (htidy : ∀ (i : ObjectId) (o : Object), o.Tidy S.unique → o.names = ["length"] → (f i o).Tidy S.unique) :
    S.Follows js p .id
      (do
        let id ← newArray length
        modifyObject id (f id)
        return id)
      (do
        let id ← newArray length
        modifyObject id (k id)
        return id) := by
  refine ⟨fun e e' he g m m' hm => ?_⟩
  obtain ⟨q, hq, hid, hn⟩ := S.alloc hm (.empty (.some p.intrinsic_array))
    (Object.ordinary_empty (some Intrinsic.array)) nofun
  have harray := S.edit hn hid (.makeArray length) fun _ o _ ho => ho.makeArray _ length
  refine .value hq hid (hf hq hid (S.makes _ hm) harray fun _ o ho hot => htidy _ o hot ?_)
  obtain ⟨o', ho', rfl⟩ := Heap.of_get?_modify ho
  rw [Heap.get?_alloc_self ho']
  exact Object.names_newArray _ _ _

theorem arrayOf_follows {xs ys : List Value} (hxs : Matching.list Value.Matches p xs ys) :
    S.Follows js p .id (arrayOf xs) (arrayOf ys) := by
  unfold arrayOf
  rw [Matching.list_length hxs]
  refine newArray_bind (f := fun _ => Object.pushValues xs) (k := fun _ => Object.pushValues ys) _
    (fun hq hid _ hm hneat => S.edit hm hid
      (.pushValues (Matching.list_mono Value.Matches.mono hq hxs)) hneat) fun _ o ho hlength => ?_
  exact ho.pushValues xs hlength

end PageScript.Simulation
