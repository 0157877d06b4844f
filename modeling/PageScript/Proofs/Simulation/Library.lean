import PageScript.Library.Dispatch
import PageScript.Proofs.Simulation.Arrays

/-! # Built-in functions on two sides

Only `eval` runs code of its own, so only it can end with a jump: one of the text that it is given.
-/

set_option autoImplicit false

namespace PageScript.Simulation

open Script

variable {S : Simulation} {α β : Type} {p q : Pairing} {V : Matching α} {W : Matching β}
  {js : List Jump} {a b : ObjectId} {v w v' w' : Value} {xs ys : List Value}

/-! ## Objects and booleans -/

theorem constructObject_follows (hv : Value.Matches p v w)
    (hxs : Matching.list Value.Matches p xs ys) :
    S.Follows js p Value.Matches (constructObject v xs) (constructObject w ys) := by
  have hnew : S.Follows js p Value.Matches
      (do
        if ← isConstructing then return v
        return .ref (← newObject))
      (do
        if ← isConstructing then return w
        return .ref (← newObject)) := by
    refine .bind isConstructing_follows ?_
    rintro q hq c _ rfl
    split
    · exact .pure (hv.mono hq)
    · exact .bind newObject_follows fun _ _ _ _ hi => .pure (.ref hi)
  have hobject : ∀ {u u'}, Value.Matches p u u' → S.Follows js p Value.Matches
      (do return .ref (← toObject u)) (do return .ref (← toObject u')) := fun hu =>
    .bind (toObject_follows hu) fun _ _ _ _ hi => .pure (.ref hi)
  unfold constructObject
  cases hxs with
  | nil => exact hnew
  | cons hx _ =>
    cases hx with
    | undefined => exact hnew
    | null => exact hnew
    | object id receiver => exact hobject (.object id receiver)
    | _ => exact hobject (by constructor)

theorem applyObject_follows (f : ObjectFunction) (hv : Value.Matches p v w)
    (hxs : Matching.list Value.Matches p xs ys) :
    S.Follows js p Value.Matches (applyObject f v xs) (applyObject f w ys) := by
  unfold applyObject
  cases f with
  | construct => exact constructObject_follows hv hxs
  | toText =>
    refine .read_bind (V := .same) (fun hm => ?_) ?_
    · have ho := Matching.option_same (p := p) (Matching.option_map (f := Object.className)
        (g := Object.className) (Matching.option_bind hv.id? fun _ _ hi =>
          (S.matched hm).heap.get? hi) fun _ _ ho => ho.className_eq)
      exact congrArg (Option.getD · "Object") ho
    · rintro c _ rfl
      exact .pure (.string _)
  | toLocaleText =>
    refine .bind (toText_follows hv) ?_
    rintro _ _ s _ rfl
    exact .pure (.string s)
  | valueOf => exact .pure hv
  | hasOwnProperty =>
    refine .bind (toText_follows (argument_matches hxs 0)) ?_
    rintro q hq name _ rfl
    refine .read fun hm => ?_
    have ho := Matching.option_same (p := q) (Matching.option_map
      (Matching.option_mono Matching.id_mono hq hv.id?)
      fun _ _ hi => (S.matched hm).heap.owns_eq hi name)
    rw [ho]
    exact .boolean _
  | isPrototypeOf =>
    refine .read fun hm => ?_
    have hi := hv.id?
    have hj := (argument_matches hxs 0).id?
    generalize v.id? = i at hi
    generalize w.id? = i' at hi
    generalize (argument xs 0).id? = j at hj
    generalize (argument ys 0).id? = j' at hj
    cases hi with
    | none => exact .boolean _
    | some hi =>
      cases hj with
      | none => exact .boolean _
      | some hj =>
        dsimp only
        rw [(S.matched hm).heap.inheritsFrom_eq hj hi]
        exact .boolean _
  | isEnumerable =>
    refine .bind (toText_follows (argument_matches hxs 0)) ?_
    rintro q hq name _ rfl
    refine .read fun hm => ?_
    have ho := Matching.option_bind (W := Variable.Matches)
      (Matching.option_mono Matching.id_mono hq hv.id?)
      fun _ _ hi => (S.matched hm).heap.own? hi name
    generalize Option.bind _ _ = x at ho
    generalize Option.bind _ _ = y at ho
    cases ho with
    | none => exact .boolean _
    | some ho =>
      dsimp only
      rw [ho.hidden]
      exact .boolean _

theorem thisBoolean_follows (hv : Value.Matches p v w) :
    S.Follows js p .same (thisBoolean v) (thisBoolean w) := by
  unfold thisBoolean
  refine .bind (payload?_follows hv) ?_
  rintro q hq payload _ rfl
  cases hv with
  | boolean b => exact .pure rfl
  | _ =>
    cases payload with
    | none => exact typeError_follows _
    | some payload =>
      cases payload with
      | boolean b => exact .pure rfl
      | _ => exact typeError_follows _

theorem applyBoolean_follows (f : BooleanFunction) (hv : Value.Matches p v w)
    (hxs : Matching.list Value.Matches p xs ys) :
    S.Follows js p Value.Matches (applyBoolean f v xs) (applyBoolean f w ys) := by
  unfold applyBoolean
  cases f with
  | construct =>
    refine .bind isConstructing_follows ?_
    rintro q hq c _ rfl
    rw [(argument_matches hxs 0).isTruthy_eq]
    have hid := hv.id?
    generalize v.id? = i at hid
    generalize w.id? = j at hid
    cases c with
    | false => cases hid <;> exact .pure (.boolean _)
    | true =>
      cases hid with
      | none => exact .pure (.boolean _)
      | some hid =>
        exact .bind (setPayload_follows (hq hid) _ nofun) fun _ hr _ _ _ => .pure (hv.mono (hq.trans hr))
  | toText =>
    refine .bind (thisBoolean_follows hv) ?_
    rintro _ _ b _ rfl
    exact .pure (.string _)
  | valueOf =>
    refine .bind (thisBoolean_follows hv) ?_
    rintro _ _ b _ rfl
    exact .pure (.boolean b)

/-! ## Numbers and mathematics -/

theorem thisNumber_follows (hv : Value.Matches p v w) :
    S.Follows js p .same (thisNumber v) (thisNumber w) := by
  unfold thisNumber
  refine .bind (payload?_follows hv) ?_
  rintro q hq payload _ rfl
  cases hv with
  | number n => exact .pure rfl
  | _ =>
    cases payload with
    | none => exact typeError_follows _
    | some payload =>
      cases payload with
      | number n => exact .pure rfl
      | _ => exact typeError_follows _

theorem numberIn_follows (n : Number) (radix : Position) :
    S.Follows js p Value.Matches (numberIn n radix) (numberIn n radix) := by
  unfold numberIn
  split
  · exact .pure (.string _)
  · split
    · split <;> exact .pure (.string _)
    · exact raise_follows _ _
  · exact raise_follows _ _

theorem numberText_follows (hv : Value.Matches p v w) (hxs : Matching.list Value.Matches p xs ys) :
    S.Follows js p Value.Matches (numberText v xs) (numberText w ys) := by
  unfold numberText
  refine .bind (thisNumber_follows hv) ?_
  rintro q hq n _ rfl
  have hi := Matching.option_mono Value.Matches.mono hq (given?_matches hxs 0)
  have hwrite : ∀ r, q ≤ r → ∀ x y : Position, x = y →
      S.Follows js r Value.Matches (numberIn n x) (numberIn n y) := by
    rintro r _ x _ rfl
    exact numberIn_follows n x
  generalize given? xs 0 = x at hi
  generalize given? ys 0 = y at hi
  cases hi with
  | none => exact .bind (.pure rfl) hwrite
  | some hi => exact .bind (toPosition_follows hi) hwrite

theorem storeNumber_follows (hv : Value.Matches p v w) (n : Number) :
    S.Follows js p Value.Matches (storeNumber v n) (storeNumber w n) := by
  refine .bind isConstructing_follows ?_
  rintro q hq c _ rfl
  have hv := hv.mono hq
  have hid := hv.id?
  generalize v.id? = i at hid
  generalize w.id? = j at hid
  cases c with
  | false => cases hid <;> exact .pure (.number n)
  | true =>
    cases hid with
    | none => exact .pure (.number n)
    | some hid =>
      exact .bind (setPayload_follows hid _ nofun) fun _ hr _ _ _ => .pure (hv.mono hr)

theorem applyNumber_follows (f : NumberFunction) (hv : Value.Matches p v w)
    (hxs : Matching.list Value.Matches p xs ys) :
    S.Follows js p Value.Matches (applyNumber f v xs) (applyNumber f w ys) := by
  unfold applyNumber
  cases f with
  | construct =>
    have hmake : ∀ q, p ≤ q → ∀ n m : Number, n = m →
        S.Follows js q Value.Matches (storeNumber v n) (storeNumber w m) := by
      rintro q hq n _ rfl
      exact storeNumber_follows (hv.mono hq) n
    cases hxs with
    | nil => exact .bind (.pure rfl) hmake
    | cons hx _ => exact .bind (toNumber_follows hx) hmake
  | toText => exact numberText_follows hv hxs
  | toLocaleText =>
    refine .bind (thisNumber_follows hv) ?_
    rintro _ _ n _ rfl
    exact .pure (.string _)
  | valueOf =>
    refine .bind (thisNumber_follows hv) ?_
    rintro _ _ n _ rfl
    exact .pure (.number n)

theorem extreme_follows (better : Number → Number → Bool) (best : Number)
    (hxs : Matching.list Value.Matches p xs ys) :
    S.Follows js p Value.Matches (extreme better best xs) (extreme better best ys) := by
  induction xs generalizing p ys best with
  | nil =>
    cases hxs
    exact .pure (.number best)
  | cons x xs ih =>
    obtain ⟨y, ys, rfl, hx, hxs⟩ := Matching.list_cons hxs
    unfold extreme
    refine .bind (toNumber_follows hx) ?_
    rintro q hq n _ rfl
    split
    · exact .pure (.number .nan)
    · exact ih _ (Matching.list_mono Value.Matches.mono hq hxs)

theorem applyMath_follows (f : MathFunction) (hxs : Matching.list Value.Matches p xs ys) :
    S.Follows js p Value.Matches (applyMath f xs) (applyMath f ys) := by
  have hpair : ∀ g : Number → Number → Number, S.Follows js p Value.Matches
      (do
        let y ← toNumber (argument xs 0)
        let x ← toNumber (argument xs 1)
        return .number (g y x))
      (do
        let y ← toNumber (argument ys 0)
        let x ← toNumber (argument ys 1)
        return .number (g y x)) := fun g => by
    refine .bind (toNumber_follows (argument_matches hxs 0)) ?_
    rintro q hq y _ rfl
    refine .bind (toNumber_follows ((argument_matches hxs 1).mono hq)) ?_
    rintro _ _ x _ rfl
    exact .pure (.number _)
  unfold applyMath
  cases f with
  | real f =>
    refine .bind (toNumber_follows (argument_matches hxs 0)) ?_
    rintro _ _ x _ rfl
    exact .pure (.number _)
  | atan2 => exact hpair fun y x => .ofFloat (Float.atan2 y.toFloat x.toFloat)
  | pow => exact hpair power
  | max => exact extreme_follows _ _ hxs
  | min => exact extreme_follows _ _ hxs
  | random =>
    refine .bind (V := .same) (.modify fun {g m m'} hm => ?_) fun _ _ _ _ _ => .read fun hm => ?_
    · rw [(S.matched hm).random]
      exact S.draw _ hm
    · rw [(S.matched hm).random]
      exact .number _

/-! ## Dates -/

theorem thisTime_follows (hv : Value.Matches p v w) :
    S.Follows js p .same (thisTime v) (thisTime w) := by
  refine .bind (payload?_follows hv) ?_
  rintro q hq payload _ rfl
  cases payload with
  | none => exact typeError_follows _
  | some payload =>
    cases payload with
    | date t => exact .pure rfl
    | _ => exact typeError_follows _

theorem timeValue_matches (t : Option Int) : Value.Matches p (timeValue t) (timeValue t) := by
  cases t <;> exact .number _

theorem storeTime_follows (hv : Value.Matches p v w) (t : Option Int) :
    S.Follows js p Value.Matches (storeTime v t) (storeTime w t) := by
  have hid := hv.id?
  unfold storeTime
  generalize v.id? = i at hid
  generalize w.id? = j at hid
  cases hid with
  | none => exact .pure (timeValue_matches t)
  | some hid => exact .bind (setPayload_follows hid _ nofun) fun _ _ _ _ _ => .pure (timeValue_matches t)

theorem currentTime_follows : S.Follows js p .same currentTime currentTime := by
  refine .config_bind fun e e' he => .read fun hm => ?_
  show Machine.now _ _ = Machine.now _ _
  rw [he.epoch, Machine.now, Machine.now, (S.matched hm).ticks]

theorem toFields_follows (hxs : Matching.list Value.Matches p xs ys) :
    S.Follows js p .same (toFields xs) (toFields ys) := by
  refine Runs.map_value (V := .list .same) (.each hxs Value.Matches.mono Matching.same_mono ?_)
    fun _ _ _ _ hl => Matching.list_same hl
  intro q _ x y hx
  refine .bind (toNumber_follows hx) ?_
  rintro _ _ n _ rfl
  exact .pure rfl

theorem timeOfArguments_follows (hxs : Matching.list Value.Matches p xs ys) :
    S.Follows js p .same (timeOfArguments xs) (timeOfArguments ys) := by
  refine .bind (toFields_follows hxs) ?_
  rintro _ _ fields _ rfl
  dsimp only
  split <;> exact .pure rfl

theorem timeOfText_follows (text : String) :
    S.Follows js p .same (timeOfText text) (timeOfText text) := by
  refine .config_bind fun e e' he => ?_
  rw [he.gmtOffset]
  exact .pure rfl

theorem timeOfValue_follows (hv : Value.Matches p v w) :
    S.Follows js p .same (timeOfValue v) (timeOfValue w) := by
  have hnumber : ∀ q u u', Value.Matches q u u' → S.Follows js q .same
      (do return (← toNumber u).whole?.bind Calendar.clip)
      (do return (← toNumber u').whole?.bind Calendar.clip) := fun q u u' hu => by
    refine .bind (toNumber_follows hu) ?_
    rintro _ _ n _ rfl
    exact .pure rfl
  refine .bind (toPrimitive_follows hv) fun q hq u u' hu => ?_
  cases hu with
  | string s => exact timeOfText_follows s
  | object id receiver => exact hnumber _ _ _ (.object id receiver)
  | _ => exact hnumber _ _ _ (by constructor)

theorem constructDate_follows (hv : Value.Matches p v w)
    (hxs : Matching.list Value.Matches p xs ys) :
    S.Follows js p Value.Matches (constructDate v xs) (constructDate w ys) := by
  have hstore : ∀ q, p ≤ q → ∀ t t' : Option Int, t = t' → S.Follows js q Value.Matches
      (do
        let _ ← storeTime v t
        return v)
      (do
        let _ ← storeTime w t'
        return w) := by
    rintro q hq t _ rfl
    exact .bind (storeTime_follows (hv.mono hq) t) fun _ hr _ _ _ => .pure (hv.mono (hq.trans hr))
  unfold constructDate
  refine .bind isConstructing_follows ?_
  rintro q hq c _ rfl
  have hxs := Matching.list_mono Value.Matches.mono hq hxs
  cases c with
  | false =>
    refine .bind currentTime_follows ?_
    rintro _ _ t _ rfl
    exact .pure (.string _)
  | true =>
    cases hxs with
    | nil =>
      refine .bind (.map currentTime_follows (W := .same) ?_) fun r hr => hstore r (hq.trans hr)
      rintro _ _ t _ rfl
      rfl
    | cons hx hrest =>
      cases hrest with
      | nil => exact .bind (timeOfValue_follows hx) fun r hr => hstore r (hq.trans hr)
      | cons hy hrest =>
        exact .bind (timeOfArguments_follows (.cons hx (.cons hy hrest)))
          fun r hr => hstore r (hq.trans hr)

theorem setFields_follows (hv : Value.Matches p v w) (hxs : Matching.list Value.Matches p xs ys)
    (first count : Nat) :
    S.Follows js p Value.Matches (setFields v xs first count) (setFields w ys first count) := by
  unfold setFields
  refine .bind (thisTime_follows hv) ?_
  rintro q hq t _ rfl
  have hxs := Matching.list_mono Value.Matches.mono hq hxs
  refine .bind (toFields_follows (Matching.list_take hxs count)) ?_
  rintro r hr given _ rfl
  have hv := hv.mono (hq.trans hr)
  split
  · exact storeTime_follows hv _
  · split <;> exact storeTime_follows hv _

theorem setYear_follows (hv : Value.Matches p v w) (hxs : Matching.list Value.Matches p xs ys) :
    S.Follows js p Value.Matches (setYear v xs) (setYear w ys) := by
  unfold setYear
  refine .bind (thisTime_follows hv) ?_
  rintro q hq t _ rfl
  refine .bind (toNumber_follows ((argument_matches hxs 0).mono hq)) ?_
  rintro r hr n _ rfl
  exact storeTime_follows (hv.mono (hq.trans hr)) _

theorem dateText_follows (format : Int → String) (hv : Value.Matches p v w) :
    S.Follows js p Value.Matches (dateText format v) (dateText format w) := by
  refine .bind (thisTime_follows hv) ?_
  rintro q hq t _ rfl
  cases t <;> exact .pure (.string _)

theorem dateNumber_follows (f : Int → Number) (hv : Value.Matches p v w) :
    S.Follows js p Value.Matches (dateNumber f v) (dateNumber f w) := by
  refine .bind (thisTime_follows hv) ?_
  rintro q hq t _ rfl
  cases t <;> exact .pure (.number _)

theorem applyDate_follows (f : DateFunction) (hv : Value.Matches p v w)
    (hxs : Matching.list Value.Matches p xs ys) :
    S.Follows js p Value.Matches (applyDate f v xs) (applyDate f w ys) := by
  unfold applyDate
  cases f with
  | construct => exact constructDate_follows hv hxs
  | parse =>
    refine .bind (toText_follows (argument_matches hxs 0)) ?_
    rintro _ _ text _ rfl
    refine .bind (timeOfText_follows text) ?_
    rintro _ _ t _ rfl
    exact .pure (timeValue_matches t)
  | utc =>
    refine .bind (timeOfArguments_follows hxs) ?_
    rintro _ _ t _ rfl
    exact .pure (timeValue_matches t)
  | get part => exact dateNumber_follows _ hv
  | set first count => exact setFields_follows hv hxs first count
  | valueOf => exact dateNumber_follows _ hv
  | getYear => exact dateNumber_follows _ hv
  | getTimezoneOffset =>
    refine .config_bind fun e e' he => ?_
    rw [he.gmtOffset]
    exact dateNumber_follows _ hv
  | setTime =>
    refine .bind (thisTime_follows hv) fun q hq _ _ _ => ?_
    refine .bind (toNumber_follows ((argument_matches hxs 0).mono hq)) ?_
    rintro r hr n _ rfl
    exact storeTime_follows (hv.mono (hq.trans hr)) _
  | setYear => exact setYear_follows hv hxs
  | toText => exact dateText_follows _ hv
  | toGmtText => exact dateText_follows _ hv
  | toLocaleText =>
    refine .config_bind fun e e' he => ?_
    rw [he.gmtOffset]
    exact dateText_follows _ hv

/-! ## Errors -/

theorem fillError_follows (kind : ErrorKind) (hxs : Matching.list Value.Matches p xs ys)
    (h : p.ids a b) :
    S.Follows js p Value.Matches (fillError kind xs a) (fillError kind ys b) := by
  refine .bind (setPayload_follows h _ nofun) fun q hq _ _ _ => ?_
  have hx := Matching.option_mono Value.Matches.mono hq (given?_matches hxs 0)
  generalize given? xs 0 = x at hx
  generalize given? ys 0 = y at hx
  cases hx with
  | none => exact .pure (.ref (hq h))
  | some hx =>
    refine .bind (toText_follows hx) ?_
    rintro r hr text _ rfl
    exact .bind (writeMember_follows (hr (hq h)) _ (.string text)) fun _ hs _ _ _ =>
      .pure (.ref (hs (hr (hq h))))

theorem constructError_follows (kind : ErrorKind) (hv : Value.Matches p v w)
    (hxs : Matching.list Value.Matches p xs ys) :
    S.Follows js p Value.Matches (constructError kind v xs) (constructError kind w ys) := by
  have hfill : ∀ q, p ≤ q → ∀ i j, q.ids i j →
      S.Follows js q Value.Matches (fillError kind xs i) (fillError kind ys j) := fun q hq i j hi =>
    fillError_follows kind (Matching.list_mono Value.Matches.mono hq hxs) hi
  unfold constructError
  refine .bind isConstructing_follows ?_
  rintro q hq c _ rfl
  have hid := hv.id?
  generalize v.id? = i at hid
  generalize w.id? = j at hid
  have hnew : S.Follows js q Value.Matches _ _ :=
    .bind (.alloc_empty (q.intrinsic_error kind)) fun r hr i j ⟨hi, _⟩ =>
      hfill r (hq.trans hr) i j hi
  cases c with
  | false => cases hid <;> exact hnew
  | true =>
    cases hid with
    | none => exact hnew
    | some hid =>
      exact .bind (.pure (hq hid)) fun r hr i j hi => hfill r (hq.trans hr) i j hi

theorem errorText_follows (hv : Value.Matches p v w) :
    S.Follows js p Value.Matches (errorText v) (errorText w) := by
  unfold errorText
  refine .bind (readMember_follows hv "name") fun q hq _ _ hu => ?_
  refine .bind (toText_follows hu) ?_
  rintro r hr name _ rfl
  refine .bind (readMember_follows (hv.mono (hq.trans hr)) "message") fun s hs _ _ hu => ?_
  refine .bind (toText_follows hu) ?_
  rintro _ _ message _ rfl
  exact .pure (.string _)

theorem applyError_follows (f : ErrorFunction) (hv : Value.Matches p v w)
    (hxs : Matching.list Value.Matches p xs ys) :
    S.Follows js p Value.Matches (applyError f v xs) (applyError f w ys) := by
  cases f with
  | construct kind => exact constructError_follows kind hv hxs
  | toText => exact errorText_follows hv

/-! ## Strings -/

theorem thisText_follows (hv : Value.Matches p v w) :
    S.Follows js p .same (thisText v) (thisText w) := by
  unfold thisText
  refine .bind (payload?_follows hv) ?_
  rintro q hq payload _ rfl
  cases hv with
  | string s => exact .pure rfl
  | object id receiver =>
    have htext : S.Follows js q .same (toText _) (toText _) := toText_follows
      (Value.Matches.object (hq id) (Matching.option_mono Matching.id_mono hq receiver))
    cases payload with
    | none => exact htext
    | some payload =>
      cases payload with
      | string s => exact .pure rfl
      | _ => exact htext
  | _ =>
    cases payload with
    | none => exact toText_follows (by constructor)
    | some payload =>
      cases payload with
      | string s => exact .pure rfl
      | _ => exact toText_follows (by constructor)

theorem thisChars_follows (hv : Value.Matches p v w) :
    S.Follows js p .same (thisChars v) (thisChars w) := by
  refine .bind (thisText_follows hv) ?_
  rintro _ _ s _ rfl
  exact .pure rfl

theorem positionWithin_follows (hxs : Matching.list Value.Matches p xs ys) (i length default : Nat) :
    S.Follows js p .same (positionWithin xs i length default)
      (positionWithin ys i length default) := by
  have hi := given?_matches hxs i
  unfold positionWithin
  generalize given? xs i = x at hi
  generalize given? ys i = y at hi
  cases hi with
  | none => exact .pure rfl
  | some hi =>
    refine .bind (toPosition_follows hi) ?_
    rintro _ _ n _ rfl
    exact .pure rfl

theorem storeString_follows (hv : Value.Matches p v w) (s : String) :
    S.Follows js p Value.Matches (storeString v s) (storeString w s) := by
  refine .bind isConstructing_follows ?_
  rintro q hq c _ rfl
  have hv := hv.mono hq
  have hid := hv.id?
  generalize v.id? = i at hid
  generalize w.id? = j at hid
  cases c with
  | false => cases hid <;> exact .pure (.string s)
  | true =>
    cases hid with
    | none => exact .pure (.string s)
    | some hid =>
      refine .bind (setPayload_follows hid _ nofun) fun r hr _ _ _ => ?_
      exact .bind (.modifyObject (hr hid) (.putHidden "length" (.inl rfl) (.ofNat _) rfl)
        fun _ ho => ho.putHidden "length" rfl) fun _ hs _ _ _ => .pure (hv.mono (hr.trans hs))

theorem constructString_follows (hv : Value.Matches p v w)
    (hxs : Matching.list Value.Matches p xs ys) :
    S.Follows js p Value.Matches (constructString v xs) (constructString w ys) := by
  have hmake : ∀ q, p ≤ q → ∀ s t : String, s = t →
      S.Follows js q Value.Matches (storeString v s) (storeString w t) := by
    rintro q hq s _ rfl
    exact storeString_follows (hv.mono hq) s
  unfold constructString
  cases hxs with
  | nil => exact .bind (.pure rfl) hmake
  | cons hx _ => exact .bind (toText_follows hx) hmake

theorem fromCharCode_follows (hxs : Matching.list Value.Matches p xs ys) :
    S.Follows js p Value.Matches (fromCharCode xs) (fromCharCode ys) := by
  refine .bind (V := .list .same) (.each hxs Value.Matches.mono Matching.same_mono ?_) ?_
  · intro q _ x y hx
    refine .bind (toNumber_follows hx) ?_
    rintro _ _ n _ rfl
    exact .pure rfl
  · intro q _ units units' hu
    rw [Matching.list_same hu]
    exact .pure (.string _)

theorem charAt?_follows (hv : Value.Matches p v w) (hxs : Matching.list Value.Matches p xs ys) :
    S.Follows js p .same (charAt? v xs) (charAt? w ys) := by
  refine .bind (thisChars_follows hv) ?_
  rintro q hq cs _ rfl
  refine .bind (toPosition_follows ((argument_matches hxs 0).mono hq)) ?_
  rintro _ _ position _ rfl
  exact .pure rfl

theorem indexOf_follows (hv : Value.Matches p v w) (hxs : Matching.list Value.Matches p xs ys) :
    S.Follows js p Value.Matches (indexOf v xs) (indexOf w ys) := by
  refine .bind (thisChars_follows hv) ?_
  rintro q hq cs _ rfl
  refine .bind (toText_follows ((argument_matches hxs 0).mono hq)) ?_
  rintro r hr needle _ rfl
  refine .bind (positionWithin_follows
    (Matching.list_mono Value.Matches.mono (hq.trans hr) hxs) 1 _ 0) ?_
  rintro _ _ start _ rfl
  exact .pure (.number _)

theorem lastStart_follows (hxs : Matching.list Value.Matches p xs ys) (length : Nat) :
    S.Follows js p .same (lastStart xs length) (lastStart ys length) := by
  have hi := given?_matches hxs 1
  unfold lastStart
  generalize given? xs 1 = x at hi
  generalize given? ys 1 = y at hi
  cases hi with
  | none => exact .pure rfl
  | some hi =>
    refine .bind (toNumber_follows hi) ?_
    rintro _ _ n _ rfl
    split <;> exact .pure rfl

theorem lastIndexOf_follows (hv : Value.Matches p v w)
    (hxs : Matching.list Value.Matches p xs ys) :
    S.Follows js p Value.Matches (lastIndexOf v xs) (lastIndexOf w ys) := by
  refine .bind (thisChars_follows hv) ?_
  rintro q hq cs _ rfl
  refine .bind (toText_follows ((argument_matches hxs 0).mono hq)) ?_
  rintro r hr needle _ rfl
  refine .bind (lastStart_follows (Matching.list_mono Value.Matches.mono (hq.trans hr) hxs) _) ?_
  rintro _ _ start _ rfl
  exact .pure (.number _)

theorem substring_follows (hv : Value.Matches p v w) (hxs : Matching.list Value.Matches p xs ys) :
    S.Follows js p Value.Matches (substring v xs) (substring w ys) := by
  refine .bind (thisChars_follows hv) ?_
  rintro q hq cs _ rfl
  have hxs := Matching.list_mono Value.Matches.mono hq hxs
  refine .bind (positionWithin_follows hxs 0 _ 0) ?_
  rintro r hr start _ rfl
  refine .bind (positionWithin_follows (Matching.list_mono Value.Matches.mono hr hxs) 1 _ _) ?_
  rintro _ _ stop _ rfl
  exact .pure (.string _)

theorem substr_follows (hv : Value.Matches p v w) (hxs : Matching.list Value.Matches p xs ys) :
    S.Follows js p Value.Matches (substr v xs) (substr w ys) := by
  refine .bind (thisChars_follows hv) ?_
  rintro q hq cs _ rfl
  have hxs := Matching.list_mono Value.Matches.mono hq hxs
  refine .bind (positionFromEnd_follows hxs 0 _ 0) ?_
  rintro r hr start _ rfl
  refine .bind (positionWithin_follows (Matching.list_mono Value.Matches.mono hr hxs) 1 _ _) ?_
  rintro _ _ count _ rfl
  exact .pure (.string _)

theorem sliceText_follows (hv : Value.Matches p v w) (hxs : Matching.list Value.Matches p xs ys) :
    S.Follows js p Value.Matches (sliceText v xs) (sliceText w ys) := by
  refine .bind (thisChars_follows hv) ?_
  rintro q hq cs _ rfl
  have hxs := Matching.list_mono Value.Matches.mono hq hxs
  refine .bind (positionFromEnd_follows hxs 0 _ 0) ?_
  rintro r hr start _ rfl
  refine .bind (positionFromEnd_follows (Matching.list_mono Value.Matches.mono hr hxs) 1 _ _) ?_
  rintro _ _ stop _ rfl
  exact .pure (.string _)

theorem arrayOfParts_follows (limit : Option Nat) (parts : List (List Char)) :
    S.Follows js p Value.Matches (arrayOfParts limit parts) (arrayOfParts limit parts) := by
  refine .bind (arrayOf_follows ?_) fun _ _ _ _ hi => .pure (.ref hi)
  refine List.forall₂_same.2 fun v hv => ?_
  obtain ⟨cs, -, rfl⟩ := List.mem_map.1 hv
  exact .string _

theorem splitUpTo_follows (hxs : Matching.list Value.Matches p xs ys) (cs : List Char)
    (limit : Option Nat) :
    S.Follows js p Value.Matches (splitUpTo xs cs limit) (splitUpTo ys cs limit) := by
  have hi := given?_matches hxs 0
  unfold splitUpTo
  generalize given? xs 0 = x at hi
  generalize given? ys 0 = y at hi
  cases hi with
  | none => exact arrayOfParts_follows limit [cs]
  | some hi =>
    refine .bind (toText_follows hi) ?_
    rintro q _ s _ rfl
    exact arrayOfParts_follows limit _

theorem split_follows (hv : Value.Matches p v w) (hxs : Matching.list Value.Matches p xs ys) :
    S.Follows js p Value.Matches (split v xs) (split w ys) := by
  unfold split
  refine .bind (thisChars_follows hv) ?_
  rintro q hq cs _ rfl
  have hxs := Matching.list_mono Value.Matches.mono hq hxs
  have hi := given?_matches hxs 1
  generalize given? xs 1 = x at hi
  generalize given? ys 1 = y at hi
  cases hi with
  | none => exact splitUpTo_follows hxs cs none
  | some hi =>
    refine .bind (toNumber_follows hi) ?_
    rintro r hr n _ rfl
    exact splitUpTo_follows (Matching.list_mono Value.Matches.mono hr hxs) cs
      (some n.toUInt32.toNat)

theorem stringValue_follows (hv : Value.Matches p v w) :
    S.Follows js p Value.Matches (stringValue v) (stringValue w) := by
  unfold stringValue
  refine .bind (payload?_follows hv) ?_
  rintro q hq payload _ rfl
  cases hv with
  | string s => exact .pure (.string s)
  | _ =>
    cases payload with
    | none => exact typeError_follows _
    | some payload =>
      cases payload with
      | string s => exact .pure (.string s)
      | _ => exact typeError_follows _

theorem applyString_follows (f : StringFunction) (hv : Value.Matches p v w)
    (hxs : Matching.list Value.Matches p xs ys) :
    S.Follows js p Value.Matches (applyString f v xs) (applyString f w ys) := by
  unfold applyString
  cases f with
  | construct => exact constructString_follows hv hxs
  | fromCharCode => exact fromCharCode_follows hxs
  | charAt =>
    refine .bind (charAt?_follows hv hxs) ?_
    rintro _ _ c _ rfl
    exact .pure (.string _)
  | charCodeAt =>
    refine .bind (charAt?_follows hv hxs) ?_
    rintro _ _ c _ rfl
    cases c <;> exact .pure (.number _)
  | indexOf => exact indexOf_follows hv hxs
  | lastIndexOf => exact lastIndexOf_follows hv hxs
  | substring => exact substring_follows hv hxs
  | substr => exact substr_follows hv hxs
  | slice => exact sliceText_follows hv hxs
  | split => exact split_follows hv hxs
  | concat =>
    refine .bind (thisText_follows hv) ?_
    rintro q hq s _ rfl
    refine .bind (toTexts_follows (Matching.list_mono Value.Matches.mono hq hxs))
      fun _ _ l l' hl => ?_
    rw [Matching.list_same hl]
    exact .pure (.string _)
  | toLowerCase =>
    refine .bind (thisChars_follows hv) ?_
    rintro _ _ cs _ rfl
    exact .pure (.string _)
  | toUpperCase =>
    refine .bind (thisChars_follows hv) ?_
    rintro _ _ cs _ rfl
    exact .pure (.string _)
  | valueOf => exact stringValue_follows hv
  | wrap tag =>
    refine .bind (thisText_follows hv) ?_
    rintro _ _ s _ rfl
    exact .pure (.string _)
  | wrapWith tag property =>
    refine .bind (thisText_follows hv) ?_
    rintro q hq s _ rfl
    refine .bind (toText_follows ((argument_matches hxs 0).mono hq)) ?_
    rintro _ _ value _ rfl
    exact .pure (.string _)

end PageScript.Simulation
