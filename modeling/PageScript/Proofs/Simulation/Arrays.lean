import PageScript.Proofs.Elements
import PageScript.Proofs.Simulation.Conversion

/-! # Arrays on two sides -/

set_option autoImplicit false

namespace PageScript

/-! ## Elements -/

variable {p : Pairing}

/-- Elements at the same indices whose values match. -/
structure Elements.Matches (p : Pairing) (e f : Elements) : Prop where
  length : e.length = f.length
  present : Matching.list (.both .same Value.Matches) p e.present f.present

namespace Elements.Matches

variable {e f : Elements}

theorem mono : Matching.Monotone Elements.Matches := fun _ _ hpq _ _ h =>
  ⟨h.length, Matching.list_mono (Matching.both_mono Matching.same_mono Value.Matches.mono) hpq
    h.present⟩

theorem indices_eq (h : Elements.Matches p e f) :
    e.present.map Prod.fst = f.present.map Prod.fst :=
  Matching.list_same (p := p) (Matching.list_map (W := .same) h.present fun _ _ hx => hx.1)

theorem values (h : Elements.Matches p e f) :
    Matching.list Value.Matches p (e.present.map Prod.snd) (f.present.map Prod.snd) :=
  Matching.list_map h.present fun _ _ hx => hx.2

theorem moved (h : Elements.Matches p e f) (start stop base : Nat) :
    Matching.list (.both .same Value.Matches) p (e.moved start stop base)
      (f.moved start stop base) := by
  refine Matching.list_filterMap h.present ?_
  rintro ⟨i, v⟩ ⟨_, w⟩ ⟨rfl, hv⟩
  dsimp only
  split
  · exact .some ⟨rfl, hv⟩
  · exact .none

theorem at? (h : Elements.Matches p e f) (index : Nat) :
    Matching.option Value.Matches p (e.at? index) (f.at? index) := by
  refine Matching.option_map (V := .both .same Value.Matches)
    (Matching.list_find? h.present ?_) fun _ _ hx => hx.2
  rintro ⟨i, v⟩ ⟨_, w⟩ ⟨rfl, -⟩
  rfl

theorem reverse (h : Elements.Matches p e f) : Elements.Matches p e.reverse f.reverse := by
  refine ⟨h.length, Matching.list_map (Matching.list_reverse h.present) ?_⟩
  rintro ⟨i, v⟩ ⟨_, w⟩ ⟨rfl, hv⟩
  exact ⟨congrArg (· - 1 - i) h.length, hv⟩

theorem packed {xs ys : List Value} (length : Nat) (hxs : Matching.list Value.Matches p xs ys) :
    Elements.Matches p (.packed length xs) (.packed length ys) := by
  refine ⟨rfl, Matching.list_map (Matching.list_zipIdx hxs 0) ?_⟩
  rintro ⟨v, i⟩ ⟨w, _⟩ ⟨hv, rfl⟩
  exact ⟨rfl, hv⟩

theorem dense (h : Elements.Matches p e f) : Matching.list Value.Matches p e.dense f.dense := by
  have hfold := Matching.list_foldl (p := p) (V := .both .same Value.Matches)
    (U := fun p (xs ys : Array Value) => Matching.list Value.Matches p xs.toList ys.toList)
    (s := Array.replicate e.length Value.undefined) (t := Array.replicate f.length Value.undefined)
    (f := fun values x => values.setIfInBounds x.1 x.2)
    (g := fun values x => values.setIfInBounds x.1 x.2) h.present ?_ ?_
  · exact hfold
  · rw [h.length, Array.toList_replicate]
    exact List.forall₂_same.2 fun v hv => (List.eq_of_mem_replicate hv) ▸ .undefined
  · rintro xs ys ⟨i, v⟩ ⟨_, w⟩ hxs ⟨rfl, hv⟩
    rw [Array.toList_setIfInBounds, Array.toList_setIfInBounds]
    exact Matching.list_set hxs i hv

end Elements.Matches

namespace Simulation

open Script

variable {S : Simulation} {α β : Type} {q : Pairing} {V : Matching α} {W : Matching β}
  {js : List Jump} {a b : ObjectId} {v w v' w' : Value} {xs ys : List Value}

/-- What all values of a computation have in common may be used behind it. -/
theorem Runs.yields {ph : Phase} {k : Course} {P : α → Prop} {x x' : Script α} (h : S.Runs ph k p V x x')
    (hx : Yields P x) : S.Runs ph k p (fun q v w => V q v w ∧ P v) x x' := by
  refine ⟨fun e e' he g m m' hm => ?_⟩
  have hends := h.ends e e' he g m m' hm
  generalize hxm : x e m = o at hends
  generalize x' e' m' = o' at hends
  cases hends with
  | value hq hv hn => exact .value hq ⟨hv, hx e m _ _ hxm⟩ hn
  | abrupt hq hc hj hn => exact .abrupt hq hc hj hn
  | exhausted h => exact .exhausted h

/-! ## What built-in functions have in common -/

theorem isConstructing_follows :
    S.Follows js p .same isConstructing isConstructing :=
  .read fun hm => (S.matched hm).frame.constructing

theorem payload?_follows (h : Value.Matches p v w) :
    S.Follows js p .same (payload? v) (payload? w) := by
  refine .read fun hm => Matching.option_same (p := p) ?_
  refine Matching.option_map (V := Object.Matches) ?_ fun _ _ ho => ho.payload
  exact Matching.option_bind h.id? fun _ _ hi => (S.matched hm).heap.get? hi

theorem setPayload_follows (h : p.ids a b) (payload : Payload)
    (hp : ∀ length, payload ≠ .array length) :
    S.Follows js p .same (setPayload a payload) (setPayload b payload) :=
  .modifyObject h (.setPayload payload hp) fun _ ho => ho.congr rfl

theorem newObject_follows : S.Follows js p .id newObject newObject :=
  Runs.weaken (fun _ _ _ h => h.1) (.alloc_empty p.intrinsic_object)

theorem newFunction_follows (tree : FunctionTree) (h : p.ids a b) (ht : S.Sound tree.trees) :
    S.Follows js p .id (newFunction tree a) (newFunction tree b) := by
  have ho : Object.Matches p (.empty (some Intrinsic.function)) (.empty (some Intrinsic.function)) :=
    .empty (.some p.intrinsic_function)
  have hnew := (Object.ordinary_empty (some Intrinsic.function)).putHidden "length"
    (v := .ofNat tree.parameters.length) rfl
  refine .alloc { ho.putHidden "length" (.ofNat tree.parameters.length) with
    callable := .some (.script tree h) } ⟨hnew.payload, hnew.links, hnew.tidy.congr rfl⟩ ?_
  intro tree' scope hc
  obtain ⟨rfl, -⟩ := Callable.script.inj (Option.some.inj hc)
  exact ht

theorem callValue_follows {this this' : Option ObjectId} (h : Value.Matches p v w)
    (hthis : Matching.option .id p this this') (hxs : Matching.list Value.Matches p xs ys) :
    S.Follows js p Value.Matches (callValue v this xs) (callValue w this' ys) := by
  unfold callValue
  rw [h.text_eq]
  refine .bind (callable?_follows h) fun q hq f f' hf => ?_
  cases hf with
  | none => exact typeError_follows _
  | some hf =>
    exact .perform (.call hf (Matching.option_mono Matching.id_mono hq hthis)
      (Matching.list_mono Value.Matches.mono hq hxs) false) fun _ _ h => nomatch h

theorem toTexts_follows (hxs : Matching.list Value.Matches p xs ys) :
    S.Follows js p (.list .same) (toTexts xs) (toTexts ys) :=
  .each hxs Value.Matches.mono Matching.same_mono fun _ _ _ _ hx => toText_follows hx

/-! ## Reading and writing elements -/

theorem lengthOf_follows (h : p.ids a b) : S.Follows js p .same (lengthOf a) (lengthOf b) := by
  refine .bind (readMember_follows (.ref h) "length") fun _ _ _ _ hu => ?_
  refine .bind (toNumber_follows hu) ?_
  rintro _ _ n _ rfl
  exact .pure rfl

theorem readElements_follows (h : p.ids a b) :
    S.Follows js p Elements.Matches (readElements a) (readElements b) := by
  unfold readElements
  refine .bind (lengthOf_follows h) ?_
  rintro q hq length _ rfl
  refine .read_bind (V := .same) (fun hm => (S.matched hm).heap.indices_eq (hq h) length) ?_
  rintro indices _ rfl
  refine .bind (.each (Matching.list_member indices) Matching.member_mono
    (Matching.both_mono Matching.same_mono Value.Matches.mono) ?_)
    fun _ _ _ _ hp => .pure ⟨rfl, hp⟩
  rintro r hr i _ ⟨rfl, -⟩
  exact .bind (readMember_follows (.ref (hr (hq h))) _) fun _ _ _ _ hu => .pure ⟨rfl, hu.unbound⟩

theorem writeElements_follows {e f e' f' : Elements} (h : p.ids a b)
    (he : Elements.Matches p e f) (he' : Elements.Matches p e' f') :
    S.Follows js p .same (writeElements a e e') (writeElements b f f') := by
  unfold writeElements
  refine .bind (.fold (U := .same) he'.present
    (Matching.both_mono Matching.same_mono Value.Matches.mono) rfl ?_) fun q hq _ _ _ => ?_
  · rintro q hq s t ⟨i, v⟩ ⟨_, w⟩ - ⟨rfl, hv⟩
    exact .bind (writeMember_follows (hq h) _ hv) fun _ _ _ _ _ => .pure rfl
  · rw [he.indices_eq, he'.indices_eq]
    refine .bind (.fold (U := .same) (Matching.list_member _) Matching.member_mono rfl ?_)
      fun r hr _ _ _ => ?_
    · rintro r hr s t i _ - ⟨rfl, -⟩
      exact .bind (deleteMember_follows (hr (hq h)) _) fun _ _ _ _ _ => .pure rfl
    · rw [he'.length]
      exact .bind (writeMember_follows (hr (hq h)) _ (.ofNat _)) fun _ _ _ _ _ => .pure rfl

theorem arrayOfElements_follows {e f : Elements} (he : Elements.Matches p e f) (htidy : e.Tidy) :
    S.Follows js p .id (arrayOfElements e) (arrayOfElements f) := by
  unfold arrayOfElements
  rw [he.length]
  refine newArray_bind (f := fun _ => Object.pushElements e.present)
    (k := fun _ => Object.pushElements f.present) _
    (fun hq hid _ hm hneat => S.edit hm hid (.pushElements (he.mono hq).present) hneat)
    fun _ o ho hlength => ?_
  exact ho.pushElements htidy.rising.nodup htidy.unbound hlength

theorem elementsAsArguments_follows (h : p.ids a b) :
    S.Follows js p (.list Value.Matches) (elementsAsArguments a) (elementsAsArguments b) := by
  unfold elementsAsArguments
  refine .bind (readElements_follows h) fun q _ e f he => ?_
  rw [he.length]
  split
  · exact .bind (raise_follows (V := .same) _ _) fun _ hr _ _ _ => .pure (he.mono hr).dense
  · exact .pure he.dense

theorem positionFromEnd_follows (hxs : Matching.list Value.Matches p xs ys) (i length default : Nat) :
    S.Follows js p .same (positionFromEnd xs i length default)
      (positionFromEnd ys i length default) := by
  have hi := given?_matches hxs i
  unfold positionFromEnd
  generalize given? xs i = x at hi
  generalize given? ys i = y at hi
  cases hi with
  | none => exact .pure rfl
  | some hi =>
    refine .bind (toPosition_follows hi) ?_
    rintro _ _ n _ rfl
    exact .pure rfl

/-! ## Joining -/

theorem elementText_follows (h : Value.Matches p v w) :
    S.Follows js p .same (elementText v) (elementText w) := by
  unfold elementText
  rw [h.isNothing_eq]
  split
  · exact .pure rfl
  · exact toText_follows h

theorem joinElements_follows {e f : Elements} (separator : String) (he : Elements.Matches p e f) :
    S.Follows js p .same (joinElements separator e) (joinElements separator f) := by
  have hjoin : ∀ q, p ≤ q → S.Follows js q .same
      (do
        let s ← Script.fold (fun s x => do
          let text := appendSeparators separator (x.1 - s.2) s.1 ++ (← elementText x.2)
          if joinLimit < text.utf8ByteSize then raise .range "invalid string length"
          return (text, x.1)) e.present ("", 0)
        return appendSeparators separator (f.length - 1 - s.2) s.1)
      (do
        let s ← Script.fold (fun s x => do
          let text := appendSeparators separator (x.1 - s.2) s.1 ++ (← elementText x.2)
          if joinLimit < text.utf8ByteSize then raise .range "invalid string length"
          return (text, x.1)) f.present ("", 0)
        return appendSeparators separator (f.length - 1 - s.2) s.1) := fun q hq => by
    refine .bind (.fold (U := .same) (he.mono hq).present
      (Matching.both_mono Matching.same_mono Value.Matches.mono) rfl ?_) ?_
    · rintro r hr s _ ⟨i, v⟩ ⟨_, w⟩ rfl ⟨rfl, hv⟩
      refine .bind (elementText_follows hv) ?_
      rintro _ _ text _ rfl
      dsimp only
      split
      · exact .bind (raise_follows (V := .same) _ _) fun _ _ _ _ _ => .pure rfl
      · exact .pure rfl
    · rintro r hr x _ rfl
      exact .pure rfl
  unfold joinElements
  rw [he.length]
  dsimp only
  split
  · exact .bind (raise_follows (V := .same) _ _) fun q hq _ _ _ => hjoin q hq
  · exact hjoin p (le_refl p)

theorem join_follows (h : p.ids a b) (hxs : Matching.list Value.Matches p xs ys) :
    S.Follows js p Value.Matches (join a xs) (join b ys) := by
  have hi := given?_matches hxs 0
  have hrest : ∀ q, p ≤ q → ∀ s t : String, s = t → S.Follows js q Value.Matches
      (do return .string (← joinElements s (← readElements a)))
      (do return .string (← joinElements t (← readElements b))) := by
    rintro q hq s _ rfl
    refine .bind (readElements_follows (hq h)) fun _ _ e f he => ?_
    refine .bind (joinElements_follows s he) ?_
    rintro _ _ text _ rfl
    exact .pure (.string text)
  unfold join
  generalize given? xs 0 = x at hi
  generalize given? ys 0 = y at hi
  cases hi with
  | none => exact .bind (.pure rfl) hrest
  | some hi => exact .bind (toText_follows hi) hrest

/-! ## Sorting -/

theorem elementOrder_follows {comparator comparator' : Option Value}
    (hc : Matching.option Value.Matches p comparator comparator') (h : Value.Matches p v w)
    (h' : Value.Matches p v' w') :
    S.Follows js p .same (elementOrder comparator v v') (elementOrder comparator' w w') := by
  unfold elementOrder
  rw [h.isUndefined_eq, h'.isUndefined_eq]
  split
  · exact .pure rfl
  · exact .pure rfl
  · exact .pure rfl
  · cases hc with
    | some hc =>
      refine .bind (callValue_follows hc .none (.cons h (.cons h' .nil))) fun _ _ _ _ hu => ?_
      refine .bind (toNumber_follows hu) ?_
      rintro _ _ n _ rfl
      exact .pure rfl
    | none =>
      refine .bind (toText_follows h) ?_
      rintro q hq s _ rfl
      refine .bind (toText_follows (h'.mono hq)) ?_
      rintro _ _ t _ rfl
      exact .pure rfl

theorem mergeSorted_follows {comparator comparator' : Option Value}
    (hc : Matching.option Value.Matches p comparator comparator')
    (hxs : Matching.list Value.Matches p xs ys) {xs' ys' : List Value}
    (hxs' : Matching.list Value.Matches p xs' ys') :
    S.Follows js p (.list Value.Matches) (mergeSorted comparator xs xs')
      (mergeSorted comparator' ys ys') := by
  induction hn : xs.length + xs'.length generalizing p xs ys xs' ys' with
  | zero =>
    obtain rfl := List.eq_nil_of_length_eq_zero (Nat.eq_zero_of_add_eq_zero_right hn)
    cases hxs
    rw [mergeSorted, mergeSorted]
    exact .pure hxs'
  | succ n ih =>
    cases hxs with
    | nil =>
      rw [mergeSorted, mergeSorted]
      exact .pure hxs'
    | @cons x y xs ys hx hxs =>
      cases hxs' with
      | nil =>
        rw [mergeSorted, mergeSorted]
        · exact .pure (.cons hx hxs)
        · intro h
          cases h
        · intro h
          cases h
      | @cons x' y' xs' ys' hx' hxs' =>
        have hV := Matching.list_mono Value.Matches.mono
        rw [mergeSorted, mergeSorted]
        refine .bind (elementOrder_follows hc hx hx') ?_
        rintro q hq order _ rfl
        have hc := Matching.option_mono Value.Matches.mono hq hc
        cases order with
        | gt =>
          refine .bind (ih hc (.cons (hx.mono hq) (hV hq hxs)) (hV hq hxs') ?_)
            fun r hr _ _ hl => .pure (.cons (hx'.mono (hq.trans hr)) hl)
          rw [List.length_cons] at hn ⊢
          rw [List.length_cons] at hn
          omega
        | _ =>
          refine .bind (ih hc (hV hq hxs) (.cons (hx'.mono hq) (hV hq hxs')) ?_)
            fun r hr _ _ hl => .pure (.cons (hx.mono (hq.trans hr)) hl)
          rw [List.length_cons] at hn ⊢
          rw [List.length_cons] at hn
          omega

theorem sortValues_follows {comparator comparator' : Option Value}
    (hc : Matching.option Value.Matches p comparator comparator')
    (hxs : Matching.list Value.Matches p xs ys) :
    S.Follows js p (.list Value.Matches) (sortValues comparator xs) (sortValues comparator' ys) := by
  induction hn : xs.length using Nat.strong_induction_on generalizing p xs ys with
  | _ n ih =>
    cases hxs with
    | nil =>
      rw [sortValues, sortValues]
      exact .pure .nil
    | @cons x y xs ys hx hxs =>
      cases hxs with
      | nil =>
        rw [sortValues, sortValues]
        exact .pure (.cons hx .nil)
      | @cons x' y' xs ys hx' hxs =>
        have hV := Matching.list_mono Value.Matches.mono
        have hall := List.Forall₂.cons hx (List.Forall₂.cons hx' hxs)
        rw [sortValues, sortValues]
        rw [← Matching.list_length hall]
        rw [List.length_cons, List.length_cons] at hn
        refine .bind (ih _ ?_ hc (Matching.list_take hall _) rfl) fun q hq l l' hl => ?_
        · rw [List.length_take, List.length_cons, List.length_cons]
          omega
        refine .bind (ih _ ?_ (Matching.option_mono Value.Matches.mono hq hc)
          (hV hq (Matching.list_drop hall _)) rfl) fun r hr l l' hl' => ?_
        · rw [List.length_drop, List.length_cons, List.length_cons]
          omega
        exact mergeSorted_follows (Matching.option_mono Value.Matches.mono (hq.trans hr) hc)
          (hV hr hl) hl'

theorem sort_follows (h : p.ids a b) (hxs : Matching.list Value.Matches p xs ys) :
    S.Follows js p Value.Matches (sort a xs) (sort b ys) := by
  have hi := given?_matches hxs 0
  have hsort : ∀ q, p ≤ q → S.Follows js q Value.Matches
      (do
        let old ← readElements a
        let sorted ← sortValues (given? xs 0) (old.present.map Prod.snd)
        writeElements a old (.packed old.length sorted)
        return .ref a)
      (do
        let old ← readElements b
        let sorted ← sortValues (given? ys 0) (old.present.map Prod.snd)
        writeElements b old (.packed old.length sorted)
        return .ref b) := fun q hq => by
    refine .bind (readElements_follows (hq h)) fun r hr e f he => ?_
    have hi := Matching.option_mono Value.Matches.mono (hq.trans hr) hi
    refine .bind (sortValues_follows hi he.values) fun s hs l l' hl => ?_
    rw [he.length]
    have hid := hs (hr (hq h))
    exact .bind (writeElements_follows hid (he.mono hs) (.packed _ hl)) fun _ ht _ _ _ =>
      .pure (.ref (ht hid))
  unfold sort
  dsimp only
  generalize given? xs 0 = x at hi hsort
  generalize given? ys 0 = y at hi hsort
  cases hi with
  | none => exact hsort p (le_refl p)
  | some hi =>
    refine .bind (callable?_follows hi) fun q hq f f' hf => ?_
    cases hf with
    | none => exact .bind (typeError_follows (V := .same) _) fun r hr _ _ _ => hsort r (hq.trans hr)
    | some hf => exact hsort q hq

/-! ## Ends of an array -/

theorem push_follows (h : p.ids a b) (hxs : Matching.list Value.Matches p xs ys) :
    S.Follows js p Value.Matches (push a xs) (push b ys) := by
  unfold push
  refine .bind (lengthOf_follows h) ?_
  rintro q hq length _ rfl
  refine .bind (.fold (U := .same)
    (Matching.list_zipIdx (Matching.list_mono Value.Matches.mono hq hxs) 0)
    (Matching.both_mono Value.Matches.mono Matching.same_mono) rfl ?_) fun r hr _ _ _ => ?_
  · rintro r hr s t ⟨v, i⟩ ⟨w, _⟩ - ⟨hv, rfl⟩
    exact .bind (writeMember_follows (hr (hq h)) _ hv) fun _ _ _ _ _ => .pure rfl
  · rw [Matching.list_length hxs]
    exact writeMember_follows (hr (hq h)) _ (.ofNat _)

theorem pop_follows (h : p.ids a b) : S.Follows js p Value.Matches (pop a) (pop b) := by
  unfold pop
  refine .bind (lengthOf_follows h) ?_
  rintro q hq length _ rfl
  cases length with
  | zero =>
    exact .bind (writeMember_follows (hq h) _ (.ofNat _)) fun _ _ _ _ _ => .pure .undefined
  | succ length =>
    refine .bind (readMember_follows (.ref (hq h)) _) fun r hr u u' hu => ?_
    refine .bind (deleteMember_follows (hr (hq h)) _) fun s hs _ _ _ => ?_
    exact .bind (writeMember_follows (hs (hr (hq h))) _ (.ofNat _)) fun _ ht _ _ _ =>
      .pure (hu.unbound.mono (hs.trans ht))

theorem shift_follows (h : p.ids a b) : S.Follows js p Value.Matches (shift a) (shift b) := by
  unfold shift
  refine .bind (readElements_follows h) fun q hq e f he => ?_
  have hshift : ∀ r, q ≤ r → S.Follows js r Value.Matches
      (do
        writeElements a e ⟨e.length - 1, e.moved 1 e.length 0⟩
        return (e.at? 0).getD .undefined)
      (do
        writeElements b f ⟨f.length - 1, f.moved 1 f.length 0⟩
        return (f.at? 0).getD .undefined) := fun r hr => by
    have he := he.mono hr
    rw [he.length]
    refine .bind (writeElements_follows (hr (hq h)) he ⟨rfl, he.moved 1 f.length 0⟩)
      fun s hs _ _ _ => .pure ?_
    have hfirst := (he.mono hs).at? 0
    generalize e.at? 0 = x at hfirst
    generalize f.at? 0 = y at hfirst
    cases hfirst with
    | none => exact .undefined
    | some hfirst => exact hfirst
  rw [he.length] at hshift ⊢
  split
  · exact .bind (writeMember_follows (hq h) _ (.ofNat _)) fun r hr _ _ _ => .pure .undefined
  · exact hshift q (le_refl q)

theorem unshift_follows (h : p.ids a b) (hxs : Matching.list Value.Matches p xs ys) :
    S.Follows js p Value.Matches (unshift a xs) (unshift b ys) := by
  unfold unshift
  refine .bind (readElements_follows h) fun q hq e f he => ?_
  rw [he.length, Matching.list_length hxs]
  refine .bind (writeElements_follows (hq h) he ⟨rfl, Matching.list_append ?_ (he.moved 0 _ _)⟩)
    fun _ _ _ _ _ => .pure (.ofNat _)
  exact (Elements.Matches.packed _ (Matching.list_mono Value.Matches.mono hq hxs)).present

/-! ## Parts of an array -/

theorem splice_follows (h : p.ids a b) (hxs : Matching.list Value.Matches p xs ys) :
    S.Follows js p Value.Matches (splice a xs) (splice b ys) := by
  unfold splice
  refine .bind (readElements_follows h |>.yields (readElements_tidy a)) fun q hq e f ⟨he, htidy⟩ => ?_
  have hxs := Matching.list_mono Value.Matches.mono hq hxs
  rw [he.length]
  refine .bind (positionFromEnd_follows hxs 0 _ 0) ?_
  rintro r hr start _ rfl
  have hxs := Matching.list_mono Value.Matches.mono hr hxs
  have hreplace : ∀ s, r ≤ s → ∀ n m : Nat, n = m → S.Follows js s Value.Matches
      (do
        let items := xs.drop 2
        let removed : Elements := ⟨n, e.moved start (start + n) 0⟩
        let new : Elements :=
          ⟨f.length - n + items.length,
            e.moved 0 start 0 ++ items.zipIdx.map (fun x => (start + x.2, x.1))
              ++ e.moved (start + n) f.length (start + items.length)⟩
        writeElements a e new
        return .ref (← arrayOfElements removed))
      (do
        let items := ys.drop 2
        let removed : Elements := ⟨m, f.moved start (start + m) 0⟩
        let new : Elements :=
          ⟨f.length - m + items.length,
            f.moved 0 start 0 ++ items.zipIdx.map (fun x => (start + x.2, x.1))
              ++ f.moved (start + m) f.length (start + items.length)⟩
        writeElements b f new
        return .ref (← arrayOfElements removed)) := by
    rintro s hs n _ rfl
    have he := he.mono (hr.trans hs)
    have hxs := Matching.list_drop (Matching.list_mono Value.Matches.mono hs hxs) 2
    have hitems : Matching.list (.both .same Value.Matches) s
        ((xs.drop 2).zipIdx.map fun x => (start + x.2, x.1))
        ((ys.drop 2).zipIdx.map fun x => (start + x.2, x.1)) := by
      refine Matching.list_map (Matching.list_zipIdx hxs 0) ?_
      rintro ⟨v, i⟩ ⟨w, _⟩ ⟨hv, rfl⟩
      exact ⟨rfl, hv⟩
    dsimp only
    rw [Matching.list_length hxs]
    refine .bind (writeElements_follows (hs (hr (hq h))) he ⟨rfl, ?_⟩) fun t ht _ _ _ => ?_
    · exact Matching.list_append (Matching.list_append (he.moved 0 start 0) hitems)
        (he.moved _ _ _)
    · exact .bind (arrayOfElements_follows ⟨rfl, (he.mono ht).moved start (start + n) 0⟩
        (htidy.part (by omega))) fun _ _ _ _ hi => .pure (.ref hi)
  have hcount := Matching.list_getElem? hxs 1
  generalize xs[1]? = x at hcount
  generalize ys[1]? = y at hcount
  cases hcount with
  | none => exact .bind (.pure rfl) hreplace
  | some hcount =>
    refine .bind (toPosition_follows hcount) ?_
    rintro s hs n _ rfl
    exact .bind (.pure rfl) fun t ht => hreplace t (hs.trans ht)

theorem slice_follows (h : p.ids a b) (hxs : Matching.list Value.Matches p xs ys) :
    S.Follows js p Value.Matches (slice a xs) (slice b ys) := by
  unfold slice
  refine .bind (readElements_follows h |>.yields (readElements_tidy a)) fun q hq e f ⟨he, htidy⟩ => ?_
  have hxs := Matching.list_mono Value.Matches.mono hq hxs
  rw [he.length]
  refine .bind (positionFromEnd_follows hxs 0 _ 0) ?_
  rintro r hr start _ rfl
  refine .bind (positionFromEnd_follows (Matching.list_mono Value.Matches.mono hr hxs) 1 _ _) ?_
  rintro s hs stop _ rfl
  exact .bind (arrayOfElements_follows ⟨rfl, (he.mono (hr.trans hs)).moved _ _ 0⟩
    (htidy.part (Nat.le_refl _))) fun _ _ _ _ hi => .pure (.ref hi)

theorem isArray_follows (h : Value.Matches p v w) :
    S.Follows js p .same (isArray v) (isArray w) := by
  refine .bind (payload?_follows h) ?_
  rintro _ _ payload _ rfl
  split <;> exact .pure rfl

theorem append_follows {e f : Elements} (he : Elements.Matches p e f) (hv : Value.Matches p v w) :
    S.Follows js p Elements.Matches (append e v) (append f w) := by
  have hone : ∀ q, p ≤ q → S.Follows js q Elements.Matches
      (pure ⟨e.length + 1, e.present ++ [(e.length, v.unbound)]⟩)
      (pure ⟨f.length + 1, f.present ++ [(f.length, w.unbound)]⟩) := fun q hq => by
    have he := he.mono hq
    rw [he.length]
    exact .pure ⟨rfl, Matching.list_append he.present (.cons ⟨rfl, (hv.mono hq).unbound⟩ .nil)⟩
  unfold append
  refine .bind (isArray_follows hv) ?_
  rintro q hq c _ rfl
  have hid := hv.id?
  generalize v.id? = i at hid
  generalize w.id? = j at hid
  cases hid with
  | none => exact hone q hq
  | some hid =>
    cases c with
    | false => exact hone q hq
    | true =>
      refine .bind (readElements_follows (hq hid)) fun r hr e' f' he' => .pure ?_
      have he := he.mono (hq.trans hr)
      refine ⟨congrArg₂ (· + ·) he.length he'.length, Matching.list_append he.present ?_⟩
      rw [he.length, he'.length]
      exact he'.moved _ _ _

theorem concat_follows (h : p.ids a b) (hxs : Matching.list Value.Matches p xs ys) :
    S.Follows js p Value.Matches (concat a xs) (concat b ys) := by
  unfold concat
  refine .bind (readElements_follows h |>.yields (readElements_tidy a)) fun q hq e f he => ?_
  refine .bind (.fold (U := fun p e f => Elements.Matches p e f ∧ e.Tidy)
    (Matching.list_mono Value.Matches.mono hq hxs) Value.Matches.mono he
    fun _ _ _ _ _ _ he hv => (append_follows he.1 hv).yields (append_tidy he.2 _))
    fun r hr e f ⟨he, htidy⟩ => ?_
  have harray : ∀ s, r ≤ s → S.Follows js s Value.Matches
      (do return .ref (← arrayOfElements e)) (do return .ref (← arrayOfElements f)) :=
    fun s hs => .bind (arrayOfElements_follows (he.mono hs) htidy) fun _ _ _ _ hi => .pure (.ref hi)
  rw [he.length]
  split
  · exact .bind (raise_follows (V := .same) _ _) fun s hs _ _ _ => harray s hs
  · exact harray r (le_refl r)

/-! ## Application -/

theorem fillArray_follows (hxs : Matching.list Value.Matches p xs ys) (h : p.ids a b) :
    S.Follows js p Value.Matches (fillArray xs a) (fillArray ys b) := by
  have hall : S.Follows js p Value.Matches
      (do
        Script.fold (fun _ x => do
          let _ ← writeMember a (ArrayIndex.name x.2) x.1) xs.zipIdx ()
        return .ref a)
      (do
        Script.fold (fun _ x => do
          let _ ← writeMember b (ArrayIndex.name x.2) x.1) ys.zipIdx ()
        return .ref b) := by
    refine .bind (.fold (U := .same) (Matching.list_zipIdx hxs 0)
      (Matching.both_mono Value.Matches.mono Matching.same_mono) rfl ?_)
      fun _ hq _ _ _ => .pure (.ref (hq h))
    rintro q hq s t ⟨v, k⟩ ⟨w, _⟩ - ⟨hv, rfl⟩
    exact .bind (writeMember_follows (hq h) _ hv) fun _ _ _ _ _ => .pure rfl
  cases hxs with
  | nil => exact hall
  | cons hx hrest =>
    cases hrest with
    | cons _ _ => cases hx <;> exact hall
    | nil =>
      cases hx with
      | number n =>
        exact .bind (writeMember_follows h _ (.number n)) fun _ hq _ _ _ => .pure (.ref (hq h))
      | _ => exact hall

theorem constructArray_follows (hv : Value.Matches p v w)
    (hxs : Matching.list Value.Matches p xs ys) :
    S.Follows js p Value.Matches (constructArray v xs) (constructArray w ys) := by
  have hfill : ∀ q, p ≤ q → ∀ i j, q.ids i j →
      S.Follows js q Value.Matches (fillArray xs i) (fillArray ys j) := fun q hq i j hi =>
    fillArray_follows (Matching.list_mono Value.Matches.mono hq hxs) hi
  unfold constructArray
  refine .bind isConstructing_follows ?_
  rintro q hq c _ rfl
  have hid := hv.id?
  generalize v.id? = i at hid
  generalize w.id? = j at hid
  have hnew : S.Follows js q Value.Matches _ _ :=
    .bind (newArray_follows 0) fun r hr i j hi => hfill r (hq.trans hr) i j hi
  cases hid with
  | none => cases c <;> exact hnew
  | some hid =>
    cases c with
    | false => exact hnew
    | true =>
      exact .bind (.modifyObject (hq hid) (.makeArray 0) fun _ ho => ho.makeArray _ 0) fun r hr _ _ _ =>
        .bind (.pure (hr (hq hid))) fun s hs i j hi => hfill s ((hq.trans hr).trans hs) i j hi

theorem applyArray_follows (f : ArrayFunction) (hv : Value.Matches p v w)
    (hxs : Matching.list Value.Matches p xs ys) :
    S.Follows js p Value.Matches (applyArray f v xs) (applyArray f w ys) := by
  have hV := Matching.list_mono Value.Matches.mono
  unfold applyArray
  cases f with
  | construct => exact constructArray_follows hv hxs
  | toText => exact .bind (toObject_follows hv) fun _ _ _ _ hi => join_follows hi .nil
  | join => exact .bind (toObject_follows hv) fun _ hq _ _ hi => join_follows hi (hV hq hxs)
  | reverse =>
    refine .bind (toObject_follows hv) fun q hq i j hi => ?_
    refine .bind (readElements_follows hi) fun r hr e f he => ?_
    exact .bind (writeElements_follows (hr hi) he he.reverse) fun _ hs _ _ _ =>
      .pure (.ref (hs (hr hi)))
  | sort => exact .bind (toObject_follows hv) fun _ hq _ _ hi => sort_follows hi (hV hq hxs)
  | push => exact .bind (toObject_follows hv) fun _ hq _ _ hi => push_follows hi (hV hq hxs)
  | pop => exact .bind (toObject_follows hv) fun _ _ _ _ hi => pop_follows hi
  | shift => exact .bind (toObject_follows hv) fun _ _ _ _ hi => shift_follows hi
  | unshift => exact .bind (toObject_follows hv) fun _ hq _ _ hi => unshift_follows hi (hV hq hxs)
  | splice => exact .bind (toObject_follows hv) fun _ hq _ _ hi => splice_follows hi (hV hq hxs)
  | slice => exact .bind (toObject_follows hv) fun _ hq _ _ hi => slice_follows hi (hV hq hxs)
  | concat => exact .bind (toObject_follows hv) fun _ hq _ _ hi => concat_follows hi (hV hq hxs)

end Simulation

end PageScript
