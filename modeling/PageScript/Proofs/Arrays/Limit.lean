import PageScript.Proofs.Arrays.Plain
import PageScript.Proofs.Arrays.Sorting

/-! # The limit of lengths

An array that has the last index of all has a length that its own hook refuses.  Below that limit the length
of an array can always be written back, and arrays can be reversed and sorted.
-/

set_option autoImplicit false

namespace PageScript

/-- Whether no variable is protected from the script that runs. -/
def Machine.Unlocked (m : Machine) : Prop :=
  ∀ a o, m.heap.get? a = some o → ∀ x ∈ o.members, x.key = 0 ∨ x.key = m.key

theorem Object.links_ofItems {Q : String → Link → Prop} {proto : Option ObjectId} {self : ObjectId}
    {items : List (Option Value)} (hplain : ∀ name, Q name .plain) (hlength : Q "length" (.hook .arrayLength self)) :
    (Object.ofItems proto self items).Links Q := by
  have hempty : (Object.empty proto).Links Q := fun x hx => absurd hx (Array.not_mem_empty x)
  have hmake : Object.Edit .identity self self _ _ := .makeArray items.length
  exact .foldl (fun o x ho => ho.push (hplain _)) _ (hmake.links hplain hlength hempty)

namespace Script

variable {α β : Type} {e : Engine} {m n k : Machine} {a : ObjectId} {name : String} {i : Nat} {v : Value}
  {x : Variable} {p : Location} {old new : Elements}

/-! ## Reading -/

theorem mem_of_at? (hx : m.heap.at? p = some x) : ∃ o, m.heap.get? p.object = some o ∧ x ∈ o.members := by
  obtain ⟨o, ho, hx⟩ := Option.bind_eq_some_iff.1 hx
  exact ⟨o, ho, Array.mem_of_find?_eq_some hx⟩

theorem key_of_unlocked (hopen : m.Unlocked) (hx : m.heap.at? p = some x) : x.key = 0 ∨ x.key = m.key := by
  obtain ⟨o, ho, hmem⟩ := mem_of_at? hx
  exact hopen p.object o ho x hmem

/-- Where the only hooks are those of lengths, a read of a variable runs nothing. -/
theorem readVariable_native (hm : m.heap.Lengthwise) (p : Location) (e : Engine) :
    ∃ v, Looks m.Unlocked (readVariable p) v e m := by
  cases hx : m.heap.at? (m.heap.resolve p) with
  | none =>
    refine ⟨.undefined, .of_eq ?_⟩
    unfold readVariable
    rw [bind_read, bind_read, show m.heap.own? (m.heap.resolve p).object (m.heap.resolve p).name = none from hx]
    rfl
  | some x =>
    obtain ⟨o, ho, hmem⟩ := mem_of_at? hx
    have hkey : m.Unlocked → x.key = 0 ∨ x.key = m.key := fun hopen => key_of_unlocked hopen hx
    cases hlink : x.link with
    | hook hook owner =>
      obtain ⟨rfl, -⟩ := hm.native ho x hmem hook owner hlink
      refine ⟨.ofNat (arrayLength m owner), (looks_of_readable hx fun h => ?_).weaken hkey⟩
      rw [readVariable_eq hx h, hlink]
      rfl
    | _ =>
      exact ⟨x.value, (looks_of_readable hx fun h =>
        readVariable_value hx (fun hook owner hl => by rw [hlink] at hl; cases hl) h e).weaken hkey⟩

theorem readMember_native (hm : m.heap.Lengthwise) (hname : name ≠ "prototype") (a : ObjectId) (e : Engine) :
    ∃ v, Looks m.Unlocked (readMember (.ref a) name) v e m := by
  cases hholder : m.heap.findOwner a name with
  | none =>
    refine ⟨.undefined, .of_eq ?_⟩
    show readObjectMember a name e m = _
    unfold readObjectMember
    rw [bind_read, hholder]
    dsimp only
    rw [if_neg (fun h => hname (beq_iff_eq.1 h))]
    rfl
  | some holder =>
    obtain ⟨v, hv⟩ := readVariable_native hm ⟨holder, name⟩ e
    obtain ⟨w, hw, -⟩ := bindReceiver_unbound v a e m
    exact ⟨w, (hv.bind (.of_eq hw)).congr (readObjectMember_eq hholder e)⟩

/-- The elements of an array are read without a change, as many as it has. -/
theorem readElements_native (hm : m.heap.Lengthwise) (ha : m.heap.HasArray a)
    (hlimit : arrayLength m a ≤ ArrayIndex.limit) (e : Engine) :
    ∃ old, Looks m.Unlocked (readElements a) old e m ∧ old.length = arrayLength m a := by
  obtain ⟨x, hx, -⟩ := length_link ha
  have hlength : Looks m.Unlocked (lengthOf a) (arrayLength m a) e m :=
    (lengthOf_array ha hx hlimit).weaken fun hopen => key_of_unlocked hopen hx
  have helement : ∀ i, ∃ v, i ∈ m.heap.indices a (arrayLength m a) →
      Looks m.Unlocked (readMember (.ref a) (ArrayIndex.name i)) v e m := by
    intro i
    by_cases hi : i ∈ m.heap.indices a (arrayLength m a)
    · have hlt := Heap.lt_of_mem_indices hi
      have hname : ArrayIndex.name i ≠ "prototype" := fun h => by
        have hnone : ArrayIndex.ofName? "prototype" = none := by decide
        rw [← h, ArrayIndex.ofName?_name (by omega)] at hnone
        cases hnone
      obtain ⟨v, hv⟩ := readMember_native hm hname a e
      exact ⟨v, fun _ => hv⟩
    · exact ⟨.undefined, fun h => absurd h hi⟩
  choose values hvalues using helement
  have hpresent : Looks m.Unlocked (each (fun i => do
      return (i, (← readMember (.ref a) (ArrayIndex.name i)).unbound)) (m.heap.indices a (arrayLength m a)))
      ((m.heap.indices a (arrayLength m a)).map fun i => (i, (values i).unbound)) e m :=
    .each fun i hi => (hvalues i hi).bind (.pure _)
  refine ⟨⟨arrayLength m a, (m.heap.indices a (arrayLength m a)).map fun i => (i, (values i).unbound)⟩,
    hlength.bind ?_, rfl⟩
  exact (Looks.of_eq (u := m.heap.indices a (arrayLength m a)) rfl).bind (hpresent.bind (.pure _))

/-! ## The length -/

/-- Below the limit, the length that an array answers with is one that it accepts. -/
theorem length_back {o : Object} {length : Nat} (ho : m.heap.get? a = some o) (hp : o.payload = .array length)
    (ha : m.heap.HasArray a) (hx : m.heap.at? ⟨a, "length"⟩ = some x) (hlt : length < ArrayIndex.limit)
    (e : Engine) : Looks (x.key = 0 ∨ x.key = m.key)
      (do writeMember a "length" (← readMember (.ref a) "length")) (.ofNat length) e m := by
  have hcounter : arrayLength m a = length := by rw [arrayLength_eq ho, Object.counter, hp]
  have hanswer := readMember_length (e := e) ha hx
  rw [hcounter] at hanswer
  refine hanswer.bind (.of_eq ?_)
  have hsame : m.heap.modify a (·.setLength length length) = m.heap := by
    refine (Heap.modify_congr fun o' ho' => ?_).trans (Heap.modify_id m.heap a)
    cases ho.symm.trans ho'
    rw [Object.setLength_eq, if_neg (Nat.lt_irrefl _), ← hp]
    rfl
  rw [writeMember_length_lt ha hlt, hcounter, hsame]

/-- At the limit, an array refuses the length that it answers with. -/
theorem length_refused (ha : m.heap.HasArray a) (hx : m.heap.at? ⟨a, "length"⟩ = some x)
    (hlimit : arrayLength m a = ArrayIndex.limit) (hkey : x.key = 0 ∨ x.key = m.key) (e : Engine) :
    (do writeMember a "length" (← readMember (.ref a) "length") : Script Value) e m
      = (raise .range "invalid array length" : Script Value) e m := by
  refine (bind_of_value ((readMember_length ha hx).yields hkey) _).trans ?_
  rw [hlimit]
  exact writeMember_length_limit ha e

/-! ## Writing -/

/-- A pass whose steps change the heap only, and keep a property of it, keeps the property. -/
theorem fold_heap {P : Heap → Prop} (step : Unit → β → Script Unit) (items : List β)
    (hstep : ∀ b ∈ items, ∀ m : Machine, P m.heap → ∃ n, step () b e m = .value () { m with heap := n } ∧ P n)
    (hm : P m.heap) : ∃ n, fold step items () e m = .value () { m with heap := n } ∧ P n := by
  induction items generalizing m with
  | nil => exact ⟨m.heap, rfl, hm⟩
  | cons b rest ih =>
    obtain ⟨n, hfirst, hn⟩ := hstep b (.head _) m hm
    obtain ⟨k, hrest, hk⟩ := ih (m := { m with heap := n }) (fun c hc => hstep c (.tail _ hc)) hn
    refine ⟨k, ?_, hk⟩
    rw [fold_cons]
    exact (bind_of_value hfirst _).trans hrest

/-- A write at an index leaves a plain array, whose length exceeds the index if it is a new one. -/
theorem writeMember_plain {o : Object} (ho : m.heap.get? a = some o) (hplain : o.PlainArray a)
    (hi : i < ArrayIndex.limit) (v : Value) (e : Engine) :
    ∃ f : Object → Object,
      writeMember a (ArrayIndex.name i) v e m = .value v { m with heap := m.heap.modify a f } ∧
      (f o).PlainArray a ∧ ∀ length, o.payload = .array length → (f o).payload
        = .array (if (o.find? (ArrayIndex.name i)).isSome then length else max length (i + 1)) := by
  have hstore : ∀ o : Object, o.PlainArray a → (o.store (ArrayIndex.name i) v.unbound).PlainArray a := fun _ =>
    (Object.Edit.store (p := .identity) (b := a) (ArrayIndex.name i) (.refl v)).plainArray
  cases hx : o.find? (ArrayIndex.name i) with
  | none =>
    refine ⟨_, writeMember_inserted ho hplain.isArray hi hx v e, hstore _ ?_, fun length hp => ?_⟩
    · exact (Object.Edit.addElement (p := .identity) (b := a) (ArrayIndex.name i) i).plainArray hplain
    · exact Object.payload_store.trans (Object.payload_addElement hp)
  | some x =>
    have hat : m.heap.at? ⟨a, ArrayIndex.name i⟩ = some x := by
      unfold Heap.at? Heap.own?
      rw [ho]
      exact hx
    have hlink : x.link = .plain := by
      have hname : x.name = ArrayIndex.name i := beq_iff_eq.1 (Array.find?_eq_some_iff_append.1 hx).1
      exact hplain.elements x (Array.mem_of_find?_eq_some hx) i (by rw [hname, ArrayIndex.ofName?_name hi])
    have hplace := Heap.resolve_of_plain hat hlink
    have hwrite := writeMember_stores (by rw [owns_eq_isSome, hat]; rfl) (by rw [hplace]; exact hat) hlink v e
    rw [hplace] at hwrite
    exact ⟨_, hwrite, hstore o hplain, fun length hp => Object.payload_store.trans hp⟩

theorem deleteMember_plain (ha : m.heap.HasPlainArray a) (name : String) (e : Engine) :
    ∃ gone n, deleteMember a name e m = .value gone { m with heap := n } ∧ n.HasPlainArray a := by
  rw [Simulation.deleteMember_eq]
  split
  · exact ⟨false, m.heap, rfl, ha⟩
  · refine ⟨true, _, rfl, ha.modifySlot fun _ s hs => ?_⟩
    exact (Object.Edit.discard (p := .identity) (b := a) name).plainArray hs
  · exact ⟨true, m.heap, rfl, ha⟩

/-- Elements are stored and deleted with success before the length is set. -/
theorem writeElements_plain (ha : m.heap.HasPlainArray a) (old : Elements)
    (hnew : ∀ x ∈ new.present, x.1 < ArrayIndex.limit) (e : Engine) :
    ∃ n, n.HasPlainArray a ∧ writeElements a old new e m
      = (do let _ ← writeMember a "length" (.ofNat new.length) : Script Unit) e { m with heap := n } := by
  obtain ⟨n, hwrites, hn⟩ := fold_heap (P := (Heap.HasPlainArray · a)) (e := e)
    (fun _ x => do let _ ← writeMember a (ArrayIndex.name x.1) x.2) new.present (fun x hx m hm => by
      obtain ⟨o, ho, hplain⟩ := hm
      obtain ⟨f, hwrite, hkept, -⟩ := writeMember_plain ho hplain (hnew x hx) x.2 e
      exact ⟨_, bind_of_value hwrite _, _, Heap.get?_modify_self ho, hkept⟩) ha
  obtain ⟨k, hdeletions, hk⟩ := fold_heap (P := (Heap.HasPlainArray · a)) (e := e) (m := { m with heap := n })
    (fun _ i => do let _ ← deleteMember a (ArrayIndex.name i))
    (missingFrom (old.present.map Prod.fst) (new.present.map Prod.fst)) (fun i _ m hm => by
      obtain ⟨gone, n, hdelete, hn⟩ := deleteMember_plain hm (ArrayIndex.name i) e
      exact ⟨n, bind_of_value hdelete _, hn⟩) hn
  exact ⟨k, hk, (bind_of_value hwrites _).trans (bind_of_value hdeletions _)⟩

/-- What comes of elements that a method writes back to an array of a length: below the limit of lengths they
are stored, and at the limit they are stored too but then the length is refused. -/
structure WrittenBack (length : Nat) (a : ObjectId) (e : Engine) (m : Machine) (o : Outcome Value) : Prop where
  below : length < ArrayIndex.limit → ∃ n, o = .value (.ref a) { m with heap := n } ∧ n.HasPlainArray a ∧
    arrayLength { m with heap := n } a = length
  limit : length = ArrayIndex.limit → ∃ n, n.HasPlainArray a ∧
    o = (raise .range "invalid array length" : Script Value) e { m with heap := n }

theorem writeElements_writtenBack (ha : m.heap.HasPlainArray a) (old new : Elements)
    (hnew : ∀ x ∈ new.present, x.1 < ArrayIndex.limit) (e : Engine) :
    WrittenBack new.length a e m ((do writeElements a old new; return .ref a : Script Value) e m) := by
  obtain ⟨n, hn, hwrite⟩ := writeElements_plain ha old hnew e
  refine ⟨fun hlength => ?_, fun hlength => ⟨n, hn, ?_⟩⟩
  · have hset := writeMember_length_lt (m := { m with heap := n }) hn.hasArray hlength e
    refine ⟨_, bind_of_value (hwrite.trans (bind_of_value hset _)) _, hn.modifySlot fun _ s hs =>
      hs.setLength _ _, ?_⟩
    obtain ⟨o, ho, -⟩ := hn
    exact arrayLength_eq (m := { m with heap := n.modify a _ }) (Heap.get?_modify_self ho)
  · have hset := writeMember_length_limit (m := { m with heap := n }) hn.hasArray e
    rw [hlength] at hwrite
    exact raise_bind (hwrite.trans (raise_bind hset _)) _

/-! ## Reversing and sorting -/

theorem tidy_length_le (h : old.Tidy) : old.present.length ≤ old.length := by
  have hsubset : old.present.map Prod.fst ⊆ List.range old.length := by
    intro i hi
    obtain ⟨x, hx, rfl⟩ := List.mem_map.1 hi
    exact List.mem_range.2 (h.below x hx)
  have hle := (List.subperm_of_subset (h.rising.imp Nat.ne_of_lt) hsubset).length_le
  rwa [List.length_map, List.length_range] at hle

theorem reverse_writtenBack (ha : m.heap.HasPlainArray a) (hread : readElements a e m = .value old m)
    (hlimit : old.length ≤ ArrayIndex.limit) (r : Option ObjectId) (args : List Value) :
    WrittenBack old.length a e m (applyArray .reverse (.object a r) args e m) := by
  have hbelow := (readElements_tidy a e m old m hread).below
  have heq : applyArray .reverse (.object a r) args e m
      = (do writeElements a old old.reverse; return .ref a : Script Value) e m := bind_of_value hread _
  rw [heq]
  refine writeElements_writtenBack ha old old.reverse (fun x hx => ?_) e
  obtain ⟨y, hy, rfl⟩ := List.mem_map.1 hx
  have hlt := hbelow y (List.mem_reverse.1 hy)
  show old.length - 1 - y.1 < ArrayIndex.limit
  omega

theorem sortValues_length {comparator : Option Value} {values sorted : List Value}
    (h : sortValues comparator values e m = .value sorted n) : sorted.length = values.length := by
  rw [Decision.follow_sort] at h
  have hreaches := Decision.reaches_of_follow (fun _ _ _ => True) h fun _ _ _ _ _ _ _ => trivial
  exact (Decision.sort_perm hreaches).length_eq

theorem sort_writtenBack {args : List Value} {sorted : List Value}
    (hcallable : ∀ f, given? args 0 = some f → callable? f e m ≠ .value none m)
    (hread : readElements a e m = .value old m) (hlimit : old.length ≤ ArrayIndex.limit)
    (hsort : sortValues (given? args 0) (old.present.map Prod.snd) e m = .value sorted k)
    (ha : k.heap.HasPlainArray a) (r : Option ObjectId) :
    WrittenBack old.length a e k (applyArray .sort (.object a r) args e m) := by
  have heq : applyArray .sort (.object a r) args e m
      = (do writeElements a old (.packed old.length sorted); return .ref a : Script Value) e k :=
    (sort_eq_sortElements hcallable).trans ((bind_of_value hread _).trans (bind_of_value hsort _))
  rw [heq]
  refine writeElements_writtenBack ha old (.packed old.length sorted) (fun x hx => ?_) e
  obtain ⟨y, hy, rfl⟩ := List.mem_map.1 hx
  have hlt := (List.mem_zipIdx hy).2.1
  have hcount := tidy_length_le (readElements_tidy a e m old m hread)
  rw [sortValues_length hsort, List.length_map] at hlt
  show y.2 < ArrayIndex.limit
  omega

/-! ## All arrays -/

variable {config : Config} {host : Host}

/-- A new array is plain. -/
theorem newArray_plain (hm : m.heap.Lengthwise) (length : Nat) (e : Engine) :
    ∃ a n, newArray length e m = .value a { m with heap := n } ∧ n.Lengthwise ∧ n.HasPlainArray a := by
  let I : Invariant := .plainness fun _ => False
  have hstart : I.inv .going (fun _ => False) m := ⟨⟨hm.counted, nofun⟩, hm.native, nofun⟩
  have halloc := I.alloc hstart (Object.ordinary_empty (some Intrinsic.array)) nofun
  have hmake : Object.Edit .identity (m.heap.alloc (.empty (some Intrinsic.array))).1
      (m.heap.alloc (.empty (some Intrinsic.array))).1 _ _ := .makeArray length
  obtain ⟨hcounted, hplain⟩ := I.edit halloc hmake nofun
  refine ⟨_, _, rfl, ⟨hcounted.1, hplain.native⟩, _, Heap.get?_modify_self (Heap.get?_new hm.counted.sound _),
    Object.isArray_makeArray _ length _, hmake.plainElements ?_⟩
  exact fun x hx => absurd hx (Array.not_mem_empty x)

/-- Arrays where the embedding program gives no hooks to objects, on all machines that it can come to, and
throughout the tasks and programs that run there.  They are plain if no element is a synonym, as in new
arrays, and then stay so.  Below the limit of lengths, the length that an array answers with is one that it
accepts, without any change, and a plain array is reversed and sorted with success unless its elements cannot
be read or compared.  At the limit the length is refused, even when elements have just been stored. -/
theorem length_writtenBack (config : Config) (host : Host) (hhost : host.Uses .unfilled .unfilled)
    (alarm : Outcome Value) (limit : Nat) (m : Machine) :
    (Interpreter.Reachable .unhooked config host m → m.heap.Lengthwise) ∧
    (m.heap.Lengthwise →
      (∀ t, performChecked .lengthwise alarm config host limit t m = performUpTo config host limit t m ∧
        (performUpTo config host limit t m).machine.heap.Lengthwise ∧
        ∀ a, m.heap.HasPlainArray a → (performUpTo config host limit t m).machine.heap.HasPlainArray a) ∧
      (∀ body this withs,
        runProgram body this withs (.checked .lengthwise alarm config host limit) m
          = runProgram body this withs (.upTo config host limit) m) ∧
      (∀ length e, ∃ a n, newArray length e m = .value a { m with heap := n } ∧ n.Lengthwise ∧
        n.HasPlainArray a) ∧
      ∀ a o length, m.heap.get? a = some o → o.payload = .array length → length ≤ ArrayIndex.limit →
        ((∀ x ∈ o.members, ∀ i, ArrayIndex.ofName? x.name = some i → ∀ b name, x.link ≠ .synonym b name) →
          m.heap.HasPlainArray a) ∧
        (∀ e, ∃ old, Looks m.Unlocked (readElements a) old e m ∧ old.length = length) ∧
        (∀ e, let back : Script Value := do writeMember a "length" (← readMember (.ref a) "length")
          (length < ArrayIndex.limit → Looks m.Unlocked back (.ofNat length) e m) ∧
          (length = ArrayIndex.limit → m.Unlocked →
            back e m = (raise .range "invalid array length" : Script Value) e m)) ∧
        (m.heap.HasPlainArray a →
          (∀ i v e, i < ArrayIndex.limit → ∃ n,
            writeMember a (ArrayIndex.name i) v e m = .value v { m with heap := n } ∧ n.HasPlainArray a ∧
            arrayLength { m with heap := n } a
              = if (o.find? (ArrayIndex.name i)).isSome then length else max length (i + 1)) ∧
          (∀ r args e old, readElements a e m = .value old m →
            WrittenBack length a e m (applyArray .reverse (.object a r) args e m)) ∧
          ∀ r args old sorted k, let e := Engine.upTo config host limit
            (∀ f, given? args 0 = some f → callable? f e m ≠ .value none m) →
            readElements a e m = .value old m →
            sortValues (given? args 0) (old.present.map Prod.snd) e m = .value sorted k →
            WrittenBack length a e k (applyArray .sort (.object a r) args e m))) := by
  refine ⟨lengthwise_of_reachable hhost, fun hm => ⟨fun t => ?_, fun body this withs => ?_, newArray_plain hm, ?_⟩⟩
  · exact perform_plain m.heap.HasPlainArray hhost hm (fun _ ha => ha) alarm limit t
  · have hhosts : (Invariant.plainness fun _ => False).Hosts config host := Invariant.plainness_hosts hhost
    exact (Invariant.runProgram_checked hhosts trivial Invariant.plainness_contained
      Invariant.plainness_ensures Invariant.plainness_programs alarm limit (fun _ _ => trivial)
      fun e n hn => by cases hn; exact ⟨⟨hm.counted, nofun⟩, hm.native, nofun⟩).1
  · intro a o length ho hp hlimit
    have ha : m.heap.HasArray a := ⟨o, ho, (hm.counted.objects ho).payload length hp⟩
    have hcounter : arrayLength m a = length := by rw [arrayLength_eq ho, Object.counter, hp]
    obtain ⟨x, hx, -⟩ := length_link ha
    have hkey : m.Unlocked → x.key = 0 ∨ x.key = m.key := fun hopen => key_of_unlocked hopen hx
    have hread := fun e => readElements_native hm ha (hcounter ▸ hlimit) e
    have hold : ∀ e old, readElements a e m = .value old m → old.length = length := by
      intro e old h
      obtain ⟨read, hlooks, hlength⟩ := hread e
      rw [(hlooks.only old m h).1, hlength, hcounter]
    refine ⟨hm.hasPlainArray ho hp, fun e => ?_, fun e => ⟨fun hlt => ?_, fun heq hopen => ?_⟩, fun hplain =>
      ⟨fun i v e hi => ?_, fun r args e old h => ?_, fun r args old sorted k => fun hcallable h hsort => ?_⟩⟩
    · obtain ⟨old, hlooks, hlength⟩ := hread e
      exact ⟨old, hlooks, hlength.trans hcounter⟩
    · exact (length_back ho hp ha hx hlt e).weaken hkey
    · exact length_refused ha hx (hcounter.trans heq) (hkey hopen) e
    · obtain ⟨o', ho', hplain⟩ := hplain
      cases ho.symm.trans ho'
      obtain ⟨f, hwrite, hkept, hpayload⟩ := writeMember_plain ho hplain hi v e
      have hget := Heap.get?_modify_self (f := f) ho
      refine ⟨_, hwrite, ⟨_, hget, hkept⟩, ?_⟩
      rw [arrayLength_eq (m := { m with heap := m.heap.modify a f }) hget, Object.counter, hpayload length hp]
    · have hlength := hold e old h
      rw [← hlength]
      exact reverse_writtenBack hplain h (hlength ▸ hlimit) r args
    · have hlength := hold _ old h
      have hkept := sortValues_plain (· = a) hhost hm (fun _ heq => heq ▸ hplain) hsort a rfl
      rw [← hlength]
      exact sort_writtenBack hcallable h (hlength ▸ hlimit) hsort hkept r

/-- An array of two texts with a hole between them, alone on a heap. -/
theorem length_writtenBack_hole :
    let host := Stock.plainPrinter (Stock.scripted none [] [])
    let items : List (Option Value) := [some (.string "a"), none, some (.string "b")]
    let m : Machine :=
      { (Interpreter.fresh {} host []).machine with
        heap := ⟨#[some ⟨.ofItems none ⟨0⟩ items, 0⟩], [], 0⟩ }
    (Interpreter.fresh {} host []).machine.heap.Lengthwise ∧ m.heap.Lengthwise ∧ m.heap.HasPlainArray ⟨0⟩ ∧
      ∀ e, (do writeMember ⟨0⟩ "length" (← readMember (.ref ⟨0⟩) "length") : Script Value) e m
          = .value (.ofNat 3) m ∧
        (∃ n, applyArray .reverse (.ref ⟨0⟩) [] e m = .value (.ref ⟨0⟩) { m with heap := n } ∧
          n.HasPlainArray ⟨0⟩ ∧ arrayLength { m with heap := n } ⟨0⟩ = 3) ∧
        ∃ n, writeMember ⟨0⟩ (ArrayIndex.name 4294967294) .null e m = .value .null { m with heap := n } ∧
          n.HasPlainArray ⟨0⟩ ∧ arrayLength { m with heap := n } ⟨0⟩ = ArrayIndex.limit := by
  intro host items m
  have hhost : host.Uses .unfilled .unfilled := Stock.plainPrinter_uses _ _ _
  have halone : ∀ a o, m.heap.get? a = some o → a = ⟨0⟩ ∧ o = .ofItems none ⟨0⟩ items := by
    rintro ⟨_ | i⟩ o ho
    · cases ho
      exact ⟨rfl, rfl⟩
    · cases ho
  have hm : m.heap.Lengthwise := by
    refine ⟨⟨⟨nofun, List.nodup_nil⟩, fun {a o} ho => ?_⟩, fun {a o} ho => ?_⟩ <;> obtain ⟨rfl, rfl⟩ := halone a o ho
    · have howner : (Object.ofItems none ⟨0⟩ items).Links fun _ link => ∀ owner,
          link = .hook .arrayLength owner → owner = ⟨0⟩ :=
        Object.links_ofItems (fun _ => nofun) fun owner h => by cases h; rfl
      have harray := (Object.sequence_ofItems : (Object.ofItems none ⟨0⟩ items).Sequence ⟨0⟩ _).isArray
      exact ⟨fun _ _ => harray, fun x hx owner hlink => ⟨howner x hx owner hlink, harray⟩⟩
    · exact Object.links_ofItems (fun _ => nofun) fun hook owner h => by cases h; exact ⟨rfl, rfl⟩
  have hopen : m.Unlocked := by
    intro a o ho x hx
    obtain ⟨-, rfl⟩ := halone a o ho
    exact .inl (Object.key_ofItems x hx)
  have hpayload : (Object.ofItems none ⟨0⟩ items).payload = .array 3 := Object.sequence_ofItems.payload
  have hplainLinks : (Object.ofItems none ⟨0⟩ items).Links fun _ link => ∀ b name, link = .synonym b name → False :=
    Object.links_ofItems (fun _ => nofun) nofun
  obtain ⟨hplain, hread, hback, hmethods⟩ :=
    ((length_writtenBack {} host hhost (.exhausted m) 0 m).2 hm).2.2.2 ⟨0⟩ _ 3 rfl hpayload (by decide)
  have ha := hplain fun x hx i _ b name hlink => hplainLinks x hx b name hlink
  obtain ⟨hwrite, hreverse, -⟩ := hmethods ha
  refine ⟨(length_writtenBack {} host hhost (.exhausted m) 0 _).1 (.fresh _), hm, ha, fun e => ⟨?_, ?_, ?_⟩⟩
  · exact ((hback e).1 (by decide)).yields hopen
  · obtain ⟨old, hold, -⟩ := hread e
    exact (hreverse none [] e old (hold.yields hopen)).below (by decide)
  · have hnew : (Object.ofItems none ⟨0⟩ items).find? (ArrayIndex.name 4294967294) = none := Object.find?_ofItems
    obtain ⟨n, hdone, hkept, hlength⟩ := hwrite 4294967294 .null e (by decide)
    rw [hnew] at hlength
    exact ⟨n, hdone, hkept, hlength⟩

end Script

end PageScript
