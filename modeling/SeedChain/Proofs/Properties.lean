import SeedChain.Proofs.Calls
import SeedChain.Proofs.Entries
import SeedChain.Value.Read
/-!
# Properties as maps

Properties are maps in the order of insertion, and so are sections, whose values are properties. Keys and
names of sections are distinct in what is read (`keys_nodup_of_read`, `wellFormed_of_read`), and every
call that goes on with such a map sets a value, takes one out or changes nothing (`eq_of_invoke`), so they
are distinct in all maps that calls make of it.

Main result: on all these maps `set` and `remove` do to one key what they are called for, and nothing to
any other, and `value` reads what has been set (`insertion_ordered`).
-/

namespace SeedChain

variable {delimiter : Char} {store after : Store}

/-! ## Properties -/

namespace Properties

variable {p q : Properties} {t : Text}

theorem keys_nodup_of_addLine {line : Text} (h : addLine line p = .ok q) (hp : (Entries.keys p).Nodup) :
    (Entries.keys q).Nodup := by
  unfold addLine at h
  obtain ⟨key, value⟩ := readEntry line
  simp only at h
  split at h
  · cases h
  · cases h
    exact Entries.keys_set_nodup hp

theorem keys_nodup_of_read (h : read t = .ok p) : (Entries.keys p).Nodup :=
  foldlM_invariant (P := fun p => (Entries.keys p).Nodup) h List.nodup_nil
    fun _ _ _ _ hp hline => keys_nodup_of_addLine hline hp

open Operation in
/-- A call that goes on with properties has changed nothing, or set a key, or taken one out. -/
theorem eq_of_invoke {name : Text} {args : List Text}
    (h : (Value.config p).invoke delimiter name args store = (.ok (some (.config q)), after)) :
    q = p ∨ (∃ key value, q = Entries.set key value p) ∨ ∃ key, q = Entries.remove key p := by
  obtain ⟨op, hmem, bound, hrun⟩ := exists_run_of_call h
  simp only [operations, withShared, fixed, List.mem_cons, List.not_mem_nil, or_false] at hmem
  rcases hmem with rfl | rfl | rfl | rfl | rfl | rfl | rfl <;> simp only [run] at hrun
  · cases hrun
    exact .inl rfl
  · cases hrun
  · obtain ⟨value, -, hvalue⟩ := Option.map_eq_some_iff.1 (Except.ok.inj (Prod.mk.inj hrun).1)
    cases hvalue
  · cases hkey : bound.required 0 "set" with
    | error error =>
      rw [hkey] at hrun
      cases hrun
    | ok key =>
      rw [hkey] at hrun
      cases hrun
      exact .inr (.inl ⟨_, _, rfl⟩)
  · cases hrun
    exact .inr (.inr ⟨_, rfl⟩)
  · cases hrun
  · cases hrun

theorem keys_nodup_of_invoke {name : Text} {args : List Text} (hp : (Entries.keys p).Nodup)
    (h : (Value.config p).invoke delimiter name args store = (.ok (some (.config q)), after)) :
    (Entries.keys q).Nodup := by
  obtain rfl | ⟨key, value, rfl⟩ | ⟨key, rfl⟩ := eq_of_invoke h
  · exact hp
  · exact Entries.keys_set_nodup hp
  · exact Entries.keys_remove_nodup key hp

/-- Keys are distinct, `value` reads a key, and `set` and `remove` change this key alone. A value that is
not given is the empty text. -/
structure IsOrderedMap (delimiter : Char) (p : Properties) : Prop where
  keys_nodup : (Entries.keys p).Nodup
  value : ∀ (key : Text) (store : Store),
    (Value.config p).invoke delimiter "value".toList [key] store =
      (goOnIf ((Entries.get? key.trim p).map .text), store)
  set : ∀ (key : Text) (values : List Text) (store : Store), values.length ≤ 1 → ∃ q,
    (Value.config p).invoke delimiter "set".toList (key :: values) store = (goOn (.config q), store) ∧
      Entries.Sets key.trim (values.headD []) p q
  remove : ∀ (key : Text) (store : Store), ∃ q,
    (Value.config p).invoke delimiter "remove".toList [key] store = (goOn (.config q), store) ∧
      Entries.Removes key.trim p q

theorem invoke_set (p : Properties) (delimiter : Char) (key : Text) {values : List Text}
    (hvalues : values.length ≤ 1) (store : Store) :
    (Value.config p).invoke delimiter "set".toList (key :: values) store =
      (goOn (.config (Entries.set key.trim (values.headD []) p)), store) := by
  match values, hvalues with
  | [], _ => rfl
  | [value], _ => rfl

theorem isOrderedMap (delimiter : Char) (h : (Entries.keys p).Nodup) : p.IsOrderedMap delimiter where
  keys_nodup := h
  value _ _ := rfl
  set key _ store hvalues := ⟨_, invoke_set p delimiter key hvalues store, Entries.sets_set ..⟩
  remove key _ := ⟨Entries.remove key.trim p, rfl, Entries.removes_remove _ h⟩

end Properties

/-! ## Sections -/

namespace Sections

variable {s next : Sections} {p : Properties} {name key value t : Text}

/-- The section without a name is the first, names of sections are distinct, and in each section keys
are. -/
structure WellFormed (s : Sections) : Prop where
  head : (Entries.keys s).head? = some []
  nodup : (Entries.keys s).Nodup
  keys_nodup : ∀ e ∈ s, (Entries.keys e.2).Nodup

theorem wellFormed_start : WellFormed start where
  head := rfl
  nodup := List.nodup_singleton _
  keys_nodup e he := by
    rw [List.mem_singleton.1 he]
    exact List.nodup_nil

namespace WellFormed

theorem propertiesOf_nodup (h : s.WellFormed) (name : Text) :
    (Entries.keys (propertiesOf name s)).Nodup := by
  unfold propertiesOf
  cases hget : Entries.get? name s with
  | none => exact List.nodup_nil
  | some p => exact h.keys_nodup _ (Entries.mem_of_get? hget)

/-- A section may be set to any properties with distinct keys. -/
theorem set (h : s.WellFormed) (name : Text) (hp : (Entries.keys p).Nodup) :
    WellFormed (Entries.set name p s) where
  head := by
    rw [Entries.keys_set]
    split
    · exact h.head
    · rw [List.head?_append, h.head]
      rfl
  nodup := Entries.keys_set_nodup h.nodup
  keys_nodup e he := by
    rcases Entries.mem_set he with rfl | he
    · exact hp
    · exact h.keys_nodup e he

theorem setValue (h : s.WellFormed) (name key value : Text) : WellFormed (setValue name key value s) :=
  h.set name (Entries.keys_set_nodup (h.propertiesOf_nodup name))

theorem removeKey (h : s.WellFormed) (name key : Text) : WellFormed (removeKey name key s) := by
  unfold Sections.removeKey
  split
  · rename_i p hp
    exact h.set name (Entries.keys_remove_nodup key (h.keys_nodup _ (Entries.mem_of_get? hp)))
  · exact h

theorem removeSection (h : s.WellFormed) (name : Text) : WellFormed (removeSection name s) := by
  unfold Sections.removeSection
  split
  · exact h
  · rename_i hname
    refine ⟨?_, Entries.keys_remove_nodup name h.nodup, fun e he =>
      h.keys_nodup e (List.mem_of_mem_filter he)⟩
    -- the first section has no name, so it is kept
    obtain ⟨names, hnames⟩ : ∃ names, Entries.keys s = [] :: names := List.head?_eq_some_iff.1 h.head
    rw [Entries.keys_remove, hnames, List.filter_cons_of_pos (by simpa using Ne.symm hname)]
    rfl

end WellFormed

theorem wellFormed_of_readLines {current : Text} {lines : List Text}
    (h : readLines current s lines = .ok next) (hs : s.WellFormed) : next.WellFormed := by
  induction lines generalizing current s with
  | nil =>
    cases h
    exact hs
  | cons line lines ih =>
    unfold readLines at h
    split at h
    · rename_i header
      split at h
      · rename_i name hname
        exact ih h (hs.set (Text.trim name) (hs.propertiesOf_nodup _))
      · cases h
    · split at h
      · rename_i p hp
        have hnodup := Properties.keys_nodup_of_addLine hp (hs.propertiesOf_nodup current)
        exact ih h (hs.set current hnodup)
      · cases h

theorem wellFormed_of_read (h : read t = .ok s) : s.WellFormed :=
  wellFormed_of_readLines h wellFormed_start

open Operation in
/-- A call that goes on with sections has changed nothing, or set a key, or taken out a key or a
section. -/
theorem eq_of_invoke {called : Text} {args : List Text}
    (h : (Value.ini s).invoke delimiter called args store = (.ok (some (.ini next)), after)) :
    next = s ∨ (∃ name key value, next = setValue name key value s) ∨
      (∃ name key, next = removeKey name key s) ∨ ∃ name, next = removeSection name s := by
  obtain ⟨op, hmem, bound, hrun⟩ := exists_run_of_call h
  simp only [operations, withShared, fixed, List.mem_cons, List.not_mem_nil, or_false] at hmem
  rcases hmem with rfl | rfl | rfl | rfl | rfl | rfl | rfl <;> simp only [run] at hrun
  · cases hrun
    exact .inl rfl
  · cases hrun
  · obtain ⟨value, -, hvalue⟩ := Option.map_eq_some_iff.1 (Except.ok.inj (Prod.mk.inj hrun).1)
    cases hvalue
  · cases hkey : bound.required 1 "set" with
    | error error =>
      rw [hkey] at hrun
      cases hrun
    | ok key =>
      rw [hkey] at hrun
      cases hrun
      exact .inr (.inl ⟨_, _, _, rfl⟩)
  · cases hrun
    split
    · exact .inr (.inr (.inr ⟨_, rfl⟩))
    · exact .inr (.inr (.inl ⟨_, _, rfl⟩))
  · cases hrun
  · cases hrun

theorem WellFormed.of_invoke {called : Text} {args : List Text} (hs : s.WellFormed)
    (h : (Value.ini s).invoke delimiter called args store = (.ok (some (.ini next)), after)) :
    next.WellFormed := by
  obtain rfl | ⟨name, key, value, rfl⟩ | ⟨name, key, rfl⟩ | ⟨name, rfl⟩ := eq_of_invoke h
  · exact hs
  · exact hs.setValue name key value
  · exact hs.removeKey name key
  · exact hs.removeSection name

/-- A key of a section has got a value, and no other key or section another one. The section is the last
if it is new. -/
structure SetsKey (name key value : Text) (before after : Sections) : Prop where
  names_eq : Entries.keys after =
    if name ∈ Entries.keys before then Entries.keys before else Entries.keys before ++ [name]
  others : ∀ other ≠ name, Entries.get? other after = Entries.get? other before
  within : Entries.Sets key value (propertiesOf name before) (propertiesOf name after)

/-- A key of a section is gone. All sections stay, and no other one has changed. -/
structure RemovesKey (name key : Text) (before after : Sections) : Prop where
  names_eq : Entries.keys after = Entries.keys before
  others : ∀ other ≠ name, Entries.get? other after = Entries.get? other before
  within : Entries.Removes key (propertiesOf name before) (propertiesOf name after)

theorem propertiesOf_set (name : Text) (p : Properties) (s : Sections) :
    propertiesOf name (Entries.set name p s) = p := by
  rw [propertiesOf, Entries.get?_set_self]
  rfl

theorem setsKey_setValue (name key value : Text) (s : Sections) :
    SetsKey name key value s (setValue name key value s) where
  names_eq := Entries.keys_set ..
  others _ h := Entries.get?_set_ne h ..
  within := by
    rw [setValue, propertiesOf_set]
    exact Entries.sets_set ..

theorem removesKey_removeKey (hs : s.WellFormed) (name key : Text) :
    RemovesKey name key s (removeKey name key s) := by
  have hnodup := hs.propertiesOf_nodup name
  unfold removeKey
  cases hget : Entries.get? name s with
  | none =>
    have hempty : propertiesOf name s = [] := by
      rw [propertiesOf, hget]
      rfl
    exact ⟨rfl, fun _ _ => rfl, hempty ▸ Entries.removes_remove key List.nodup_nil⟩
  | some p =>
    obtain rfl : propertiesOf name s = p := by
      rw [propertiesOf, hget]
      rfl
    refine ⟨?_, fun _ h => Entries.get?_set_ne h .., ?_⟩
    · rw [Entries.keys_set, if_pos (Entries.mem_keys_of_get? hget)]
    · simp only [propertiesOf_set]
      exact Entries.removes_remove key hnodup

/-- The sections are well formed, `value` reads a key, `set` and `remove` change this key alone, and
without a key `remove` takes out the section, if it has a name. A key that is given as blanks is none,
and a value that is not given is the empty text. -/
structure IsOrderedMap (delimiter : Char) (s : Sections) : Prop where
  wellFormed : s.WellFormed
  value : ∀ (name key : Text) (store : Store),
    (Value.ini s).invoke delimiter "value".toList [name, key] store =
      (goOnIf ((value? name.trim key.trim s).map .text), store)
  set : ∀ (name key : Text) (values : List Text) (store : Store), values.length ≤ 1 → ∃ next,
    (Value.ini s).invoke delimiter "set".toList (name :: key :: values) store =
      (goOn (.ini next), store) ∧ SetsKey name.trim key.trim (values.headD []) s next
  removeKey : ∀ (name key : Text) (store : Store), key.trim ≠ [] → ∃ next,
    (Value.ini s).invoke delimiter "remove".toList [name, key] store = (goOn (.ini next), store) ∧
      RemovesKey name.trim key.trim s next
  removeSection : ∀ (name : Text) (keys : List Text) (store : Store), keys.length ≤ 1 →
    (∀ key : Text, key ∈ keys → key.trim = []) → ∃ next,
      (Value.ini s).invoke delimiter "remove".toList (name :: keys) store = (goOn (.ini next), store) ∧
        (name.trim = [] → next = s) ∧ (name.trim ≠ [] → Entries.Removes name.trim s next)

theorem invoke_set (s : Sections) (delimiter : Char) (name key : Text) {values : List Text}
    (hvalues : values.length ≤ 1) (store : Store) :
    (Value.ini s).invoke delimiter "set".toList (name :: key :: values) store =
      (goOn (.ini (setValue name.trim key.trim (values.headD []) s)), store) := by
  match values, hvalues with
  | [], _ => rfl
  | [value], _ => rfl

theorem isOrderedMap (delimiter : Char) (h : s.WellFormed) : s.IsOrderedMap delimiter where
  wellFormed := h
  value _ _ _ := rfl
  set name key _ store hvalues :=
    ⟨_, invoke_set s delimiter name key hvalues store, setsKey_setValue ..⟩
  removeKey name key store hkey := by
    refine ⟨Sections.removeKey name.trim key.trim s, ?_, removesKey_removeKey h ..⟩
    have hbody : removeAt delimiter s (Args.bind (.fixed 2) [name, key]) =
        goOn (.ini (Sections.removeKey name.trim key.trim s)) :=
      congrArg (fun s => goOn (.ini s)) (if_neg hkey)
    exact congrArg (·, store) hbody
  removeSection name keys store hkeys hblank := by
    refine ⟨Sections.removeSection name.trim s, ?_, fun hname => if_pos hname, fun hname => ?_⟩
    · match keys, hkeys with
      | [], _ => rfl
      | [key], _ =>
        have hbody : removeAt delimiter s (Args.bind (.fixed 2) [name, key]) =
            goOn (.ini (Sections.removeSection name.trim s)) :=
          congrArg (fun s => goOn (.ini s)) (if_pos (hblank key (List.mem_singleton_self key)))
        exact congrArg (·, store) hbody
    · rw [Sections.removeSection, if_neg hname]
      exact Entries.removes_remove name.trim h.nodup

end Sections

/-! ## Insertion order -/

/-- A value of a type has been read as its carrier. -/
theorem eq_ok_of_map_eq_ok {α : Type} {carrier : α → Value} {result : Except Reason α} {x : α}
    (hinj : ∀ a b, carrier a = carrier b → a = b) (h : carrier <$> result = .ok (carrier x)) :
    result = .ok x := by
  cases result with
  | error reason => cases h
  | ok a => rw [hinj a x (Except.ok.inj h)]

/-- Whatever properties or sections are read, and whatever calls make of them: they are maps in the order
of insertion. -/
theorem insertion_ordered (env : Environment) (t : Text) :
    (∀ start p, Value.read env .config t = .ok (.config start) →
      Value.Becomes .config env.delimiter start p → Properties.IsOrderedMap env.delimiter p) ∧
    ∀ start s, Value.read env .ini t = .ok (.ini start) →
      Value.Becomes .ini env.delimiter start s → Sections.IsOrderedMap env.delimiter s := by
  constructor
  · intro start p hread hbecomes
    have hstart : Properties.read t = .ok start :=
      eq_ok_of_map_eq_ok (fun _ _ => Value.config.inj) hread
    have hnodup : (Entries.keys p).Nodup := hbecomes.invariant (Properties.keys_nodup_of_read hstart)
      fun _ _ _ _ _ _ => Properties.keys_nodup_of_invoke
    exact Properties.isOrderedMap _ hnodup
  · intro start s hread hbecomes
    have hstart : Sections.read t = .ok start := eq_ok_of_map_eq_ok (fun _ _ => Value.ini.inj) hread
    have hwell : s.WellFormed := hbecomes.invariant (Sections.wellFormed_of_read hstart)
      fun _ _ _ _ _ _ => Sections.WellFormed.of_invoke
    exact Sections.isOrderedMap _ hwell

/-- A repeated key keeps its place and a section is gone on with; then the key is set and taken out. -/
theorem insertion_ordered_repeated :
    let env := Environment.plain ','
    let t : Text := "k=1\n[a]\nx = 2\n[b]\n[ a ]\ny:4\nx=3".toList
    let properties : Properties := [(['k'], ['1']), ("[a]".toList, []), (['x'], ['3']),
      ("[b]".toList, []), ("[ a ]".toList, []), (['y'], ['4'])]
    let sections : Sections :=
      [([], [(['k'], ['1'])]), (['a'], [(['x'], ['3']), (['y'], ['4'])]), (['b'], [])]
    let p := Entries.set ['x'] ['9'] properties
    let s : Sections := [([], [(['k'], ['1'])]), (['a'], [(['y'], ['4'])]), (['b'], [])]
    Value.read env .config t = .ok (.config properties) ∧ Value.Becomes .config ',' properties p ∧
    Properties.IsOrderedMap ',' p ∧
    Value.read env .ini t = .ok (.ini sections) ∧ Value.Becomes .ini ',' sections s ∧
    Sections.IsOrderedMap ',' s := by
  intro env t properties sections p s
  have hproperties : Value.read env .config t = .ok (.config properties) := rfl
  have hsections : Value.read env .ini t = .ok (.ini sections) := rfl
  have hset : (Value.config properties).invoke ',' "set".toList [" x ".toList, ['9']] [] =
      (.ok (some (.config p)), []) := rfl
  have hremove : (Value.ini sections).invoke ',' "remove".toList [['a'], ['x']] [] =
      (.ok (some (.ini s)), []) := rfl
  have hp : Value.Becomes .config ',' properties p := .call .refl hset
  have hs : Value.Becomes .ini ',' sections s := .call .refl hremove
  obtain ⟨hconfig, hini⟩ := insertion_ordered env t
  exact ⟨hproperties, hp, hconfig _ _ hproperties hp, hsections, hs, hini _ _ hsections hs⟩

end SeedChain
