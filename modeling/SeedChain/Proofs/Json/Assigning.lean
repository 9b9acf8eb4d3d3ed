import SeedChain.Proofs.Json.Places
/-!
# Writing a value at a path

A value that has been written is read back by the same path, and a second one takes its place as if the
first had never been written. Whatever stood at a place beside the path is still there, and the keys of
an object keep their order, with a new one behind them (`Json.assign_is_lens`).

Where writing fails, the document has changed in one case: the path goes on with an index where nothing
stands. Then the members that the path names up to there have been created, with a `null` at the end
(`Json.error_changes_iff`).
-/

namespace SeedChain.Json

variable {path query : JsonPath} {doc written value found : Json} {place other : Location}

/-! ## What has been written -/

/-- Writing a value along a path: each segment names a step, and behind the last one is the value. Where
nothing stands on the way, it is taken for `null`. -/
inductive Writes (value : Json) : JsonPath → Json → Json → Prop
  | here (doc : Json) : Writes value [] doc value
  | behind {segment : PathSegment} {path : JsonPath} {step : Step} {doc child : Json} :
      target? segment doc = some step → Writes value path ((child? step doc).getD .null) child →
      Writes value (segment :: path) doc (put child step doc)

theorem Writes.assign_eq (h : Writes value path doc written) : assign value path doc = (.ok (), written) := by
  induction h with
  | here => rfl
  | behind htarget _ ih => rw [assign_of_target? htarget, ih]

theorem writes_of_assign (h : assign value path doc = (.ok (), written)) :
    Writes value path doc written := by
  induction path generalizing doc written with
  | nil =>
    cases h
    exact .here doc
  | cons segment path ih =>
    cases htarget : target? segment doc with
    | none =>
      rw [assign_of_target?_eq_none htarget] at h
      cases h
    | some step =>
      rw [assign_of_target? htarget] at h
      obtain ⟨hresult, rfl⟩ := Prod.mk.inj h
      exact .behind htarget (ih (Prod.ext hresult rfl))

namespace Writes

theorem lookup_eq (h : Writes value path doc written) : lookup path written = some value := by
  induction h with
  | here => rfl
  | behind htarget _ ih =>
    obtain ⟨hstep, hchild⟩ := resolve?_of_target? htarget _
    rw [lookup_of_steps hstep hchild, ih]

/-- Another value can be written as well, and what was written before makes no difference. -/
theorem again (h : Writes value path doc written) (value' : Json) :
    ∃ written', Writes value' path doc written' ∧ Writes value' path written written' := by
  induction h with
  | here doc => exact ⟨value', .here doc, .here value⟩
  | @behind segment path step doc child htarget _ ih =>
    obtain ⟨child', hdoc, hwritten⟩ := ih
    obtain ⟨-, hchild⟩ := resolve?_of_target? htarget child
    have hbehind : Writes value' path ((child? step (put child step doc)).getD .null) child' := by
      rwa [hchild]
    have hboth := Writes.behind (target?_put htarget child step) hbehind
    rw [put_put] at hboth
    exact ⟨put child' step doc, .behind htarget hdoc, hboth⟩

/-- A place that the path named before is the place where the value has been written. -/
theorem location?_eq (h : Writes value path doc written) (hplace : location? path doc = some place) :
    location? path written = some place := by
  induction h generalizing place with
  | here => exact hplace
  | @behind segment path step doc child htarget _ ih =>
    obtain ⟨hstep, hchild⟩ := resolve?_of_target? htarget child
    obtain ⟨step', former, rest, hstep', hformer, hrest, rfl⟩ := exists_of_location?_cons hplace
    obtain rfl : step = step' := Option.some.inj (hstep.symm.trans (resolve?_put hstep' child step))
    rw [hformer, Option.getD_some] at ih
    rw [location?_of_steps hstep hchild, ih hrest]
    rfl

/-! ## What is beside the path -/

/-- What stands neither where the value is written nor below is as it was, or one of its children has been
put, and then it is on the way to the place. -/
theorem lookup_beside (h : Writes value path doc written) (hplace : location? path written = some place)
    (hfound : lookup query doc = some found) (hother : location? query doc = some other)
    (hbeside : ¬ place <+: other) :
    lookup query written = some found ∨
      other <+: place ∧ ∃ step child, lookup query written = some (put child step found) := by
  induction h generalizing query place other with
  | here =>
    obtain rfl : [] = place := Option.some.inj hplace
    exact absurd List.nil_prefix hbeside
  | @behind segment path step doc child htarget _ ih =>
    cases query with
    | nil =>
      obtain rfl : doc = found := Option.some.inj hfound
      obtain rfl : [] = other := Option.some.inj hother
      exact .inr ⟨List.nil_prefix, step, child, rfl⟩
    | cons segment' query =>
      obtain ⟨step', former, hstep', hformer, hfound⟩ := exists_of_lookup_cons hfound
      rw [location?_of_steps hstep' hformer] at hother
      obtain ⟨otherRest, hotherRest, rfl⟩ := Option.map_eq_some_iff.1 hother
      have hresolved := resolve?_put hstep' child step
      by_cases hne : step' = step
      · subst hne
        obtain ⟨hstep, hchild⟩ := resolve?_of_target? htarget child
        rw [location?_of_steps hstep hchild] at hplace
        obtain ⟨placeRest, hplaceRest, rfl⟩ := Option.map_eq_some_iff.1 hplace
        rw [hformer, Option.getD_some] at ih
        rw [lookup_of_steps hresolved hchild, List.prefix_cons_inj]
        rw [List.prefix_cons_inj] at hbeside
        exact ih hplaceRest hfound hotherRest hbeside
      · left
        rw [lookup_of_steps hresolved ((child?_put_ne hne child doc).trans hformer)]
        exact hfound

end Writes

/-- The keys are the same in the same order, but for a new one at the end. -/
def KeepsOrder (before after : Entries Json) : Prop :=
  Entries.keys after = Entries.keys before ∨
    ∃ key, key ∉ Entries.keys before ∧ Entries.keys after = Entries.keys before ++ [key]

theorem exists_put_object (step : Step) (child : Json) (members : Entries Json) :
    ∃ members', put child step (.object members) = .object members' ∧ KeepsOrder members members' := by
  cases step with
  | member key =>
    refine ⟨Entries.set key child members, rfl, ?_⟩
    unfold KeepsOrder
    rw [Entries.keys_set]
    by_cases hmem : key ∈ Entries.keys members
    · exact .inl (if_pos hmem)
    · exact .inr ⟨key, hmem, if_neg hmem⟩
  | item => exact ⟨members, rfl, .inl rfl⟩

/-- A value that has been written is found at its path, and writing another one is as if the first had not
been written. The path names one place, which it named before if something stood there. What is found
elsewhere, neither on the way to this place nor below it, is found as before; and every object that the
value has not replaced has its keys in the order they had, at most a new one behind them. -/
theorem assign_is_lens {value doc written : Json} {path : JsonPath}
    (h : assign value path doc = (.ok (), written)) :
    lookup path written = some value ∧
    (∀ value', assign value' path written = assign value' path doc ∧
      (assign value' path doc).1 = .ok ()) ∧
    ∃ place, location? path written = some place ∧
      (∀ former, location? path doc = some former → former = place) ∧
      ∀ query found, lookup query doc = some found → ∃ other, location? query doc = some other ∧
        (¬ other <+: place → ¬ place <+: other → lookup query written = some found) ∧
        ∀ members, found = .object members → ¬ place <+: other →
          ∃ members', lookup query written = some (.object members') ∧ KeepsOrder members members' := by
  have hwrites := writes_of_assign h
  obtain ⟨place, hplace⟩ := exists_location? hwrites.lookup_eq
  refine ⟨hwrites.lookup_eq, fun value' => ?_, place, hplace, ?_, fun query found hfound => ?_⟩
  · obtain ⟨written', hdoc, hwritten⟩ := hwrites.again value'
    rw [hdoc.assign_eq, hwritten.assign_eq]
    exact ⟨rfl, rfl⟩
  · intro former hformer
    exact Option.some.inj ((hwrites.location?_eq hformer).symm.trans hplace)
  · obtain ⟨other, hother⟩ := exists_location? hfound
    refine ⟨other, hother, fun hway hbeside => ?_, ?_⟩
    · rcases hwrites.lookup_beside hplace hfound hother hbeside with hsame | ⟨honWay, -⟩
      · exact hsame
      · exact absurd honWay hway
    · rintro members rfl hbeside
      rcases hwrites.lookup_beside hplace hfound hother hbeside with hsame | ⟨-, step, child, hput⟩
      · exact ⟨members, hsame, .inl rfl⟩
      · obtain ⟨members', hobject, hkeys⟩ := exists_put_object step child members
        exact ⟨members', hput.trans (congrArg some hobject), hkeys⟩

/-- A `null` at the end of an array becomes an object, and so does a new member of it. -/
theorem assign_is_lens_created :
    let first : Json := .object [(['x'], .bool true)]
    let members : Entries Json := [(['b'], .null), (['a'], .array [first, .null])]
    let created : Json := .object [(['k'], .object [(['m'], .bool false)])]
    let written : Json := .object [(['b'], .null), (['a'], .array [first, created])]
    let path : JsonPath := [.field ['a'], .index (-1), .field ['k'], .field ['m']]
    let query : JsonPath := [.field ['a'], .index (-2), .field ['x']]
    assign (.bool false) path (.object members) = (.ok (), written) ∧
    lookup path written = some (.bool false) ∧
    assign .null path written = assign .null path (.object members) ∧
    location? path written = some [.member ['a'], .item 1, .member ['k'], .member ['m']] ∧
    lookup query (.object members) = some (.bool true) ∧
    location? query (.object members) = some [.member ['a'], .item 0, .member ['x']] ∧
    lookup query written = some (.bool true) ∧
    ∃ members', lookup [] written = some (.object members') ∧ KeepsOrder members members' := by
  intro first members created written path query
  have hassign : assign (.bool false) path (.object members) = (.ok (), written) := rfl
  have hplace : location? path written =
      some [.member ['a'], .item 1, .member ['k'], .member ['m']] := rfl
  have hquery : location? query (.object members) =
      some [.member ['a'], .item 0, .member ['x']] := rfl
  obtain ⟨hread, hagain, place, hlocation, -, hothers⟩ := assign_is_lens hassign
  obtain rfl := Option.some.inj (hlocation.symm.trans hplace)
  obtain ⟨other, hother, hapart, -⟩ := hothers query (.bool true) rfl
  obtain rfl := Option.some.inj (hother.symm.trans hquery)
  obtain ⟨root, hroot, -, hkeys⟩ := hothers [] (.object members) rfl
  obtain rfl := Option.some.inj hroot
  exact ⟨hassign, hread, (hagain .null).1, hplace, rfl, hquery, hapart (by decide) (by decide),
    hkeys members rfl (by decide)⟩

/-! ## When writing fails -/

/-- On `null`, an error that changes nothing is that of an index. -/
theorem index_of_error_of_null {e : Reason} (h : assign value path .null = (.error e, .null)) :
    ∃ n rest, path = .index n :: rest ∧ e = .indexOfNonArray n := by
  cases path with
  | nil => cases h
  | cons segment rest =>
    cases segment with
    | field name =>
      have htarget : target? (.field name) .null = some (.member name) := rfl
      rw [assign_of_target? htarget] at h
      exact nomatch (Prod.mk.inj h).2
    | index n =>
      cases h
      exact ⟨n, rest, rfl, rfl⟩

/-- Where writing fails, the document is as it was, or the path goes on with an index where nothing stood
before. -/
theorem unchanged_or_created_of_error {left : Json} {e : Reason}
    (h : assign value path doc = (.error e, left)) :
    left = doc ∨ ∃ before n rest, path = before ++ .index n :: rest ∧ e = .indexOfNonArray n ∧
      lookup before doc = none ∧ assign .null before doc = (.ok (), left) := by
  induction path generalizing doc left with
  | nil => cases h
  | cons segment path ih =>
    cases htarget : target? segment doc with
    | none =>
      rw [assign_of_target?_eq_none htarget] at h
      cases h
      exact .inl rfl
    | some step =>
      rw [assign_of_target? htarget] at h
      generalize hinner : assign value path ((child? step doc).getD .null) = inner at h
      obtain ⟨result, after⟩ := inner
      obtain ⟨rfl, rfl⟩ := Prod.mk.inj h
      rcases ih hinner with rfl | ⟨before, n, rest, rfl, rfl, hnothing, hcreated⟩
      · cases hchild : child? step doc with
        | some child =>
          rw [Option.getD_some]
          exact .inl (put_of_child? hchild)
        | none =>
          -- the first member that is created
          rw [hchild, Option.getD_none] at hinner
          obtain ⟨n, rest, rfl, rfl⟩ := index_of_error_of_null hinner
          refine .inr ⟨[segment], n, rest, rfl, rfl, ?_, ?_⟩
          · rw [lookup_of_target? htarget, hchild, Option.bind_none]
          · rw [assign_of_target? htarget]
            rfl
      · refine .inr ⟨segment :: before, n, rest, rfl, rfl, ?_, ?_⟩
        · rw [lookup_of_target? htarget]
          cases hchild : child? step doc with
          | none => rfl
          | some child => rwa [hchild] at hnothing
        · rw [assign_of_target? htarget, hcreated]

theorem getD_lookup_null (path : JsonPath) : (lookup path .null).getD .null = .null := by
  cases path with
  | nil => rfl
  | cons segment path => cases segment <;> rfl

/-- An index has nothing to be set on behind a path that finds nothing or a `null`. What the path names is
created before this is found out. -/
theorem Writes.error_of_index {left : Json} (h : Writes .null path doc left)
    (hnothing : (lookup path doc).getD .null = .null) (value : Json) (n : Int) (rest : JsonPath) :
    assign value (path ++ .index n :: rest) doc = (.error (.indexOfNonArray n), left) := by
  induction h with
  | here doc =>
    obtain rfl : doc = .null := hnothing
    rfl
  | @behind segment path step doc child htarget _ ih =>
    have hbehind : (lookup path ((child? step doc).getD .null)).getD .null = .null := by
      rw [lookup_of_target? htarget] at hnothing
      cases hchild : child? step doc with
      | none => exact getD_lookup_null path
      | some former => rwa [hchild] at hnothing
    rw [List.cons_append, assign_of_target? htarget, ih hbehind]

/-- Writing fails and changes the document exactly if the path goes on with an index where nothing stands,
and `null` can be written there. This is then what has been done: the members on the way have been
created. -/
theorem error_changes_iff {value doc left : Json} {path : JsonPath} {e : Reason} :
    assign value path doc = (.error e, left) ∧ left ≠ doc ↔
      ∃ before n rest, path = before ++ .index n :: rest ∧ e = .indexOfNonArray n ∧
        lookup before doc = none ∧ assign .null before doc = (.ok (), left) := by
  constructor
  · rintro ⟨herror, hchanged⟩
    exact (unchanged_or_created_of_error herror).resolve_left hchanged
  · rintro ⟨before, n, rest, rfl, rfl, hnothing, hcreated⟩
    have hwrites := writes_of_assign hcreated
    refine ⟨hwrites.error_of_index (by rw [hnothing]; rfl) value n rest, ?_⟩
    -- the path finds a `null` in what is left
    rintro rfl
    exact nomatch hnothing.symm.trans hwrites.lookup_eq

/-- A member and one inside it have been created when the index is met. -/
theorem error_changes_iff_nested :
    let doc : Json := .object [(['a'], .object [(['x'], .bool true)])]
    let left : Json := .object [(['a'], .object [(['x'], .bool true), (['b'], .object [(['c'], .null)])])]
    let before : JsonPath := [.field ['a'], .field ['b'], .field ['c']]
    lookup before doc = none ∧ assign .null before doc = (.ok (), left) ∧
    assign (.bool false) (before ++ [.index 0, .field ['d']]) doc = (.error (.indexOfNonArray 0), left) ∧
    left ≠ doc := by
  intro doc left before
  have hnothing : lookup before doc = none := rfl
  have hcreated : assign .null before doc = (.ok (), left) := rfl
  exact ⟨hnothing, hcreated,
    error_changes_iff.2 ⟨before, 0, [.field ['d']], rfl, rfl, hnothing, hcreated⟩⟩

/-- An index into a member that is not there fails, and leaves the member behind. -/
theorem error_leaves_created_member :
    let doc : Json := .object []
    let left : Json := .object [(['a'], .null)]
    assign (.bool true) [.field ['a'], .index 0] doc = (.error (.indexOfNonArray 0), left) ∧
      left ≠ doc := by
  intro doc left
  exact ⟨rfl, by simp [doc, left]⟩

end SeedChain.Json
