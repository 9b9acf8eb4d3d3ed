import SeedChain.Proofs.Json.Keys
/-!
# Taking out one entry

What is taken out along a path is one entry of one container: a member of an object or an item of an
array (`Json.TakenOut`). The container is left with its other entries in their order, the items behind the
one that is gone move up by one position, and nothing else in the document is changed. If nothing is taken
out, the document is as it was (`Json.delete_takes_one_out`).
-/

namespace SeedChain.Json

/-- The document with another value at a place. -/
def putAt (value : Json) : Location → Json → Json
  | [], _ => value
  | step :: place, doc =>
    match child? step doc with
    | some child => put (putAt value place child) step doc
    | none => doc

/-- One entry of a container is gone, and the entries before it and behind it are left. -/
inductive TakenOut (value : Json) : Step → Json → Json → Prop
  | member {before behind : Entries Json} {key : Text} :
      key ∉ Entries.keys (before ++ behind) →
      TakenOut value (.member key) (.object (before ++ (key, value) :: behind)) (.object (before ++ behind))
  | item {before behind : List Json} {i : Nat} :
      before.length = i →
      TakenOut value (.item i) (.array (before ++ value :: behind)) (.array (before ++ behind))

variable {path : JsonPath} {step : Step} {doc old value : Json} {place other below : Location}

/-! ## Another value at a place -/

theorem putAt_cons {child : Json} (hchild : child? step doc = some child) (value : Json)
    (place : Location) : putAt value (step :: place) doc = put (putAt value place child) step doc := by
  simp only [putAt, hchild]

/-- At the place and below it stands the new value. -/
theorem at?_putAt (h : at? place doc = some old) (value : Json) :
    at? place (putAt value place doc) = some value := by
  induction place generalizing doc with
  | nil => rfl
  | cons step place ih =>
    obtain ⟨child, hchild, hplace⟩ := Option.bind_eq_some_iff.1 h
    rw [putAt_cons hchild, at?, child?_put_self hchild, Option.bind_some, ih hplace]

/-- On the way to the place stands what was there, with the new value inside. -/
theorem at?_putAt_above (h : at? (place ++ below) doc = some old) (value : Json) :
    at? place (putAt value (place ++ below) doc) = (at? place doc).map (putAt value below) := by
  induction place generalizing doc with
  | nil => rfl
  | cons step place ih =>
    obtain ⟨child, hchild, hplace⟩ := Option.bind_eq_some_iff.1 h
    rw [List.cons_append, putAt_cons hchild, at?, at?, child?_put_self hchild, hchild, Option.bind_some,
      Option.bind_some, ih hplace]

/-- Beside the place nothing is changed. -/
theorem at?_putAt_beside (hbelow : ¬ place <+: other) (habove : ¬ other <+: place) (value doc : Json) :
    at? other (putAt value place doc) = at? other doc := by
  induction place generalizing doc other with
  | nil => exact absurd List.nil_prefix hbelow
  | cons step place ih =>
    cases other with
    | nil => exact absurd List.nil_prefix habove
    | cons otherStep other =>
      cases hchild : child? step doc with
      | none => simp only [putAt, hchild]
      | some child =>
        rw [putAt_cons hchild, at?, at?]
        by_cases hsame : otherStep = step
        · subst hsame
          rw [List.prefix_cons_inj] at hbelow habove
          rw [child?_put_self hchild, hchild, Option.bind_some, Option.bind_some, ih hbelow habove]
        · rw [child?_put_ne hsame]

/-! ## One entry -/

/-- With distinct keys, what is taken out is one entry. -/
theorem takenOut_takeOut (hdoc : doc.DistinctKeys) (hvalue : child? step doc = some value) :
    TakenOut value step doc (takeOut step doc) := by
  cases step with
  | member key =>
    cases doc with
    | object members =>
      obtain ⟨before, behind, rfl⟩ := List.append_of_mem (Entries.mem_of_get? hvalue)
      have hkeys : key ∉ Entries.keys (before ++ behind) := by
        have hnodup := (distinctKeys_object.1 hdoc).1
        simp only [Entries.keys, List.map_append, List.map_cons] at hnodup ⊢
        exact (List.nodup_middle.1 hnodup).notMem
      rw [takeOut, Entries.remove_middle hkeys]
      exact .member hkeys
    | _ => cases hvalue
  | item i =>
    cases doc with
    | array items =>
      obtain ⟨hi, rfl⟩ := List.getElem?_eq_some_iff.1 hvalue
      have hitems : items = items.take i ++ items[i] :: items.drop (i + 1) := by
        rw [← List.drop_eq_getElem_cons hi, List.take_append_drop]
      have htaken : TakenOut items[i] (.item i) (.array (items.take i ++ items[i] :: items.drop (i + 1)))
          (.array (items.take i ++ items.drop (i + 1))) := .item (List.length_take_of_le (by omega))
      rwa [← hitems, ← List.eraseIdx_eq_take_drop_succ] at htaken
    | _ => cases hvalue

/-- Where something is taken out, the path names an entry of a container, and the container is left without
it. -/
theorem exists_entry_of_delete (h : (delete path doc).1 = true) :
    ∃ place step container value, location? path doc = some (place ++ [step]) ∧
      at? place doc = some container ∧ child? step container = some value ∧
      (delete path doc).2 = putAt (takeOut step container) place doc := by
  induction path generalizing doc with
  | nil => cases h
  | cons segment path ih =>
    rcases nothing_or_entry segment doc with hnothing | ⟨step, child, htarget, hchild⟩
    · rw [delete_of_nothing hnothing] at h
      cases h
    · have hstep := resolve?_of_entry htarget hchild
      by_cases hpath : path = []
      · subst hpath
        refine ⟨[], step, doc, child, ?_, rfl, hchild, ?_⟩
        · rw [location?_of_steps hstep hchild]
          rfl
        · rw [delete_last htarget hchild]
          rfl
      · rw [delete_of_target? htarget hchild hpath] at h ⊢
        obtain ⟨place, last, container, value, hplace, hcontainer, hvalue, hleft⟩ := ih h
        refine ⟨step :: place, last, container, value, ?_, ?_, hvalue, ?_⟩
        · rw [location?_of_steps hstep hchild, hplace]
          rfl
        · rw [at?, hchild, Option.bind_some, hcontainer]
        · rw [putAt_cons hchild, hleft]

theorem lookup_of_entry {container : Json} (hplace : location? path doc = some (place ++ [step]))
    (hcontainer : at? place doc = some container) (hvalue : child? step container = some value) :
    lookup path doc = some value := by
  rw [lookup_eq_at? hplace, at?_append, hcontainer, Option.bind_some, at?, hvalue]
  rfl

theorem delete_unchanged (h : (delete path doc).1 = false) : (delete path doc).2 = doc := by
  induction path generalizing doc with
  | nil => rfl
  | cons segment path ih =>
    rcases nothing_or_entry segment doc with hnothing | ⟨step, child, htarget, hchild⟩
    · rw [delete_of_nothing hnothing]
    · by_cases hpath : path = []
      · subst hpath
        rw [delete_last htarget hchild] at h
        cases h
      · rw [delete_of_target? htarget hchild hpath] at h ⊢
        rw [ih h, put_of_child? hchild]

/-- Where nothing is taken out, the document is as it was. Else it is the document with one entry less in one
container: the path names the entry, the container is left without it, the values around the container
have changed by this alone, and what is neither around it nor in it has not changed. -/
theorem delete_takes_one_out {doc : Json} (hdoc : doc.DistinctKeys) (path : JsonPath) :
    (∀ left, delete path doc = (false, left) → left = doc) ∧
    ∀ left, delete path doc = (true, left) → left.DistinctKeys ∧
      ∃ place step value container rest,
        location? path doc = some (place ++ [step]) ∧ lookup path doc = some value ∧
        at? place doc = some container ∧ TakenOut value step container rest ∧
        left = putAt rest place doc ∧ at? place left = some rest ∧
        (∀ above below, place = above ++ below →
          at? above left = (at? above doc).map (putAt rest below)) ∧
        ∀ other, ¬ place <+: other → ¬ other <+: place → at? other left = at? other doc := by
  refine ⟨fun left h => ?_, fun left h => ?_⟩
  · have hleft := delete_unchanged (congrArg Prod.fst h)
    rwa [h] at hleft
  · obtain ⟨place, step, container, value, hplace, hcontainer, hvalue, hleft⟩ :=
      exists_entry_of_delete (congrArg Prod.fst h)
    have hkeys := hdoc.delete path
    rw [h] at hleft hkeys
    subst hleft
    refine ⟨hkeys, place, step, value, container, takeOut step container, hplace,
      lookup_of_entry hplace hcontainer hvalue, hcontainer, takenOut_takeOut (hdoc.at? hcontainer) hvalue,
      rfl, at?_putAt hcontainer _, ?_, fun other hbelow habove => at?_putAt_beside hbelow habove _ doc⟩
    rintro above below rfl
    exact at?_putAt_above hcontainer _

/-- An item in the middle of an array is taken out, counted from the end. -/
theorem delete_takes_one_out_nested :
    let item : Json := .object [(['b'], .bool false)]
    let container : Json := .array [.null, item, .string ['c']]
    let rest : Json := .array [.null, .string ['c']]
    let doc : Json := .object [(['k'], .bool true), (['a'], container)]
    let left : Json := .object [(['k'], .bool true), (['a'], rest)]
    let path : JsonPath := [.field ['a'], .index (-2)]
    doc.DistinctKeys ∧ delete path doc = (true, left) ∧
    location? path doc = some ([.member ['a']] ++ [.item 1]) ∧ lookup path doc = some item ∧
    at? [.member ['a']] doc = some container ∧ TakenOut item (.item 1) container rest ∧
    left = putAt rest [.member ['a']] doc ∧
    at? [.member ['k']] left = at? [.member ['k']] doc := by
  intro item container rest doc left path
  have hempty : (Json.object []).DistinctKeys := distinctKeys_object.2 ⟨List.nodup_nil, nofun⟩
  have hbool (b : Bool) : (Json.bool b).DistinctKeys := distinctKeys_of_scalar nofun nofun
  have hitem : item.DistinctKeys := hempty.set (hbool false) ['b']
  have hcontainer : container.DistinctKeys := by
    refine distinctKeys_array.2 fun found hfound => ?_
    simp only [List.mem_cons, List.not_mem_nil, or_false] at hfound
    rcases hfound with rfl | rfl | rfl
    · exact distinctKeys_of_scalar nofun nofun
    · exact hitem
    · exact distinctKeys_of_scalar nofun nofun
  have hdoc : doc.DistinctKeys := (hempty.set (hbool true) ['k']).set hcontainer ['a']
  have hdelete : delete path doc = (true, left) := rfl
  have hlocation : location? path doc = some ([.member ['a']] ++ [.item 1]) := rfl
  obtain ⟨-, place, step, value, container', rest', hplace, hvalue, hcontainer, htaken, hleft, hrest, -,
    hbeside⟩ := (delete_takes_one_out hdoc path).2 left hdelete
  obtain ⟨rfl, hstep⟩ := List.append_inj' (Option.some.inj (hplace.symm.trans hlocation)) rfl
  obtain rfl := (List.cons.inj hstep).1
  obtain rfl : value = item := Option.some.inj (hvalue.symm.trans rfl)
  obtain rfl : container' = container := Option.some.inj (hcontainer.symm.trans rfl)
  obtain rfl : rest' = rest := Option.some.inj (hrest.symm.trans rfl)
  exact ⟨hdoc, hdelete, hlocation, hvalue, hcontainer, htaken, hleft,
    hbeside [.member ['k']] (by decide) (by decide)⟩

end SeedChain.Json
