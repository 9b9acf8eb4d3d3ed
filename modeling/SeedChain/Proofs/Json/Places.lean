import SeedChain.Json.Path
import SeedChain.Proofs.Entries
/-!
# Places in a document

A path can name one place in several ways: an index from the end or from the beginning, an index into an
object or the field with its text. `Json.location?` says which place it is, as the members and positions
on the way down. One step down is a segment that names a `Json.Step` (`resolve?` when reading, `target?`
when writing), and a child that stands there (`child?`), is put there (`put`) or taken out (`takeOut`);
reading, writing and taking out along a path are these steps one after the other (`lookup_cons`,
`assign_of_target?`, `delete_last`, `delete_of_target?`).

Main facts: what has been put is there, all other children are as they were (`child?_put_ne`), a second
child takes the place of the first (`put_put`), and segments name the same steps as before
(`resolve?_put`, `target?_put`). What a path finds is what stands at its place (`lookup_eq_at?`).
-/

namespace SeedChain.Json

/-- A step down: to the member of an object, or to the item of an array at a position. -/
inductive Step where
  | member (key : Text)
  | item (position : Nat)
  deriving DecidableEq, Repr

/-- A place in a document, by the steps from the root on. -/
abbrev Location := List Step

/-- The step a segment names when a document is read. -/
def resolve? : PathSegment → Json → Option Step
  | .field name, .object _ => some (.member name)
  | .index n, .object _ => some (.member (Text.ofInt n))
  | .index n, .array items => (position? n items.length).map .item
  | _, _ => none

/-- The step a segment names when a document is written. -/
def target? : PathSegment → Json → Option Step
  | .field name, .null | .field name, .object _ => some (.member name)
  | .index n, .array items => (position? n items.length).map .item
  | _, _ => none

/-- Why a segment names no step when a document is written. -/
def refusal : PathSegment → Json → Reason
  | .field name, _ => .fieldOfNonObject name
  | .index n, .array items => .indexOutOfBounds n items.length
  | .index n, _ => .indexOfNonArray n

/-- The value behind a step. -/
def child? : Step → Json → Option Json
  | .member key, .object members => Entries.get? key members
  | .item i, .array items => items[i]?
  | _, _ => none

/-- The document with another value behind a step. -/
def put (child : Json) : Step → Json → Json
  | .member key, .null => .object [(key, child)]
  | .member key, .object members => .object (Entries.set key child members)
  | .item i, .array items => .array (items.set i child)
  | _, doc => doc

/-- The document without what stands behind a step. -/
def takeOut : Step → Json → Json
  | .member key, .object members => .object (Entries.remove key members)
  | .item i, .array items => .array (items.eraseIdx i)
  | _, doc => doc

/-- The value at a place. -/
def at? : Location → Json → Option Json
  | [], doc => some doc
  | step :: place, doc => (child? step doc).bind (at? place)

/-- The place that a path names, if there is a value. -/
def location? : JsonPath → Json → Option Location
  | [], _ => some []
  | segment :: path, doc =>
    (resolve? segment doc).bind fun step =>
      (child? step doc).bind fun child => (location? path child).map (step :: ·)

variable {segment : PathSegment} {path : JsonPath} {step other : Step} {doc child value : Json}
  {place : Location}

/-! ## Putting a child -/

theorem child?_put_self (h : child? step doc = some child) (value : Json) :
    child? step (put value step doc) = some value := by
  cases step with
  | member key =>
    cases doc with
    | object members => simp [put, child?]
    | _ => cases h
  | item i =>
    cases doc with
    | array items =>
      obtain ⟨hi, -⟩ := List.getElem?_eq_some_iff.1 h
      simp [put, child?, hi]
    | _ => cases h

theorem child?_put_ne (h : other ≠ step) (child doc : Json) :
    child? other (put child step doc) = child? other doc := by
  cases step with
  | member key =>
    cases doc with
    | null => cases other <;> simp_all [put, child?, Entries.get?, eq_comm]
    | object members =>
      cases other with
      | member key' => exact Entries.get?_set_ne (by rintro rfl; exact h rfl) child members
      | item => rfl
    | _ => rfl
  | item i =>
    cases doc with
    | array items =>
      cases other with
      | member => rfl
      | item j =>
        have hne : i ≠ j := fun heq => h (heq ▸ rfl)
        simp [put, child?, hne]
    | _ => rfl

@[simp]
theorem put_put (old child : Json) (step : Step) (doc : Json) :
    put child step (put old step doc) = put child step doc := by
  cases step <;> cases doc <;> simp [put, Entries.set]

/-- Putting what is there changes nothing. -/
theorem put_of_child? (h : child? step doc = some child) : put child step doc = doc := by
  cases step with
  | member key =>
    cases doc with
    | object members => exact congrArg Json.object (Entries.set_of_get? h)
    | _ => cases h
  | item i =>
    cases doc with
    | array items =>
      obtain ⟨hi, rfl⟩ := List.getElem?_eq_some_iff.1 h
      exact congrArg Json.array (List.set_getElem_self hi)
    | _ => cases h

/-- Members stay members and items keep their positions. -/
theorem resolve?_put (h : resolve? segment doc = some other) (child : Json) (step : Step) :
    resolve? segment (put child step doc) = some other := by
  cases step <;> cases doc <;> cases segment <;> simp_all [put, resolve?]

theorem target?_put (h : target? segment doc = some other) (child : Json) (step : Step) :
    target? segment (put child step doc) = some other := by
  cases step <;> cases doc <;> cases segment <;> simp_all [put, target?]

/-! ## Writing a segment -/

theorem lt_of_position? {n : Int} {length i : Nat} (h : position? n length = some i) : i < length := by
  unfold position? at h
  split at h <;> simp_all <;> omega

/-- What has been put where a segment writes is read there by the same segment. -/
theorem resolve?_of_target? (h : target? segment doc = some step) (child : Json) :
    resolve? segment (put child step doc) = some step ∧ child? step (put child step doc) = some child := by
  cases segment with
  | field name =>
    cases doc with
    | null | object =>
      obtain rfl : Step.member name = step := Option.some.inj h
      simp [put, resolve?, child?, Entries.get?]
    | _ => cases h
  | index n =>
    cases doc with
    | array items =>
      obtain ⟨i, hi, rfl⟩ := Option.map_eq_some_iff.1 h
      simp [put, resolve?, child?, hi, lt_of_position? hi]
    | _ => cases h

/-! ## Along a path -/

theorem lookup_cons (segment : PathSegment) (path : JsonPath) (doc : Json) :
    lookup (segment :: path) doc =
      (resolve? segment doc).bind fun step => (child? step doc).bind (lookup path) := by
  cases segment with
  | field name => cases doc <;> rfl
  | index n =>
    cases doc with
    | array items =>
      simp only [lookup, resolve?, item?]
      cases position? n items.length with
      | none => rfl
      | some i => cases hitem : items[i]? <;> simp [child?, hitem]
    | _ => rfl

/-- What a path finds behind its first step. -/
theorem exists_of_lookup_cons (h : lookup (segment :: path) doc = some value) :
    ∃ step child, resolve? segment doc = some step ∧ child? step doc = some child ∧
      lookup path child = some value := by
  rw [lookup_cons] at h
  obtain ⟨step, hstep, hrest⟩ := Option.bind_eq_some_iff.1 h
  obtain ⟨child, hchild, hvalue⟩ := Option.bind_eq_some_iff.1 hrest
  exact ⟨step, child, hstep, hchild, hvalue⟩

theorem lookup_of_steps (hstep : resolve? segment doc = some step) (hchild : child? step doc = some child)
    (path : JsonPath) : lookup (segment :: path) doc = lookup path child := by
  rw [lookup_cons, hstep, Option.bind_some, hchild, Option.bind_some]

theorem location?_of_steps (hstep : resolve? segment doc = some step)
    (hchild : child? step doc = some child) (path : JsonPath) :
    location? (segment :: path) doc = (location? path child).map (step :: ·) := by
  rw [location?, hstep, Option.bind_some, hchild, Option.bind_some]

theorem exists_of_location?_cons (h : location? (segment :: path) doc = some place) :
    ∃ step child rest, resolve? segment doc = some step ∧ child? step doc = some child ∧
      location? path child = some rest ∧ place = step :: rest := by
  obtain ⟨step, hstep, hbehind⟩ := Option.bind_eq_some_iff.1 h
  obtain ⟨child, hchild, hplace⟩ := Option.bind_eq_some_iff.1 hbehind
  obtain ⟨rest, hrest, rfl⟩ := Option.map_eq_some_iff.1 hplace
  exact ⟨step, child, rest, hstep, hchild, hrest, rfl⟩

/-- What is found stands at a place. -/
theorem exists_location? (h : lookup path doc = some value) : ∃ place, location? path doc = some place := by
  induction path generalizing doc with
  | nil => exact ⟨[], rfl⟩
  | cons segment path ih =>
    obtain ⟨step, child, hstep, hchild, hvalue⟩ := exists_of_lookup_cons h
    obtain ⟨rest, hrest⟩ := ih hvalue
    exact ⟨step :: rest, by rw [location?_of_steps hstep hchild, hrest]; rfl⟩

theorem at?_append (place below : Location) (doc : Json) :
    at? (place ++ below) doc = (at? place doc).bind (at? below) := by
  induction place generalizing doc with
  | nil => rfl
  | cons step place ih =>
    rw [List.cons_append, at?, at?]
    cases child? step doc with
    | none => rfl
    | some child => exact ih child

theorem lookup_eq_at? (h : location? path doc = some place) : lookup path doc = at? place doc := by
  induction path generalizing doc place with
  | nil =>
    obtain rfl : [] = place := Option.some.inj h
    rfl
  | cons segment path ih =>
    obtain ⟨step, child, rest, hstep, hchild, hrest, rfl⟩ := exists_of_location?_cons h
    rw [lookup_of_steps hstep hchild, ih hrest, at?, hchild, Option.bind_some]

/-- A segment that names a step for writing names it for reading too, or there is nothing to be read. -/
theorem lookup_of_target? (h : target? segment doc = some step) (path : JsonPath) :
    lookup (segment :: path) doc = (child? step doc).bind (lookup path) := by
  rw [lookup_cons]
  cases segment with
  | field name =>
    cases doc with
    | null | object =>
      obtain rfl : Step.member name = step := Option.some.inj h
      rfl
    | _ => cases h
  | index n =>
    cases doc with
    | array items => rw [show resolve? (.index n) (.array items) = some step from h, Option.bind_some]
    | _ => cases h

/-- Writing goes on behind the step that the first segment names, in a new `null` where nothing stands. -/
theorem assign_of_target? (h : target? segment doc = some step) (value : Json) (path : JsonPath) :
    assign value (segment :: path) doc =
      ((assign value path ((child? step doc).getD .null)).1,
        put (assign value path ((child? step doc).getD .null)).2 step doc) := by
  cases segment with
  | field name =>
    cases doc with
    | null | object =>
      obtain rfl : Step.member name = step := Option.some.inj h
      rfl
    | _ => cases h
  | index n =>
    cases doc with
    | array items =>
      obtain ⟨i, hi, rfl⟩ := Option.map_eq_some_iff.1 h
      have hitem := List.getElem?_eq_getElem (lt_of_position? hi)
      simp [assign, item?, hi, child?, put, hitem]
    | _ => cases h

theorem assign_of_target?_eq_none (h : target? segment doc = none) (value : Json) (path : JsonPath) :
    assign value (segment :: path) doc = (.error (refusal segment doc), doc) := by
  cases segment with
  | field name =>
    cases doc with
    | null | object => cases h
    | _ => rfl
  | index n =>
    cases doc with
    | array items =>
      have hposition : position? n items.length = none := Option.map_eq_none_iff.1 h
      simp [assign, item?, hposition, refusal]
    | _ => rfl

/-! ## Taking out along a path -/

/-- A segment leads to an entry that can be written to, or to nothing. -/
theorem nothing_or_entry (segment : PathSegment) (doc : Json) :
    (target? segment doc).bind (child? · doc) = none ∨
      ∃ step child, target? segment doc = some step ∧ child? step doc = some child := by
  cases htarget : target? segment doc with
  | none => exact .inl rfl
  | some step =>
    cases hchild : child? step doc with
    | none => exact .inl hchild
    | some child => exact .inr ⟨step, child, rfl, hchild⟩

/-- Nothing is taken out where a segment names no step to write to, or nothing stands behind it. -/
theorem delete_of_nothing (h : (target? segment doc).bind (child? · doc) = none) (path : JsonPath) :
    delete (segment :: path) doc = (false, doc) := by
  cases segment with
  | field name =>
    cases doc with
    | object members =>
      have hnone : Entries.get? name members = none := h
      cases path with
      | nil => simp [delete, hnone, Entries.remove_of_not_mem (Entries.get?_eq_none_iff.1 hnone)]
      | cons => simp [delete, hnone]
    | _ => cases path <;> rfl
  | index n =>
    cases doc with
    | array items =>
      have hnone : item? n items = none := by
        cases hposition : position? n items.length with
        | none => simp [item?, hposition]
        | some i =>
          have hitem : items[i]? = none := by simpa [target?, hposition, child?] using h
          simp [item?, hposition, hitem]
      cases path <;> simp [delete, hnone]
    | _ => cases path <;> rfl

/-- What is written to and is there already: a member of an object or an item of an array. -/
theorem entry_of_target? (htarget : target? segment doc = some step)
    (hchild : child? step doc = some child) :
    (∃ name members, segment = .field name ∧ doc = .object members ∧ step = .member name ∧
      Entries.get? name members = some child) ∨
    ∃ n items i, segment = .index n ∧ doc = .array items ∧ step = .item i ∧
      position? n items.length = some i ∧ items[i]? = some child := by
  cases segment with
  | field name =>
    cases doc with
    | object members =>
      obtain rfl : Step.member name = step := Option.some.inj htarget
      exact .inl ⟨name, members, rfl, rfl, rfl, hchild⟩
    | null =>
      obtain rfl : Step.member name = step := Option.some.inj htarget
      cases hchild
    | _ => cases htarget
  | index n =>
    cases doc with
    | array items =>
      obtain ⟨i, hi, rfl⟩ := Option.map_eq_some_iff.1 htarget
      exact .inr ⟨n, items, i, rfl, rfl, rfl, hi, hchild⟩
    | _ => cases htarget

/-- An entry that can be written to is read by the same segment. -/
theorem resolve?_of_entry (htarget : target? segment doc = some step)
    (hchild : child? step doc = some child) : resolve? segment doc = some step := by
  obtain ⟨name, members, rfl, rfl, rfl, -⟩ | ⟨n, items, i, rfl, rfl, rfl, hi, -⟩ :=
    entry_of_target? htarget hchild
  · rfl
  · simp [resolve?, hi]

/-- The last segment of a path names what is taken out. -/
theorem delete_last (htarget : target? segment doc = some step) (hchild : child? step doc = some child) :
    delete [segment] doc = (true, takeOut step doc) := by
  obtain ⟨name, members, rfl, rfl, rfl, hmember⟩ | ⟨n, items, i, rfl, rfl, rfl, hi, hitem⟩ :=
    entry_of_target? htarget hchild
  · simp [delete, hmember, takeOut]
  · simp [delete, item?, hi, hitem, takeOut]

/-- Before the last segment, taking out goes on in the child. -/
theorem delete_of_target? (htarget : target? segment doc = some step)
    (hchild : child? step doc = some child) (hpath : path ≠ []) :
    delete (segment :: path) doc = ((delete path child).1, put (delete path child).2 step doc) := by
  obtain ⟨next, path, rfl⟩ := List.exists_cons_of_ne_nil hpath
  obtain ⟨name, members, rfl, rfl, rfl, hmember⟩ | ⟨n, items, i, rfl, rfl, rfl, hi, hitem⟩ :=
    entry_of_target? htarget hchild
  · simp [delete, hmember, put]
  · simp [delete, item?, hi, hitem, put]

end SeedChain.Json
