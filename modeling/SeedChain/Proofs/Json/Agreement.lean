import SeedChain.Proofs.Json.Deleting
/-!
# Which paths there are

Reading, writing and taking out walk along a path each in its own way, and they differ in one case: where
an index meets an object, reading goes on in the member whose key is the index as a text, while writing
refuses the index and taking out finds nothing. Wherever no index meets an object, they agree on whether
there is anything at the path (`Json.lookup_delete_assign_agree`).
-/

namespace SeedChain.Json

/-- On the way along a path an index meets an object. -/
def IndexesObject (path : JsonPath) (doc : Json) : Prop :=
  ∃ before n rest members, path = before ++ .index n :: rest ∧ lookup before doc = some (.object members)

variable {segment : PathSegment} {path : JsonPath} {step : Step} {doc child found : Json}

/-! ## Reading and writing one segment -/

/-- A segment that is read names the same step for writing, or it is an index that meets an object. -/
theorem target?_of_resolve? (h : resolve? segment doc = some step) :
    target? segment doc = some step ∨
      target? segment doc = none ∧ ∃ n members, segment = .index n ∧ doc = .object members := by
  cases segment with
  | field name =>
    cases doc with
    | object members => exact .inl h
    | _ => cases h
  | index n =>
    cases doc with
    | object members => exact .inr ⟨rfl, n, members, rfl, rfl⟩
    | array items => exact .inl h
    | _ => cases h

theorem not_indexesObject_nil (doc : Json) : ¬ IndexesObject [] doc := by
  rintro ⟨before, n, rest, members, hpath, -⟩
  simp at hpath

/-- Behind an entry that can be written to, an index meets an object only further on. -/
theorem indexesObject_cons_iff (htarget : target? segment doc = some step)
    (hchild : child? step doc = some child) :
    IndexesObject (segment :: path) doc ↔ IndexesObject path child := by
  have hread (before : JsonPath) : lookup (segment :: before) doc = lookup before child :=
    lookup_of_steps (resolve?_of_entry htarget hchild) hchild before
  constructor
  · rintro ⟨before, n, rest, members, hpath, hobject⟩
    cases before with
    | nil =>
      obtain ⟨rfl, -⟩ := List.cons.inj hpath
      obtain rfl : doc = .object members := Option.some.inj hobject
      cases htarget
    | cons first before =>
      obtain ⟨rfl, rfl⟩ := List.cons.inj hpath
      exact ⟨before, n, rest, members, rfl, (hread before).symm.trans hobject⟩
  · rintro ⟨before, n, rest, members, rfl, hobject⟩
    exact ⟨segment :: before, n, rest, members, rfl, (hread before).trans hobject⟩

/-! ## Along a path -/

/-- What is found can be written to and taken out, if no index meets an object on the way. Else the first such
index is refused, and the document is as it was. -/
theorem writable_or_indexesObject (h : lookup path doc = some found) (value : Json) :
    (¬ IndexesObject path doc ∧ (assign value path doc).1 = .ok () ∧
      (path ≠ [] → (delete path doc).1 = true)) ∨
    IndexesObject path doc ∧ delete path doc = (false, doc) ∧
      ∃ n, .index n ∈ path ∧ assign value path doc = (.error (.indexOfNonArray n), doc) := by
  induction path generalizing doc with
  | nil => exact .inl ⟨not_indexesObject_nil doc, rfl, fun hpath => absurd rfl hpath⟩
  | cons segment path ih =>
    obtain ⟨step, child, hstep, hchild, hfound⟩ := exists_of_lookup_cons h
    rcases target?_of_resolve? hstep with htarget | ⟨htarget, n, members, rfl, rfl⟩
    · rw [indexesObject_cons_iff htarget hchild, assign_of_target? htarget, hchild, Option.getD_some]
      rcases ih hfound with ⟨hfree, hwritten, hdeleted⟩ | ⟨hindex, hdeleted, n, hn, hrefused⟩
      · refine .inl ⟨hfree, hwritten, fun _ => ?_⟩
        by_cases hpath : path = []
        · subst hpath
          rw [delete_last htarget hchild]
        · rw [delete_of_target? htarget hchild hpath]
          exact hdeleted hpath
      · refine .inr ⟨hindex, ?_, n, List.mem_cons_of_mem _ hn, ?_⟩
        · rw [delete_of_target? htarget hchild (List.ne_nil_of_mem hn), hdeleted, put_of_child? hchild]
        · rw [hrefused, put_of_child? hchild]
    · refine .inr ⟨⟨[], n, path, members, rfl, rfl⟩, ?_, n, List.mem_cons_self, ?_⟩
      · exact delete_of_nothing (by rw [htarget]; rfl) path
      · exact assign_of_target?_eq_none htarget value path

/-- Something is taken out if and only if something is found and no index meets an object on the way. What is
found can be written to under the same condition. Where an index meets an object, reading finds what
neither taking out nor writing can reach: both leave the document as it was, and writing refuses the
index. -/
theorem lookup_delete_assign_agree {path : JsonPath} (hpath : path ≠ []) (doc value : Json) :
    ((delete path doc).1 = true ↔ (lookup path doc).isSome = true ∧ ¬ IndexesObject path doc) ∧
    ((lookup path doc).isSome = true → ¬ IndexesObject path doc → (assign value path doc).1 = .ok ()) ∧
    ((lookup path doc).isSome = true → IndexesObject path doc →
      delete path doc = (false, doc) ∧
        ∃ n, .index n ∈ path ∧ assign value path doc = (.error (.indexOfNonArray n), doc)) := by
  cases hlookup : lookup path doc with
  | none =>
    have hkept : (delete path doc).1 ≠ true := by
      intro hdeleted
      obtain ⟨place, step, container, found, hplace, hcontainer, hchild, -⟩ :=
        exists_entry_of_delete hdeleted
      rw [lookup_of_entry hplace hcontainer hchild] at hlookup
      cases hlookup
    simp [hkept]
  | some found =>
    rcases writable_or_indexesObject hlookup value with
      ⟨hfree, hwritten, hdeleted⟩ | ⟨hindex, hkept, hrefused⟩
    · simp [hfree, hwritten, hdeleted hpath]
    · simp [hindex, hkept, hrefused]

/-- The index of the last item of an array leads to an object, and there an index reads a member that can be
neither taken out nor written. -/
theorem lookup_delete_assign_agree_member :
    let doc : Json := .object [(['a'], .array [.null, .object [(['0'], .bool true)]])]
    let path : JsonPath := [.field ['a'], .index (-1), .index 0]
    path ≠ [] ∧ lookup path doc = some (.bool true) ∧ IndexesObject path doc ∧
    delete path doc = (false, doc) ∧
      ∃ n, .index n ∈ path ∧ assign .null path doc = (.error (.indexOfNonArray n), doc) := by
  intro doc path
  have hpath : path ≠ [] := List.cons_ne_nil _ _
  have hlookup : lookup path doc = some (.bool true) := rfl
  have hindex : IndexesObject path doc := ⟨[.field ['a'], .index (-1)], 0, [], _, rfl, rfl⟩
  obtain ⟨-, -, hkept⟩ := lookup_delete_assign_agree hpath doc .null
  exact ⟨hpath, hlookup, hindex, hkept (Option.isSome_of_eq_some hlookup) hindex⟩

end SeedChain.Json
