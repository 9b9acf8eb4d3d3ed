import SeedChain.Proofs.Calls
import SeedChain.Proofs.Json.Places
/-!
# Distinct keys

The keys of an object are distinct, at every place of a document (`Json.DistinctKeys`). Reading gives such
documents only (`Json.distinctKeys_of_read?`), and writing and taking out keep them so
(`Json.DistinctKeys.assign`, `Json.DistinctKeys.delete`). So it is with every document that calls make of one
(`JsonDocument.distinctKeys_of_becomes`).
-/

namespace SeedChain.Json

/-- No object in the document has two members of one key. -/
def DistinctKeys (doc : Json) : Prop :=
  ∀ place members, at? place doc = some (.object members) → (Entries.keys members).Nodup

variable {path : JsonPath} {step : Step} {doc child value : Json} {items : List Json}
  {members : Entries Json}

theorem distinctKeys_iff : DistinctKeys doc ↔
    (∀ members, doc = .object members → (Entries.keys members).Nodup) ∧
      ∀ step child, child? step doc = some child → DistinctKeys child := by
  constructor
  · refine fun h => ⟨fun members heq => h [] members (congrArg some heq), ?_⟩
    intro step child hchild place members hplace
    exact h (step :: place) members (by rw [at?, hchild, Option.bind_some, hplace])
  · rintro ⟨hroot, hchildren⟩ place members hplace
    cases place with
    | nil => exact hroot members (Option.some.inj hplace)
    | cons step place =>
      obtain ⟨child, hchild, hbelow⟩ := Option.bind_eq_some_iff.1 hplace
      exact hchildren step child hchild place members hbelow

/-- A value that is neither an array nor an object has no keys at all. -/
theorem distinctKeys_of_scalar (hobject : ∀ members, doc ≠ .object members)
    (harray : ∀ items, doc ≠ .array items) : DistinctKeys doc := by
  refine distinctKeys_iff.2 ⟨fun members heq => absurd heq (hobject members), ?_⟩
  intro step child hchild
  cases step with
  | member key =>
    cases doc with
    | object members => exact absurd rfl (hobject members)
    | _ => cases hchild
  | item i =>
    cases doc with
    | array items => exact absurd rfl (harray items)
    | _ => cases hchild

theorem distinctKeys_array : DistinctKeys (.array items) ↔ ∀ item ∈ items, DistinctKeys item := by
  rw [distinctKeys_iff]
  constructor
  · rintro ⟨-, hchildren⟩ item hitem
    obtain ⟨i, hi⟩ := List.mem_iff_getElem?.1 hitem
    exact hchildren (.item i) item hi
  · refine fun h => ⟨fun members heq => (nomatch heq), ?_⟩
    intro step child hchild
    cases step with
    | member => cases hchild
    | item i => exact h child (List.mem_of_getElem? hchild)

theorem distinctKeys_object : DistinctKeys (.object members) ↔
    (Entries.keys members).Nodup ∧
      ∀ key child, Entries.get? key members = some child → DistinctKeys child := by
  rw [distinctKeys_iff]
  constructor
  · rintro ⟨hkeys, hchildren⟩
    exact ⟨hkeys members rfl, fun key child hchild => hchildren (.member key) child hchild⟩
  · rintro ⟨hkeys, hchildren⟩
    refine ⟨?_, ?_⟩
    · rintro _ ⟨⟩
      exact hkeys
    · intro step child hchild
      cases step with
      | member key => exact hchildren key child hchild
      | item => cases hchild

/-! ## Writing and taking out -/

namespace DistinctKeys

theorem behind (h : DistinctKeys doc) (hchild : child? step doc = some child) : DistinctKeys child :=
  (distinctKeys_iff.1 h).2 step child hchild

theorem at? {place : Location} (h : DistinctKeys doc) (hplace : Json.at? place doc = some value) :
    DistinctKeys value := by
  induction place generalizing doc with
  | nil => exact Option.some.inj hplace ▸ h
  | cons step place ih =>
    obtain ⟨child, hchild, hbelow⟩ := Option.bind_eq_some_iff.1 hplace
    exact ih (h.behind hchild) hbelow

/-- A member that is set has distinct keys inside, and its own key stands once. -/
theorem set (h : DistinctKeys (.object members)) (hvalue : DistinctKeys value) (key : Text) :
    DistinctKeys (.object (Entries.set key value members)) := by
  obtain ⟨hkeys, hchildren⟩ := distinctKeys_object.1 h
  refine distinctKeys_object.2 ⟨Entries.keys_set_nodup hkeys, fun other child hchild => ?_⟩
  by_cases hother : other = key
  · subst hother
    rw [Entries.get?_set_self] at hchild
    exact Option.some.inj hchild ▸ hvalue
  · rw [Entries.get?_set_ne hother] at hchild
    exact hchildren other child hchild

theorem put (h : DistinctKeys doc) (hvalue : DistinctKeys value) (step : Step) :
    DistinctKeys (put value step doc) := by
  cases step with
  | member key =>
    cases doc with
    | object members => exact h.set hvalue key
    | null =>
      have hempty : DistinctKeys (.object []) := distinctKeys_object.2 ⟨List.nodup_nil, nofun⟩
      exact hempty.set hvalue key
    | _ => exact h
  | item i =>
    cases doc with
    | array items =>
      rw [distinctKeys_array] at h
      refine distinctKeys_array.2 fun item hitem => ?_
      rcases List.mem_or_eq_of_mem_set hitem with hitem | rfl
      · exact h item hitem
      · exact hvalue
    | _ => exact h

theorem takeOut (h : DistinctKeys doc) (step : Step) : DistinctKeys (takeOut step doc) := by
  cases step with
  | member key =>
    cases doc with
    | object members =>
      obtain ⟨hkeys, hchildren⟩ := distinctKeys_object.1 h
      refine distinctKeys_object.2 ⟨Entries.keys_remove_nodup key hkeys, fun other child hchild => ?_⟩
      have hother : other ≠ key := by
        rintro rfl
        exact (Entries.removes_remove other hkeys).not_mem (Entries.mem_keys_of_get? hchild)
      rw [Entries.get?_remove_ne hother] at hchild
      exact hchildren other child hchild
    | _ => exact h
  | item i =>
    cases doc with
    | array items =>
      rw [distinctKeys_array] at h
      exact distinctKeys_array.2 fun item hitem => h item (List.mem_of_mem_eraseIdx hitem)
    | _ => exact h

theorem assign (h : DistinctKeys doc) (hvalue : DistinctKeys value) (path : JsonPath) :
    DistinctKeys (assign value path doc).2 := by
  induction path generalizing doc with
  | nil => exact hvalue
  | cons segment path ih =>
    cases htarget : target? segment doc with
    | none =>
      rw [assign_of_target?_eq_none htarget]
      exact h
    | some step =>
      rw [assign_of_target? htarget]
      refine h.put (ih ?_) step
      cases hchild : child? step doc with
      | none => exact distinctKeys_of_scalar (fun _ h => nomatch h) (fun _ h => nomatch h)
      | some child => exact h.behind hchild

theorem delete (h : DistinctKeys doc) (path : JsonPath) : DistinctKeys (delete path doc).2 := by
  induction path generalizing doc with
  | nil => exact h
  | cons segment path ih =>
    rcases nothing_or_entry segment doc with hnothing | ⟨step, child, htarget, hchild⟩
    · rw [delete_of_nothing hnothing]
      exact h
    · by_cases hpath : path = []
      · subst hpath
        rw [delete_last htarget hchild]
        exact h.takeOut step
      · rw [delete_of_target? htarget hchild hpath]
        exact h.put (ih (h.behind hchild)) step

end DistinctKeys

/-! ## Reading -/

/-- Objects that are still being read have distinct keys already, and so have all complete values. -/
def Wanted.DistinctKeys : Wanted → Prop
  | .key members | .colon members _ => Json.DistinctKeys (.object members)
  | .separator value => value.DistinctKeys
  | _ => True

def Frame.DistinctKeys : Frame → Prop
  | .array items => ∀ item ∈ items, item.DistinctKeys
  | .object members _ => Json.DistinctKeys (.object members)

structure Machine.DistinctKeys (m : Machine) : Prop where
  wanted : m.wanted.DistinctKeys
  stack : ∀ frame ∈ m.stack, frame.DistinctKeys

namespace Machine

variable {m next : Machine} {stack : List Frame} {token : Token}

/-- The first token of a value opens an array without items, or is the whole of a value without keys. -/
theorem distinctKeys_of_beginValue (hstack : ∀ frame ∈ stack, frame.DistinctKeys)
    (h : beginValue stack token = some next) : next.DistinctKeys := by
  have hscalar {doc : Json} (hobject : ∀ members, doc ≠ .object members)
      (harray : ∀ items, doc ≠ .array items) : DistinctKeys ⟨.separator doc, stack⟩ :=
    ⟨distinctKeys_of_scalar hobject harray, hstack⟩
  cases token with
  | null | bool | number | string =>
    obtain rfl := Option.some.inj h
    exact hscalar (fun _ => nofun) (fun _ => nofun)
  | openArray =>
    simp only [beginValue] at h
    split at h
    · obtain rfl := Option.some.inj h
      exact ⟨trivial, List.forall_mem_cons.2 ⟨fun _ hitem => (nomatch hitem), hstack⟩⟩
    · cases h
  | openObject =>
    simp only [beginValue] at h
    split at h
    · obtain rfl := Option.some.inj h
      exact ⟨trivial, hstack⟩
    · cases h
  | _ => cases h

/-- A complete value goes into the innermost container, and closes it or not. -/
theorem distinctKeys_of_afterValue (hvalue : value.DistinctKeys)
    (hstack : ∀ frame ∈ stack, frame.DistinctKeys) (h : afterValue value stack token = some next) :
    next.DistinctKeys := by
  unfold afterValue at h
  split at h
  · obtain ⟨hitems, hstack⟩ := List.forall_mem_cons.1 hstack
    obtain rfl := Option.some.inj h
    exact ⟨trivial, List.forall_mem_cons.2 ⟨List.forall_mem_cons.2 ⟨hvalue, hitems⟩, hstack⟩⟩
  · obtain ⟨hitems, hstack⟩ := List.forall_mem_cons.1 hstack
    obtain rfl := Option.some.inj h
    refine ⟨distinctKeys_array.2 fun item hitem => ?_, hstack⟩
    exact List.forall_mem_cons.2 ⟨hvalue, hitems⟩ item (List.mem_reverse.1 hitem)
  · obtain ⟨hmembers, hstack⟩ := List.forall_mem_cons.1 hstack
    obtain rfl := Option.some.inj h
    exact ⟨Json.DistinctKeys.set hmembers hvalue _, hstack⟩
  · obtain ⟨hmembers, hstack⟩ := List.forall_mem_cons.1 hstack
    obtain rfl := Option.some.inj h
    exact ⟨Json.DistinctKeys.set hmembers hvalue _, hstack⟩
  · cases h

theorem DistinctKeys.of_step (h : m.DistinctKeys) (hstep : m.step token = some next) :
    next.DistinctKeys := by
  obtain ⟨wanted, stack⟩ := m
  obtain ⟨hwanted, hstack⟩ := h
  have hempty : Json.DistinctKeys (.object []) := distinctKeys_object.2 ⟨List.nodup_nil, nofun⟩
  cases wanted with
  | value => exact distinctKeys_of_beginValue hstack hstep
  | firstItem =>
    by_cases hclose : token = .closeArray
    · subst hclose
      cases stack with
      | nil => cases hstep
      | cons frame stack =>
        obtain rfl := Option.some.inj hstep
        exact ⟨distinctKeys_array.2 nofun, (List.forall_mem_cons.1 hstack).2⟩
    · have hbegin : Machine.step ⟨.firstItem, stack⟩ token = beginValue stack token := by
        cases token <;> simp_all [Machine.step]
      exact distinctKeys_of_beginValue hstack (hbegin.symm.trans hstep)
  | firstKey =>
    cases token with
    | closeObject | string =>
      obtain rfl := Option.some.inj hstep
      exact ⟨hempty, hstack⟩
    | _ => cases hstep
  | key members =>
    cases token with
    | string key =>
      obtain rfl := Option.some.inj hstep
      exact ⟨hwanted, hstack⟩
    | _ => cases hstep
  | colon members key =>
    cases token with
    | colon =>
      obtain rfl := Option.some.inj hstep
      exact ⟨trivial, List.forall_mem_cons.2 ⟨hwanted, hstack⟩⟩
    | _ => cases hstep
  | separator value => exact distinctKeys_of_afterValue hwanted hstack hstep

theorem DistinctKeys.of_foldlM (h : m.DistinctKeys) {tokens : List Token}
    (hsteps : tokens.foldlM Machine.step m = some next) : next.DistinctKeys := by
  induction tokens generalizing m with
  | nil => exact Option.some.inj hsteps ▸ h
  | cons token tokens ih =>
    rw [List.foldlM_cons] at hsteps
    obtain ⟨between, hstep, hrest⟩ := Option.bind_eq_some_iff.1 hsteps
    exact ih (h.of_step hstep) hrest

end Machine

/-- A document that has been read has distinct keys: a key that is repeated is set again. -/
theorem distinctKeys_of_read? {t : Text} (h : read? t = some doc) : doc.DistinctKeys := by
  obtain ⟨tokens, -, h⟩ := Option.bind_eq_some_iff.1 h
  obtain ⟨m, hsteps, hresult⟩ := Option.bind_eq_some_iff.1 h
  have hstart : Machine.start.DistinctKeys := ⟨trivial, nofun⟩
  have hm := hstart.of_foldlM hsteps
  unfold Machine.result? at hresult
  split at hresult
  · rename_i value hwanted _
    have hvalue := hm.wanted
    rw [hwanted] at hvalue
    exact Option.some.inj hresult ▸ hvalue
  · cases hresult

end SeedChain.Json

/-! ## Calls -/

namespace SeedChain.JsonDocument

variable {delimiter : Char} {doc next : JsonDocument} {args : Args} {outcome : Outcome}

/-- Only a container that is taken out of a document is a document again. -/
theorem root_of_carrier? {v : Json} {layout : Json.Layout} (h : v.carrier? layout = some (.json next)) :
    next.root = v := by
  cases v with
  | array | object =>
    cases h
    rfl
  | number n =>
    simp only [Json.carrier?] at h
    split at h <;> cases h
  | _ => cases h

theorem root_of_extract (h : extract delimiter doc args = .ok (some (.json next))) :
    ∃ path, doc.root.lookup path = some next.root := by
  obtain ⟨path, -, h⟩ := exists_of_bind_eq_ok h
  obtain ⟨v, hv, hcarrier⟩ := Option.bind_eq_some_iff.1 (Except.ok.inj h)
  exact ⟨path, by rw [hv, root_of_carrier? hcarrier]⟩

theorem root_of_replace (h : replace delimiter doc args = .ok (some (.json next))) :
    ∃ path raw, next.root = (Json.assign ((Json.read? raw).getD (.string raw)) path doc.root).2 := by
  obtain ⟨path, -, h⟩ := exists_of_bind_eq_ok h
  refine ⟨path, args.getD 1 "null".toList, ?_⟩
  simp only at h
  split at h
  · rename_i hassign
    cases h
    rw [hassign]
  · cases h

theorem root_of_remove (h : remove delimiter doc args = .ok (some (.json next))) :
    ∃ path, next.root = (doc.root.delete path).2 := by
  obtain ⟨path, -, h⟩ := exists_of_bind_eq_ok h
  cases h
  exact ⟨path, rfl⟩

open Operation in
/-- A call that goes on with a document goes on with the same root, with a part of it, or with the root after
a value has been written or taken out. -/
theorem root_of_invoke {name : Text} {args : List Text} {store after : Store}
    (h : (Value.json doc).invoke delimiter name args store = (.ok (some (.json next)), after)) :
    next.root = doc.root ∨ (∃ path, doc.root.lookup path = some next.root) ∨
      (∃ path raw, next.root = (Json.assign ((Json.read? raw).getD (.string raw)) path doc.root).2) ∨
      ∃ path, next.root = (doc.root.delete path).2 := by
  obtain ⟨op, hmem, bound, hrun⟩ := exists_run_of_call h
  simp only [operations, withShared, fixed, List.mem_cons, List.not_mem_nil, or_false] at hmem
  rcases hmem with rfl | rfl | rfl | rfl | rfl | rfl | rfl | rfl | rfl | rfl <;> simp only [run] at hrun
  · cases hrun
    exact .inl rfl
  · obtain ⟨t, -, ht⟩ := Option.map_eq_some_iff.1 (Except.ok.inj (Prod.mk.inj hrun).1)
    cases ht
  · exact .inr (.inl (root_of_extract (Prod.mk.inj hrun).1))
  · obtain ⟨path, -, hkeys⟩ := exists_of_bind_eq_ok (Prod.mk.inj hrun).1
    cases hkeys
  · obtain ⟨path, -, hcount⟩ := exists_of_bind_eq_ok (Prod.mk.inj hrun).1
    cases hcount
  · obtain ⟨path, -, hlist⟩ := exists_of_bind_eq_ok (Prod.mk.inj hrun).1
    cases hlist
  · exact .inr (.inr (.inl (root_of_replace (Prod.mk.inj hrun).1)))
  · exact .inr (.inr (.inr (root_of_remove (Prod.mk.inj hrun).1)))
  · cases hrun
    exact .inl rfl
  · cases hrun
    exact .inl rfl

/-- A written value is read from an argument, or it is a string. -/
theorem distinctKeys_of_argument (raw : Text) : ((Json.read? raw).getD (.string raw)).DistinctKeys := by
  cases hread : Json.read? raw with
  | none => exact Json.distinctKeys_of_scalar (fun _ => nofun) (fun _ => nofun)
  | some v => exact Json.distinctKeys_of_read? hread

/-- Every document that calls make of a document with distinct keys has distinct keys. -/
theorem distinctKeys_of_becomes (h : Value.Becomes Value.json delimiter doc next)
    (hdoc : doc.root.DistinctKeys) : next.root.DistinctKeys := by
  refine h.invariant (P := fun doc => doc.root.DistinctKeys) hdoc ?_
  intro doc next name args store after hkeys hcall
  rcases root_of_invoke hcall with hroot | ⟨path, hfound⟩ | ⟨path, raw, hroot⟩ | ⟨path, hroot⟩
  · rwa [hroot]
  · obtain ⟨place, hplace⟩ := Json.exists_location? hfound
    exact hkeys.at? ((Json.lookup_eq_at? hplace).symm.trans hfound)
  · rw [hroot]
    exact hkeys.assign (distinctKeys_of_argument raw) path
  · rw [hroot]
    exact hkeys.delete path

end SeedChain.JsonDocument
