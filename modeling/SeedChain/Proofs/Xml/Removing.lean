import Mathlib.Algebra.BigOperators.Group.List.Basic
import Mathlib.Algebra.GroupWithZero.Nat
import SeedChain.Proofs.Calls
import SeedChain.Proofs.Entries
import SeedChain.Proofs.Xml.Extracting
import SeedChain.Proofs.Xml.Places
/-!
# Taking out what is at a path

A path that can be read has its attribute step, if any, last, and its positions count from 1 (`IsPath`).
Selecting takes the matching children of all elements found so far and then looks for a position among
them, while taking out walks down the tree and counts the matching children it has passed. Both mean the
same places (`Element.kept_revision`), so what is left of a document is the tree without the elements, or
attributes, at the selected places.

What a path without positions counts is then gone, and what a path counts whose last step has a position
is missing from what is counted without that position (`XmlDocument.remove_deletes_selected`).
-/

namespace SeedChain.Xml

variable {steps rest : List Step} {step : Step} {name key path : Text} {position : Option Nat}

/-! ## Paths that can be read -/

/-- Steps as a path can have them. -/
inductive IsPath : List Step → Prop
  | nil : IsPath []
  | attr (key : Text) : IsPath [.attr key]
  | element {name : Text} {position : Option Nat} {rest : List Step} :
      (∀ p ∈ position, 0 < p) → IsPath rest → IsPath (.element name position :: rest)

theorem IsPath.cases_cons (h : IsPath (step :: rest)) :
    (∃ key, step = .attr key ∧ rest = []) ∨
      ∃ name position, step = .element name position ∧ (∀ p ∈ position, 0 < p) ∧ IsPath rest := by
  cases h with
  | attr key => exact .inl ⟨key, rfl, rfl⟩
  | element hposition hrest => exact .inr ⟨_, _, rfl, hposition, hrest⟩

theorem position_pos_of_read {part : Text} (h : Step.read part = .ok (.element name position)) :
    ∀ p ∈ position, 0 < p := by
  unfold Step.read at h
  split at h
  · cases h
  · split at h
    · cases h
      nofun
    · split at h
      · cases h
      · split at h
        · rename_i p hp
          cases h
          rintro _ ⟨⟩
          simpa using (Option.filter_eq_some_iff.1 hp).2
        · cases h

theorem isPath_of_mapM {parts : List Text} (h : parts.mapM Step.read = .ok steps)
    (hlast : steps.dropLast.any Step.isAttr = false) : IsPath steps := by
  induction parts generalizing steps with
  | nil =>
    cases h
    exact .nil
  | cons part parts ih =>
    rw [List.mapM_cons] at h
    obtain ⟨step, hstep, h⟩ := exists_of_bind_eq_ok h
    obtain ⟨rest, hrest, h⟩ := exists_of_bind_eq_ok h
    cases h
    by_cases hnil : rest = []
    · subst hnil
      cases step with
      | attr key => exact .attr key
      | element name position => exact .element (position_pos_of_read hstep) .nil
    · rw [List.dropLast_cons_of_ne_nil hnil, List.any_cons, Bool.or_eq_false_iff] at hlast
      cases step with
      | attr key => exact absurd hlast.1 (by simp [Step.isAttr])
      | element name position => exact .element (position_pos_of_read hstep) (ih hrest hlast.2)

theorem isPath_of_readSteps (h : readSteps path = .ok steps) : IsPath steps := by
  obtain ⟨read, hread, h⟩ := exists_of_bind_eq_ok h
  split at h
  · cases h
  · rename_i hlast
    cases h
    exact isPath_of_mapM hread (by simpa using hlast)

theorem isPath_of_stepsFrom {root : Element} (h : stepsFrom root path = .ok (some steps)) :
    IsPath steps := by
  obtain ⟨read, hread, h⟩ := exists_of_bind_eq_ok h
  have hpath : IsPath read := isPath_of_readSteps hread
  split at h
  · cases hpath with
    | element _ hrest =>
      split at h <;> cases h
      exact hrest
  · cases h
  · cases h
    exact hpath

theorem attributeStep?_element :
    Element.attributeStep? (.element name position :: rest) = Element.attributeStep? rest := by
  cases rest with
  | nil => rfl
  | cons step rest => rfl

/-! ## The same places -/

/-- The elements of a list that a position means, counted from 1, when `seen` others have been passed: all
of them without a position. -/
def pick {α : Type} (position : Option Nat) (seen : Nat) (xs : List α) : List α :=
  match position with
  | none => xs
  | some p => if seen < p then (xs.drop (p - 1 - seen)).take 1 else []

theorem pick_cons {α : Type} (position : Option Nat) (seen : Nat) (x : α) (xs : List α) :
    pick position seen (x :: xs) =
      if position.all (· == seen + 1) then x :: pick position (seen + 1) xs
      else pick position (seen + 1) xs := by
  cases position with
  | none => rfl
  | some p =>
    simp only [pick, Option.all_some, beq_iff_eq]
    rcases Nat.lt_trichotomy p (seen + 1) with hlt | rfl | hgt
    · rw [if_neg (by omega), if_neg (by omega), if_neg (by omega)]
    · simp
    · rw [if_pos (by omega), if_neg (by omega), if_pos (by omega),
        show p - 1 - seen = p - 1 - (seen + 1) + 1 by omega, List.drop_succ_cons]

theorem pick_subset {α : Type} (position : Option Nat) (seen : Nat) (xs : List α) :
    pick position seen xs ⊆ xs := by
  cases position with
  | none => exact List.Subset.refl xs
  | some p =>
    simp only [pick]
    split
    · exact ((List.take_sublist _ _).trans (List.drop_sublist _ _)).subset
    · exact List.nil_subset xs

namespace Forest

/-- The edit of some elements, which are given with their positions. -/
def editOnly (chosen : List (Nat × Element)) (edit : Element → Option Element) (i : Nat) (e : Element) :
    Option Element :=
  if (i, e) ∈ chosen then edit e else some e

theorem editEach_editOnly_congr {chosen chosen' : List (Nat × Element)} {f : Forest} {i : Nat}
    (h : ∀ j e, i ≤ j → ((j, e) ∈ chosen ↔ (j, e) ∈ chosen')) (edit : Element → Option Element) :
    f.editEach (editOnly chosen edit) i = f.editEach (editOnly chosen' edit) i := by
  refine editEach_congr fun j e he => ?_
  simp only [editOnly, h j e (le_of_mem_numbered he)]

/-- Editing with a count of what has been passed edits the elements that are picked. -/
theorem editWhere_eq (called : Text → Bool) (position : Option Nat) (edit : Element → Option Element)
    (seen i : Nat) (f : Forest) :
    f.editWhere called position edit seen =
      f.editEach
        (editOnly (pick position seen ((f.numbered i).filter fun child => called child.2.name)) edit) i := by
  induction f generalizing seen i with
  | nil => rfl
  | text t rest ih => exact congrArg (text t) (ih seen (i + 1))
  | element name attributes children rest _ ih =>
    let e : Element := ⟨name, attributes, children⟩
    let later := (rest.numbered (i + 1)).filter fun child => called child.2.name
    have hfresh (seen' : Nat) : (i, e) ∉ pick position seen' later := fun hmem => absurd
      (le_of_mem_numbered (List.mem_filter.1 (pick_subset _ _ _ hmem)).1) (by simp)
    have hkept (seen' : Nat) : editOnly (pick position seen' later) edit i e = some e :=
      if_neg (hfresh seen')
    by_cases hcalled : called name = true
    · have hnumbered : ((element name attributes children rest).numbered i).filter
          (fun child => called child.2.name) = (i, e) :: later := List.filter_cons_of_pos hcalled
      rw [hnumbered, pick_cons]
      simp only [editWhere, hcalled, if_true]
      split
      · have hchosen : editOnly ((i, e) :: pick position (seen + 1) later) edit i
            ⟨name, attributes, children⟩ = edit ⟨name, attributes, children⟩ :=
          if_pos List.mem_cons_self
        -- what is chosen further on stands behind `i`, so the element at `i` makes no difference there
        have hrest : rest.editEach (editOnly ((i, e) :: pick position (seen + 1) later) edit) (i + 1) =
            rest.editWhere called position edit (seen + 1) := by
          rw [ih (seen + 1) (i + 1)]
          refine editEach_editOnly_congr (fun j e' hj => ?_) edit
          have hne : (j, e') ≠ (i, e) := fun heq => absurd (congrArg Prod.fst heq) (by simp; omega)
          simp [hne, later]
        cases hedit : edit ⟨name, attributes, children⟩ <;>
          simp only [editEach, hchosen, hrest, hedit]
      · rw [editEach, hkept, ih (seen + 1) (i + 1)]
    · have hnumbered : ((element name attributes children rest).numbered i).filter
          (fun child => called child.2.name) = later := List.filter_cons_of_neg hcalled
      rw [hnumbered, editWhere, if_neg hcalled, editEach, hkept, ih seen (i + 1)]

theorem keeping_eq (keep : Place → Attributes → Option Attributes) (f : Forest) (i : Nat) :
    f.keeping keep i = f.editEach (fun j e => e.kept fun place => keep (j :: place)) i := by
  induction f generalizing i with
  | nil => rfl
  | text t rest ih => exact congrArg (text t) (ih (i + 1))
  | element name attributes children rest _ ih =>
    rw [keeping, editEach, ih, Element.kept]
    cases keep [i] attributes <;> rfl

end Forest

namespace Element

variable {e child : Element}

theorem selectNumbered_eq_pick (h : ∀ p ∈ position, 0 < p) :
    e.selectNumbered name position =
      pick position 0 ((e.children.numbered 0).filter fun child => Step.calls name child.2.name) := by
  cases position with
  | none => rfl
  | some p =>
    simp only [selectNumbered, pick]
    rw [if_pos (h p rfl), Nat.sub_zero]

theorem kept_of_some {keep : Place → Attributes → Option Attributes}
    (h : ∀ place attributes, keep place attributes = some attributes) : e.kept keep = some e := by
  rw [kept, h, Option.map_some, Forest.keeping_of_some fun i place => h (i :: place)]

/-- An element with children taken out as the rest of the path says for them. -/
theorem remove_element (h : ∀ p ∈ position, 0 < p) (rest : List Step) (e : Element) :
    e.remove (.element name position :: rest) =
      { e with
        children := e.children.editEach (Forest.editOnly (e.selectNumbered name position)
          fun child => if rest.isEmpty then none else some (child.remove rest)) 0 } := by
  rw [remove, Forest.editWhere_eq _ _ _ 0 0, ← selectNumbered_eq_pick h]

/-- Taking out at a path revises the tree place by place. -/
theorem kept_revision (h : IsPath steps) (e : Element) :
    e.kept (e.revision steps) = if steps.isEmpty then none else some (e.remove steps) := by
  induction h generalizing e with
  | nil => rfl
  | attr key =>
    have hbelow (i : Nat) (place : Place) (attributes : Attributes) :
        e.revision [.attr key] (i :: place) attributes = some attributes := by simp [revision, places]
    rw [kept, Forest.keeping_of_some hbelow]
    rfl
  | @element name position rest hposition _ ih =>
    have hroot : e.revision (.element name position :: rest) [] e.attributes = some e.attributes :=
      if_neg nil_not_mem_places
    rw [kept, hroot, Option.map_some, remove_element hposition, Forest.keeping_eq]
    refine congrArg (fun children => some { e with children }) ?_
    refine Forest.editEach_congr fun i child hchild => ?_
    unfold Forest.editOnly
    split
    · rename_i hchosen
      refine Eq.trans ?_ (ih child)
      congr 1
      funext place attributes
      have hplace : i :: place ∈ e.places (.element name position :: rest) ↔
          place ∈ child.places rest := by
        rw [cons_mem_places]
        refine ⟨?_, fun hplace => ⟨child, hchosen, hplace⟩⟩
        rintro ⟨other, hother, hplace⟩
        rwa [Forest.eq_of_mem_numbered hchild (mem_numbered_of_mem_selectNumbered hother)]
      simp only [revision, hplace, attributeStep?_element]
    · rename_i hchosen
      refine kept_of_some fun place attributes => if_neg fun hplace => hchosen ?_
      obtain ⟨other, hother, -⟩ := cons_mem_places.1 hplace
      rwa [Forest.eq_of_mem_numbered hchild (mem_numbered_of_mem_selectNumbered hother)]

theorem remove_eq_of_revision (h : IsPath steps) (hne : steps ≠ []) {left : Attributes}
    (hroot : e.revision steps [] e.attributes = some left) :
    e.remove steps = ⟨e.name, left, e.children.keeping (e.revision steps) 0⟩ := by
  have hkept := kept_revision h e
  rw [kept, hroot, if_neg (by simpa using hne)] at hkept
  exact (Option.some.inj hkept).symm

/-- Behind an element step, exactly the selected elements are taken out. -/
theorem remove_eq_without (h : IsPath steps) (hne : steps ≠ []) (hlast : attributeStep? steps = none) :
    e.remove steps = e.without (e.places steps) := by
  cases h with
  | nil => exact absurd rfl hne
  | attr key => cases hlast
  | element hposition hrest =>
    rw [remove_eq_of_revision (.element hposition hrest) hne (if_neg nil_not_mem_places), without]
    congr 2
    funext place attributes
    rw [revision, hlast, Option.map_none]

/-- Behind an attribute step, the attribute is taken out of exactly the selected elements. -/
theorem remove_eq_withoutAttribute (h : IsPath steps) (hlast : attributeStep? steps = some key) :
    e.remove steps = e.withoutAttribute key (e.places steps) := by
  have hne : steps ≠ [] := by
    rintro rfl
    cases hlast
  have hrevision (place : Place) (attributes : Attributes) : e.revision steps place attributes =
      some (if place ∈ e.places steps then Entries.remove key attributes else attributes) := by
    simp only [revision, hlast, Option.map_some]
    split <;> rfl
  rw [remove_eq_of_revision h hne (hrevision [] e.attributes), withoutAttribute]
  simp only [funext fun place => funext (hrevision place), Function.comp_def]

/-! ## Counting what is left -/

@[simp]
theorem name_remove (steps : List Step) (e : Element) : (e.remove steps).name = e.name := by
  unfold remove
  split <;> rfl

/-- A path counts what the rest of it counts in the children that its first step selects. -/
theorem count_element (name : Text) (position : Option Nat) (rest : List Step) (e : Element) :
    e.count (.element name position :: rest) =
      ((e.selectChildren name position).map (·.count rest)).sum := by
  simp only [count, attributeStep?_element, select]
  split
  · rw [List.countP_flatMap]
    rfl
  · rw [List.length_flatMap]

/-- Where something is taken out further down, the same children are selected as before. -/
theorem selectChildren_remove (h : ∀ p ∈ position, 0 < p) (hrest : rest ≠ []) (e : Element) :
    (e.remove (.element name position :: rest)).selectChildren name position =
      (e.selectChildren name position).map (·.remove rest) := by
  let edited (child : Nat × Element) : Element :=
    if child ∈ e.selectNumbered name position then child.2.remove rest else child.2
  have hname (child : Nat × Element) : (edited child).name = child.2.name := by
    simp only [edited]
    split
    · exact name_remove rest child.2
    · rfl
  have helements : (e.remove (.element name position :: rest)).elements =
      (e.children.numbered 0).map edited := by
    rw [remove_element h, elements, Forest.elements_editEach, ← List.filterMap_eq_map]
    refine List.filterMap_congr fun child _ => ?_
    have hempty : ¬ rest.isEmpty = true := by simpa using hrest
    simp only [Forest.editOnly, edited, Function.comp_apply, if_neg hempty]
    split <;> rfl
  have hcalled : (e.remove (.element name position :: rest)).elements.filter
      (fun child => Step.calls name child.name) =
      ((e.children.numbered 0).filter fun child => Step.calls name child.2.name).map edited := by
    rw [helements, List.filter_map]
    simp only [Function.comp_def, hname]
  have hselected : (e.remove (.element name position :: rest)).selectChildren name position =
      (e.selectNumbered name position).map edited := by
    unfold selectChildren selectNumbered
    rw [hcalled]
    cases position with
    | none => rfl
    | some p => simp only [List.map_take, List.map_drop]
  rw [hselected, ← map_selectNumbered, List.map_map]
  exact List.map_congr_left fun child hchild => if_pos hchild

theorem select_child (name : Text) (position : Option Nat) (e : Element) :
    e.select [.element name position] = e.selectChildren name position := by
  simp only [select]
  exact List.flatMap_singleton' _

theorem count_child (name : Text) (position : Option Nat) (e : Element) :
    e.count [.element name position] = (e.selectNumbered name position).length := by
  change (e.select [.element name position]).length = _
  rw [select_child, ← map_selectNumbered, List.length_map]

/-- What is taken out of an element is missing among its children. -/
theorem count_remove_child (h : ∀ p ∈ position, 0 < p) (e : Element) :
    (e.remove [.element name position]).count [.element name none] +
      e.count [.element name position] = e.count [.element name none] := by
  let chosen := e.selectNumbered name position
  let called := e.selectNumbered name none
  have hleft : ((e.remove [.element name position]).count [.element name none]) =
      (called.filter (· ∉ chosen)).length := by
    have helements : (e.remove [.element name position]).elements =
        ((e.children.numbered 0).filter (· ∉ chosen)).map Prod.snd := by
      rw [remove_element h, elements, Forest.elements_editEach, ← List.filterMap_eq_map,
        List.filterMap_filter]
      refine List.filterMap_congr fun child _ => ?_
      simp [Forest.editOnly, chosen]
    change ((e.remove [.element name position]).select [.element name none]).length = _
    rw [select_child, selectChildren, helements, List.filter_map, List.length_map]
    exact congrArg List.length (List.filter_comm _ _ _)
  have hcalled : called.Nodup := (Forest.nodup_positions e.children 0).of_map.sublist List.filter_sublist
  have hsub : chosen.Sublist called := selectNumbered_sublist name position e
  have hchosen : (called.filter (· ∈ chosen)).Perm chosen := by
    refine (List.perm_ext_iff_of_nodup (hcalled.sublist List.filter_sublist) (hcalled.sublist hsub)).2
      fun child => ?_
    simpa using fun hmem => hsub.subset hmem
  rw [hleft, count_child, count_child, ← hchosen.length_eq,
    List.length_eq_length_filter_add (l := e.selectNumbered name none) (· ∈ chosen), Nat.add_comm]
  simp [called]

/-- What is taken out at a path is missing from what is counted without the position of its last step. -/
theorem count_remove (init : List Step) (h : IsPath (init ++ [.element name position])) (e : Element) :
    (e.remove (init ++ [.element name position])).count (init ++ [.element name none]) +
      e.count (init ++ [.element name position]) = e.count (init ++ [.element name none]) := by
  induction init generalizing e with
  | nil =>
    cases h with
    | element hposition _ => exact count_remove_child hposition e
  | cons step init ih =>
    have hrest (last : Step) : init ++ [last] ≠ [] := by simp
    rcases h.cases_cons with ⟨key, -, hnil⟩ | ⟨stepName, stepPosition, rfl, hposition, hpath⟩
    · exact absurd hnil (hrest _)
    · rw [List.cons_append, List.cons_append, count_element, count_element, count_element,
        selectChildren_remove hposition (hrest _), List.map_map, ← List.sum_map_add]
      exact congrArg List.sum (List.map_congr_left fun child _ => ih hpath child)

/-- Without positions, nothing is left to be counted. -/
theorem count_remove_eq_zero (h : IsPath steps) (hne : steps ≠ [])
    (hfree : ∀ name position, .element name position ∈ steps → position = none) (e : Element) :
    (e.remove steps).count steps = 0 := by
  induction h generalizing e with
  | nil => exact absurd rfl hne
  | attr key =>
    have hmissing : (e.remove [.attr key]).attribute? key = none :=
      Entries.get?_eq_none_iff.2 (by simp [remove, Entries.keys_remove])
    simp [count, attributeStep?, select, hmissing]
  | @element name position rest hposition _ ih =>
    obtain rfl : position = none := hfree name position List.mem_cons_self
    by_cases hrest : rest = []
    · subst hrest
      have hcount : (e.remove [.element name none]).count [.element name none] +
          e.count [.element name none] = e.count [.element name none] := count_remove_child hposition e
      omega
    · rw [count_element, selectChildren_remove hposition hrest, List.map_map]
      refine List.sum_eq_zero_iff_forall_eq_nat.2 fun n hn => ?_
      obtain ⟨child, -, rfl⟩ := List.mem_map.1 hn
      exact ih hrest (fun name position hmem => hfree name position (List.mem_cons_of_mem _ hmem)) child

end Element

/-- Steps are found in the same way below roots of one name. -/
theorem stepsFrom_congr {root root' : Element} (h : root.name = root'.name) (path : Text) :
    stepsFrom root path = stepsFrom root' path := by
  simp only [stepsFrom, h]

end SeedChain.Xml

namespace SeedChain.XmlDocument

open Xml Element

variable {doc : XmlDocument} {path : Text} {steps : List Step}

theorem invoke_remove (h : stepsFrom doc.root path = .ok (some steps)) (delimiter : Char)
    (store : Store) :
    (Value.xml doc).invoke delimiter "remove".toList [path] store =
      (goOn (.xml { doc with root := doc.root.remove steps }), store) := by
  have hbody : remove delimiter doc (Args.bind (.fixed 1) [path]) =
      goOn (.xml { doc with root := doc.root.remove steps }) := by
    rw [XmlDocument.remove, steps_eq h]
    rfl
  exact congrArg (·, store) hbody

/-- Taking out what is at a path leaves the tree without the selected elements, or without the attribute of
the selected elements, all else being kept in order. The path then counts nothing if it has no positions.
If its last step has a position, what it counts is missing from what is counted without that position. -/
theorem remove_deletes_selected (hsteps : stepsFrom doc.root path = .ok (some steps))
    (hne : steps ≠ []) :
    ∃ left : XmlDocument,
      (∀ (delimiter : Char) (store : Store),
        (Value.xml doc).invoke delimiter "remove".toList [path] store = (goOn (.xml left), store)) ∧
      left.indented = doc.indented ∧
      (doc.root.places steps).map (fun place => doc.root.at? place) =
        (doc.root.select steps).map some ∧
      (doc.root.places steps).Nodup ∧
      (attributeStep? steps = none → left.root = doc.root.without (doc.root.places steps)) ∧
      (∀ key, attributeStep? steps = some key →
        left.root = doc.root.withoutAttribute key (doc.root.places steps)) ∧
      ((∀ name position, .element name position ∈ steps → position = none) → left.Counts path 0) ∧
      ∀ init name position, steps = init ++ [.element name (some position)] →
        left.root.count (init ++ [.element name none]) + doc.root.count steps =
          doc.root.count (init ++ [.element name none]) ∧
        doc.Counts path (doc.root.count steps) ∧
        ∀ bare, stepsFrom doc.root bare = .ok (some (init ++ [.element name none])) →
          doc.Counts bare (doc.root.count (init ++ [.element name none])) ∧
          left.Counts bare (left.root.count (init ++ [.element name none])) := by
  have hpath : IsPath steps := isPath_of_stepsFrom hsteps
  have hleft (other : Text) : stepsFrom (doc.root.remove steps) other = stepsFrom doc.root other :=
    stepsFrom_congr (name_remove steps doc.root) other
  refine ⟨_, invoke_remove hsteps, rfl, map_at?_places steps doc.root, nodup_places steps doc.root,
    remove_eq_without hpath hne, fun key => remove_eq_withoutAttribute hpath, fun hfree => ?_, ?_⟩
  · have hcounts : XmlDocument.Counts { doc with root := doc.root.remove steps } path
        ((doc.root.remove steps).count steps) := counts_of_steps ((hleft path).trans hsteps)
    rwa [count_remove_eq_zero hpath hne hfree] at hcounts
  · rintro init name position rfl
    exact ⟨count_remove init hpath doc.root, counts_of_steps hsteps, fun bare hbare =>
      ⟨counts_of_steps hbare, counts_of_steps ((hleft bare).trans hbare)⟩⟩

/-- The first `c` below each child is taken out, also where another one that is like it stays. -/
theorem remove_deletes_selected_alike :
    let c (rest : Forest) : Forest := .element ['c'] [] .nil rest
    let doc : XmlDocument := ⟨⟨['a'], [], .text ['x']
      (.element ['b'] [] (c (.text ['y'] (c .nil))) (.element ['d'] [] (c .nil) .nil))⟩, false⟩
    let left : XmlDocument := ⟨⟨['a'], [], .text ['x']
      (.element ['b'] [] (.text ['y'] (c .nil)) (.element ['d'] [] .nil .nil))⟩, false⟩
    let path := "*/c[1]".toList
    let bare := "*/c".toList
    let steps : List Step := [.element ['*'] none, .element ['c'] (some 1)]
    stepsFrom doc.root path = .ok (some steps) ∧ steps ≠ [] ∧
    stepsFrom doc.root bare = .ok (some [.element ['*'] none, .element ['c'] none]) ∧
    doc.root.places steps = [[1, 0], [2, 0]] ∧
    (Value.xml doc).invoke ',' "remove".toList [path] [] = (goOn (.xml left), []) ∧
    left.root = doc.root.without [[1, 0], [2, 0]] ∧
    doc.Counts bare 3 ∧ doc.Counts path 2 ∧ left.Counts bare 1 := by
  intro c doc left path bare steps
  have hsteps : stepsFrom doc.root path = .ok (some steps) := by rfl
  have hbare : stepsFrom doc.root bare = .ok (some [.element ['*'] none, .element ['c'] none]) := by rfl
  have hplaces : doc.root.places steps = [[1, 0], [2, 0]] := by rfl
  have hremove : (Value.xml doc).invoke ',' "remove".toList [path] [] = (goOn (.xml left), []) :=
    invoke_remove hsteps ',' []
  obtain ⟨left', hinvoke, -, -, -, hwithout, -, -, hcounts⟩ :=
    remove_deletes_selected hsteps (List.cons_ne_nil _ _)
  obtain rfl : left' = left := by
    have hsame := (hinvoke ',' []).symm.trans hremove
    cases hsame
    rfl
  obtain ⟨-, htaken, hothers⟩ := hcounts [.element ['*'] none] ['c'] 1 rfl
  obtain ⟨hbefore, hafter⟩ := hothers bare hbare
  exact ⟨hsteps, List.cons_ne_nil _ _, hbare, hplaces, hremove, hplaces ▸ hwithout rfl, hbefore, htaken,
    hafter⟩

end SeedChain.XmlDocument
