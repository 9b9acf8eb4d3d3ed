import Mathlib.Data.List.Nodup
import SeedChain.Xml.Path
/-!
# Places in a tree

An element stands at a place: on the way down to it from the root, the position among the content of
each element (`Element.at?`). The elements that a path selects stand at different places
(`Element.places`, `Element.map_at?_places`, `Element.nodup_places`), also if they are alike. A tree can
be left without the elements at some places, or without an attribute of them (`Element.without`,
`Element.withoutAttribute`), which keeps everything else as it is and where it is in order.
-/

namespace SeedChain.Xml

/-- The position among the content, for each element on the way down. -/
abbrev Place := List Nat

/-! ## Positions among the content -/

namespace Forest

variable {f : Forest} {i j : Nat} {e e' : Element}

/-- The elements among the content with their positions, counted on from `i`. -/
def numbered (i : Nat) : Forest → List (Nat × Element)
  | nil => []
  | text _ rest => rest.numbered (i + 1)
  | element name attributes children rest =>
    (i, ⟨name, attributes, children⟩) :: rest.numbered (i + 1)

/-- The element at a position, unless a text stands there. -/
def element? : Nat → Forest → Option Element
  | _, nil => none
  | 0, text _ _ => none
  | 0, element name attributes children _ => some ⟨name, attributes, children⟩
  | i + 1, text _ rest => rest.element? i
  | i + 1, element _ _ _ rest => rest.element? i

/-- The content with each element changed or taken out, as said for its position. -/
def editEach (edit : Nat → Element → Option Element) (i : Nat) : Forest → Forest
  | nil => nil
  | text t rest => text t (rest.editEach edit (i + 1))
  | element name attributes children rest =>
    match edit i ⟨name, attributes, children⟩ with
    | some e => element e.name e.attributes e.children (rest.editEach edit (i + 1))
    | none => rest.editEach edit (i + 1)

/-- The content with each element in it taken out, or left with some attributes, as said for its place. -/
def keeping (keep : Place → Attributes → Option Attributes) (i : Nat) : Forest → Forest
  | nil => nil
  | text t rest => text t (rest.keeping keep (i + 1))
  | element name attributes children rest =>
    match keep [i] attributes with
    | some kept =>
      element name kept (children.keeping (fun place => keep (i :: place)) 0) (rest.keeping keep (i + 1))
    | none => rest.keeping keep (i + 1)

theorem map_numbered (f : Forest) (i : Nat) : (f.numbered i).map Prod.snd = f.elements := by
  induction f generalizing i with
  | nil => rfl
  | text t rest ih => exact ih (i + 1)
  | element name attributes children rest _ ih => exact congrArg (_ :: ·) (ih (i + 1))

theorem exists_position (h : (j, e) ∈ f.numbered i) : ∃ k, j = i + k ∧ f.element? k = some e := by
  induction f generalizing i with
  | nil => cases h
  | text t rest ih =>
    obtain ⟨k, rfl, hk⟩ := ih h
    exact ⟨k + 1, by omega, hk⟩
  | element name attributes children rest _ ih =>
    rcases List.mem_cons.1 h with heq | h
    · obtain ⟨rfl, rfl⟩ := Prod.mk.inj heq
      exact ⟨0, rfl, rfl⟩
    · obtain ⟨k, rfl, hk⟩ := ih h
      exact ⟨k + 1, by omega, hk⟩

theorem le_of_mem_numbered (h : (j, e) ∈ f.numbered i) : i ≤ j := by
  obtain ⟨k, rfl, -⟩ := exists_position h
  exact Nat.le_add_right i k

theorem element?_of_mem_numbered (h : (j, e) ∈ f.numbered 0) : f.element? j = some e := by
  obtain ⟨k, rfl, hk⟩ := exists_position h
  rwa [Nat.zero_add]

/-- At a position stands one element. -/
theorem eq_of_mem_numbered (h : (j, e) ∈ f.numbered 0) (h' : (j, e') ∈ f.numbered 0) : e = e' :=
  Option.some.inj ((element?_of_mem_numbered h).symm.trans (element?_of_mem_numbered h'))

theorem nodup_positions (f : Forest) (i : Nat) : ((f.numbered i).map Prod.fst).Nodup := by
  induction f generalizing i with
  | nil => exact List.nodup_nil
  | text t rest ih => exact ih (i + 1)
  | element name attributes children rest _ ih =>
    refine List.nodup_cons.2 ⟨fun hmem => ?_, ih (i + 1)⟩
    obtain ⟨⟨j, e⟩, he, rfl⟩ := List.mem_map.1 hmem
    exact absurd (le_of_mem_numbered he) (by simp)

/-- The content is edited as is said of the elements in it. -/
theorem editEach_congr {edit edit' : Nat → Element → Option Element}
    (h : ∀ j e, (j, e) ∈ f.numbered i → edit j e = edit' j e) :
    f.editEach edit i = f.editEach edit' i := by
  induction f generalizing i with
  | nil => rfl
  | text t rest ih => exact congrArg (text t) (ih h)
  | element name attributes children rest _ ih =>
    have hrest := ih fun j e he => h j e (List.mem_cons_of_mem _ he)
    rw [editEach, editEach, h i _ List.mem_cons_self, hrest]

theorem elements_editEach (edit : Nat → Element → Option Element) (f : Forest) (i : Nat) :
    (f.editEach edit i).elements = (f.numbered i).filterMap fun child => edit child.1 child.2 := by
  induction f generalizing i with
  | nil => rfl
  | text t rest ih => exact ih (i + 1)
  | element name attributes children rest _ ih =>
    rw [editEach, numbered, List.filterMap_cons]
    split
    · rename_i e he
      rw [he]
      exact congrArg (e :: ·) (ih (i + 1))
    · rename_i he
      rw [he]
      exact ih (i + 1)

theorem keeping_of_some {keep : Place → Attributes → Option Attributes}
    (h : ∀ i place attributes, keep (i :: place) attributes = some attributes) (f : Forest) (i : Nat) :
    f.keeping keep i = f := by
  induction f generalizing keep i with
  | nil => rfl
  | text t rest ih => exact congrArg (text t) (ih h (i + 1))
  | element name attributes children rest ihChildren ih =>
    rw [keeping, h]
    simp only
    rw [ihChildren fun j place => h i (j :: place), ih h]

end Forest

namespace Element

variable {steps rest : List Step} {name : Text} {position : Option Nat} {place : Place} {i : Nat}
  {e child : Element}

/-- The element at a place. -/
def at? : Place → Element → Option Element
  | [], e => some e
  | i :: place, e => (e.children.element? i).bind (at? place)

/-- The element with everything in it kept or taken out, as said for its place. -/
def kept (keep : Place → Attributes → Option Attributes) (e : Element) : Option Element :=
  (keep [] e.attributes).map fun attributes => ⟨e.name, attributes, e.children.keeping keep 0⟩

/-- The tree without the elements in it that stand at some places. -/
def without (gone : List Place) (e : Element) : Element :=
  let keep (place : Place) (attributes : Attributes) := if place ∈ gone then none else some attributes
  { e with children := e.children.keeping keep 0 }

/-- The tree in which the elements at some places are without an attribute. -/
def withoutAttribute (key : Text) (marked : List Place) (e : Element) : Element :=
  let left (place : Place) (attributes : Attributes) :=
    if place ∈ marked then Entries.remove key attributes else attributes
  ⟨e.name, left [] e.attributes, e.children.keeping (fun place => some ∘ left place) 0⟩

/-! ## Places that are selected -/

/-- The child elements that a step selects, with their positions. -/
def selectNumbered (name : Text) (position : Option Nat) (e : Element) : List (Nat × Element) :=
  let called := (e.children.numbered 0).filter fun child => Step.calls name child.2.name
  match position with
  | some p => (called.drop (p - 1)).take 1
  | none => called

/-- The places of the elements that a path selects. -/
def places (steps : List Step) (e : Element) : List Place :=
  match steps with
  | .element name position :: rest =>
    (e.selectNumbered name position).flatMap fun (i, child) => (child.places rest).map (i :: ·)
  | _ => [[]]

/-- What taking out at a path does to the attributes at a place: the last step says whether the element
or an attribute of it goes. -/
def revision (steps : List Step) (e : Element) (place : Place) (attributes : Attributes) :
    Option Attributes :=
  if place ∈ e.places steps then
    (attributeStep? steps).map fun key => Entries.remove key attributes
  else some attributes

theorem map_selectNumbered (name : Text) (position : Option Nat) (e : Element) :
    (e.selectNumbered name position).map Prod.snd = e.selectChildren name position := by
  have hcalled : ((e.children.numbered 0).filter fun child => Step.calls name child.2.name).map Prod.snd =
      e.elements.filter fun child => Step.calls name child.name := by
    rw [elements, ← Forest.map_numbered e.children 0, List.filter_map]
    rfl
  cases position with
  | none => exact hcalled
  | some p => exact (List.map_take ..).trans (by rw [List.map_drop, hcalled]; rfl)

theorem selectNumbered_sublist (name : Text) (position : Option Nat) (e : Element) :
    (e.selectNumbered name position).Sublist (e.selectNumbered name none) := by
  cases position with
  | none => exact .refl _
  | some p => exact (List.take_sublist _ _).trans (List.drop_sublist _ _)

theorem mem_numbered_of_mem_selectNumbered (h : (i, child) ∈ e.selectNumbered name position) :
    (i, child) ∈ e.children.numbered 0 :=
  (List.mem_filter.1 ((selectNumbered_sublist name position e).subset h)).1

theorem cons_mem_places :
    i :: place ∈ e.places (.element name position :: rest) ↔
      ∃ child, (i, child) ∈ e.selectNumbered name position ∧ place ∈ child.places rest := by
  simp [places]

theorem nil_not_mem_places : [] ∉ e.places (.element name position :: rest) := by
  simp [places]

/-- At the places that a path selects stand the elements that it selects. -/
theorem map_at?_places (steps : List Step) (e : Element) :
    (e.places steps).map (fun place => e.at? place) = (e.select steps).map some := by
  induction steps generalizing e with
  | nil => rfl
  | cons step rest ih =>
    cases step with
    | attr key => rfl
    | element name position =>
      rw [places, select, ← map_selectNumbered, List.flatMap_map, List.map_flatMap, List.map_flatMap]
      refine List.flatMap_congr fun (i, child) hchild => ?_
      have hposition : e.children.element? i = some child :=
        Forest.element?_of_mem_numbered (mem_numbered_of_mem_selectNumbered hchild)
      rw [List.map_map, ← ih child]
      refine List.map_congr_left fun place _ => ?_
      rw [Function.comp_apply, at?, hposition, Option.bind_some]

/-- A path selects no place twice. -/
theorem nodup_places (steps : List Step) (e : Element) : (e.places steps).Nodup := by
  induction steps generalizing e with
  | nil => exact List.nodup_singleton _
  | cons step rest ih =>
    cases step with
    | attr key => exact List.nodup_singleton _
    | element name position =>
      have hpositions : (e.selectNumbered name position).Pairwise fun a b => a.1 ≠ b.1 := by
        have hsub := (selectNumbered_sublist name position e).trans List.filter_sublist
        exact (List.pairwise_map.1 (Forest.nodup_positions e.children 0)).sublist hsub
      refine List.nodup_flatMap.2 ⟨fun child _ => ?_, hpositions.imp fun hne => ?_⟩
      · exact (ih child.2).map fun _ _ h => (List.cons.inj h).2
      · rintro place hfirst hsecond
        obtain ⟨_, -, rfl⟩ := List.mem_map.1 hfirst
        obtain ⟨_, -, heq⟩ := List.mem_map.1 hsecond
        exact hne (List.cons.inj heq).1.symm

end Element

end SeedChain.Xml
