import SeedChain.Operation.Table
/-!
# Counting and taking out parts of a document

Both operations select elements by the same path. Counting looks at all of them, and taking out goes on
with the first one only. For a path that ends in an attribute these differ: the first element may be
without the attribute while another one has it (`XmlDocument.AttributeMissing`). In every other case the
chain ends where nothing is counted, and only there (`XmlDocument.extract_ends_iff`).
-/

namespace SeedChain

open Xml

namespace XmlDocument

variable {doc : XmlDocument} {path : Text} {found : Option (List Step)} {steps : List Step}

/-- The operation that counts what is at a path gives this number. -/
def Counts (doc : XmlDocument) (path : Text) (n : Nat) : Prop :=
  ∀ (delimiter : Char) (store : Store),
    (Value.xml doc).invoke delimiter "count".toList [path] store = (goOn (.ofCount n), store)

/-- The number of elements or attributes at a path whose steps have been found. -/
def countAt (doc : XmlDocument) (found : Option (List Step)) : Nat := (found.map doc.root.count).getD 0

/-- A path is made for an attribute that the first of the selected elements does not have. -/
def AttributeMissing (doc : XmlDocument) (steps : List Step) : Prop :=
  ∃ key e, Element.attributeStep? steps = some key ∧ (doc.root.select steps).head? = some e ∧
    e.attribute? key = none

theorem steps_eq (h : stepsFrom doc.root path = .ok found) (function : String) :
    doc.steps (Args.bind (.fixed 1) [path]) function = .ok found := by
  have hargument : (Args.bind (.fixed 1) [path]).getD 0 [] = path := rfl
  rw [XmlDocument.steps, hargument, h]
  rfl

theorem counts_of_stepsFrom (h : stepsFrom doc.root path = .ok found) :
    doc.Counts path (doc.countAt found) := by
  intro delimiter store
  have hbody : count delimiter doc (Args.bind (.fixed 1) [path]) =
      goOn (.ofCount (doc.countAt found)) := by
    rw [count, steps_eq h]
    rfl
  exact congrArg (·, store) hbody

theorem counts_of_steps (h : stepsFrom doc.root path = .ok (some steps)) :
    doc.Counts path (doc.root.count steps) :=
  counts_of_stepsFrom h

theorem invoke_extract (h : stepsFrom doc.root path = .ok found) (delimiter : Char) (store : Store) :
    (Value.xml doc).invoke delimiter "extract".toList [path] store =
      (goOnIf (found.bind doc.extracted?), store) := by
  have hbody : extract delimiter doc (Args.bind (.fixed 1) [path]) =
      goOnIf (found.bind doc.extracted?) := by
    rw [extract, steps_eq h]
    rfl
  exact congrArg (·, store) hbody

/-- Nothing is taken out where nothing is counted, and where the attribute is missing. -/
theorem extracted?_eq_none_iff :
    doc.extracted? steps = none ↔ doc.root.count steps = 0 ∨ doc.AttributeMissing steps := by
  unfold extracted? Element.count AttributeMissing
  cases hselect : doc.root.select steps with
  | nil => cases Element.attributeStep? steps <;> simp
  | cons e others =>
    cases hattribute : Element.attributeStep? steps with
    | none => simp
    | some key => cases hvalue : e.attribute? key <;> simp [hvalue]

/-- For every path that can be read, a number is counted, and taking out ends the chain exactly if this
is zero or the path is made for an attribute that the first selected element does not have. -/
theorem extract_ends_iff (hpath : stepsFrom doc.root path = .ok found) :
    doc.Counts path (doc.countAt found) ∧
    ∃ v : Option Value,
      (∀ (delimiter : Char) (store : Store),
        (Value.xml doc).invoke delimiter "extract".toList [path] store = (goOnIf v, store)) ∧
      (v = none ↔
        doc.countAt found = 0 ∨ ∃ steps, found = some steps ∧ doc.AttributeMissing steps) := by
  refine ⟨counts_of_stepsFrom hpath, _, invoke_extract hpath, ?_⟩
  cases found with
  | none => simp [countAt]
  | some steps =>
    rw [Option.bind_some, extracted?_eq_none_iff]
    simp [countAt]

/-- The first of two elements is without the attribute: one is counted, and the chain ends. -/
theorem extract_ends_iff_second_element :
    let doc : XmlDocument :=
      ⟨⟨['a'], [], .element ['b'] [] .nil (.element ['b'] [(['k'], ['1'])] .nil .nil)⟩, false⟩
    let steps : List Step := [.element ['b'] none, .attr ['k']]
    stepsFrom doc.root "b/@k".toList = .ok (some steps) ∧ doc.AttributeMissing steps ∧
    doc.Counts "b/@k".toList 1 ∧
    (Value.xml doc).invoke ',' "extract".toList ["b/@k".toList] [] = (.ok none, []) := by
  intro doc steps
  have hpath : stepsFrom doc.root "b/@k".toList = .ok (some steps) := by rfl
  have hmissing : doc.AttributeMissing steps := ⟨['k'], ⟨['b'], [], .nil⟩, rfl, rfl, rfl⟩
  obtain ⟨hcounts, v, hextract, hiff⟩ := extract_ends_iff hpath
  obtain rfl : v = none := hiff.2 (.inr ⟨steps, rfl, hmissing⟩)
  exact ⟨hpath, hmissing, hcounts, hextract ',' []⟩

end XmlDocument

end SeedChain
