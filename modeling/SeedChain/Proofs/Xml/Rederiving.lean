import SeedChain.Proofs.Xml.Invariants
import SeedChain.Value.Read
/-!
# Documents and their texts

The operations that go on with a document go on with its root, with the root less some elements or
attributes, or with an element in it (`root_of_invoke`). So what holds of all texts and tags of a
document that was read holds of every document that calls make of it (`Becomes.all`).

Such a document is read back from its text with its content as `Forest.reread` says, if no name or key
in it is taken for something else in a tag (`Unambiguous`). That is the document itself exactly if its
content is settled, and where all texts of the source begin and end with other characters than blanks,
exactly if no two texts are neighbours (`read_text_of_becomes`). Taking out an element between two texts
makes them neighbours.
-/

namespace SeedChain

open Xml

/-! ## Operations that go on with a document -/

namespace XmlDocument

variable {delimiter : Char} {doc next : XmlDocument} {args : Args}

theorem root_of_extract (h : extract delimiter doc args = .ok (some (.xml next))) :
    ∃ steps, next.root ∈ doc.root.select steps := by
  obtain ⟨steps?, -, h⟩ := exists_of_bind_eq_ok h
  obtain ⟨steps, -, hextracted⟩ := Option.bind_eq_some_iff.1 (Except.ok.inj h)
  obtain ⟨e, he, hvalue⟩ := Option.bind_eq_some_iff.1 hextracted
  refine ⟨steps, ?_⟩
  split at hvalue
  · obtain ⟨value, -, hvalue⟩ := Option.map_eq_some_iff.1 hvalue
    cases hvalue
  · split at hvalue
    · cases hvalue
      exact List.mem_of_mem_head? he
    · cases hvalue

theorem attributeOf_ne_xml : attributeOf delimiter doc args ≠ .ok (some (.xml next)) := by
  intro h
  obtain ⟨steps?, -, h⟩ := exists_of_bind_eq_ok h
  cases steps? with
  | none => cases h
  | some steps =>
    obtain ⟨name, -, h⟩ := exists_of_bind_eq_ok h
    obtain ⟨e, -, hvalue⟩ := Option.bind_eq_some_iff.1 (Except.ok.inj h)
    obtain ⟨value, -, hvalue⟩ := Option.map_eq_some_iff.1 hvalue
    cases hvalue

theorem count_ne_xml : count delimiter doc args ≠ .ok (some (.xml next)) := by
  intro h
  obtain ⟨steps?, -, h⟩ := exists_of_bind_eq_ok h
  cases h

theorem root_of_remove (h : remove delimiter doc args = .ok (some (.xml next))) :
    ∃ steps, next.root = doc.root.remove steps := by
  obtain ⟨steps?, -, h⟩ := exists_of_bind_eq_ok h
  cases steps? with
  | none =>
    cases h
    exact ⟨[], rfl⟩
  | some steps =>
    cases h
    exact ⟨steps, rfl⟩

open Operation in
/-- A call that goes on with a document goes on with the root less what a path takes out of it, or with
an element that a path selects. -/
theorem root_of_invoke {name : Text} {args : List Text} {store after : Store}
    (h : (Value.xml doc).invoke delimiter name args store = (.ok (some (.xml next)), after)) :
    ∃ steps, next.root = doc.root.remove steps ∨ next.root ∈ doc.root.select steps := by
  have hsame : ∃ steps, doc.root = doc.root.remove steps ∨ doc.root ∈ doc.root.select steps :=
    ⟨[], .inl rfl⟩
  obtain ⟨op, hmem, bound, hrun⟩ := exists_run_of_call h
  simp only [operations, withShared, fixed, List.mem_cons, List.not_mem_nil, or_false] at hmem
  rcases hmem with rfl | rfl | rfl | rfl | rfl | rfl | rfl | rfl <;> simp only [run] at hrun
  · cases hrun
    exact hsame
  · cases hrun
  · obtain ⟨steps, hsteps⟩ := root_of_extract (Prod.mk.inj hrun).1
    exact ⟨steps, .inr hsteps⟩
  · exact absurd (Prod.mk.inj hrun).1 attributeOf_ne_xml
  · exact absurd (Prod.mk.inj hrun).1 count_ne_xml
  · obtain ⟨steps, hsteps⟩ := root_of_remove (Prod.mk.inj hrun).1
    exact ⟨steps, .inl hsteps⟩
  · cases hrun
    exact hsame
  · cases hrun
    exact hsame

/-- The documents that calls make of a document, one after the other. -/
inductive Becomes (delimiter : Char) (doc : XmlDocument) : XmlDocument → Prop
  | refl : Becomes delimiter doc doc
  | call {mid next : XmlDocument} {name : Text} {args : List Text} {store after : Store}
      (before : Becomes delimiter doc mid)
      (goesOn : (Value.xml mid).invoke delimiter name args store = (.ok (some (.xml next)), after)) :
      Becomes delimiter doc next

/-- Calls keep what holds of all texts and tags, if fewer attributes keep it. -/
theorem Becomes.all {texts : Text → Prop} {tags : Text → Attributes → Prop}
    (h : Becomes delimiter doc next) (hdoc : doc.root.All texts tags)
    (htags : ∀ name attributes key, tags name attributes → tags name (Entries.remove key attributes)) :
    next.root.All texts tags := by
  induction h with
  | refl => exact hdoc
  | call _ goesOn ih =>
    obtain ⟨steps, hroot | hroot⟩ := root_of_invoke goesOn
    · rw [hroot]
      exact ih.remove htags
    · exact ih.of_mem_select hroot

end XmlDocument

/-! ## Reading a document back -/

namespace Xml

/-- No character of the tag's name and keys ends the tag or begins a value, and no slash at the end of
the name closes the element. -/
structure Unambiguous (name : Text) (attributes : Attributes) : Prop where
  ne_nil : name ≠ []
  plain : ∀ c ∈ name, c ∉ tagMarks
  last : name.getLast? ≠ some '/'
  keys : ∀ key ∈ Entries.keys attributes, ∀ c ∈ key, c ∉ tagMarks

theorem Readable.writable {name : Text} {attributes : Attributes} (h : Readable name attributes)
    (hun : Unambiguous name attributes) : Writable name attributes where
  name := ⟨hun.ne_nil, fun c hc => ⟨h.name_blank c hc, hun.plain c hc⟩, h.name_head, hun.last⟩
  keys key hkey :=
    have hreadable : ReadableKey key := h.keys key hkey
    ⟨hreadable.ne_nil, fun c hc => ⟨hreadable.blank c hc, hun.keys key hkey c hc⟩, hreadable.tail⟩
  nodup := h.nodup

end Xml

variable {env : Environment} {t : Text} {start doc : XmlDocument}

theorem all_of_value_read {texts : Text → Prop} (h : Value.read env .xml t = .ok (.xml start))
    (htexts : ∀ part ∈ Markup.split t.trim, part.Texts texts) : start.root.All texts Readable := by
  cases hread : Xml.read t with
  | error reason =>
    simp only [Value.read, hread] at h
    cases h
  | ok root =>
    simp only [Value.read, hread] at h
    cases h
    exact all_of_read htexts hread

/-- What a document becomes is read back from its text with its content reread. That is the same
document exactly if its content is settled; where no text of the source has a blank at an end, exactly
if no two texts are neighbours. -/
theorem read_text_of_becomes (hread : Value.read env .xml t = .ok (.xml start))
    (hdoc : XmlDocument.Becomes env.delimiter start doc)
    (htags : doc.root.All (fun _ => True) Unambiguous) :
    Value.read env .xml doc.text = .ok (.xml ⟨doc.root.reread doc.indented, false⟩) ∧
      (doc.root.reread doc.indented = doc.root ↔ doc.root.children.Settled) ∧
      ((∀ part ∈ Markup.split t.trim, part.Texts Trimmed) →
        (doc.root.reread doc.indented = doc.root ↔ doc.root.children.Apart)) := by
  have hkeep : ∀ name attributes key, Readable name attributes →
      Readable name (Entries.remove key attributes) := fun _ _ key h => h.remove key
  have hreadable : doc.root.All (fun _ => True) Readable :=
    hdoc.all (all_of_value_read hread fun part _ => by cases part <;> simp [Markup.Texts]) hkeep
  have hwritable : doc.root.All (fun _ => True ∧ True) Writable :=
    ⟨hreadable.1.writable htags.1,
      (hreadable.2.and htags.2).imp (fun _ h => h) fun _ _ h => h.1.writable h.2⟩
  refine ⟨?_, Element.reread_eq_iff, fun htrimmed => ?_⟩
  · rw [Value.read, XmlDocument.text, read_print hwritable]
    rfl
  · have htexts : doc.root.All Trimmed Readable :=
      hdoc.all (all_of_value_read hread htrimmed) hkeep
    rw [Element.reread_eq_iff]
    exact ⟨fun h => h.apart, fun h => ⟨htexts.2.imp (fun _ ht => ht) fun _ _ _ => trivial, h⟩⟩

/-- The texts beside an element that is taken out are read back as one. -/
theorem read_text_of_becomes_neighbours :
    let env := Environment.plain ','
    let t : Text := "<a>x<b/>y</a>".toList
    let start : XmlDocument :=
      ⟨⟨['a'], [], .text ['x'] (.element ['b'] [] .nil (.text ['y'] .nil))⟩, false⟩
    let doc : XmlDocument := ⟨⟨['a'], [], .text ['x'] (.text ['y'] .nil)⟩, false⟩
    Value.read env .xml t = .ok (.xml start) ∧ XmlDocument.Becomes ',' start doc ∧
    doc.root.All (fun _ => True) Unambiguous ∧ (∀ part ∈ Markup.split t.trim, part.Texts Trimmed) ∧
    Value.read env .xml doc.text = .ok (.xml ⟨⟨['a'], [], .text ['x', 'y'] .nil⟩, false⟩) ∧
    doc.root.reread false ≠ doc.root := by
  intro env t start doc
  have hroot : Xml.read t = .ok start.root := by
    simp only [t, start]
    cbv
  have hread : Value.read env .xml t = .ok (.xml start) := by
    rw [Value.read, hroot]
    rfl
  have hremove : (Value.xml start).invoke ',' "remove".toList [['b']] [] =
      (.ok (some (.xml doc)), []) := rfl
  have htags : doc.root.All (fun _ => True) Unambiguous :=
    ⟨⟨by decide, by simp [doc, tagMarks], by decide, by simp [doc, Entries.keys]⟩, trivial, trivial, trivial⟩
  have hsplit : Markup.split t.trim =
      [.tag ['a'] false, .text ['x'], .tag ['b'] true, .text ['y'], .close ['a']] := by
    simp only [t]
    cbv
  have hletter (c : Char) (hc : unescape? [c] = some [c]) (htrim : Markup.trimBlanks [c] = [c]) :
      (Markup.text [c]).Texts Trimmed := by
    intro u hu
    obtain rfl := Option.some.inj (hc.symm.trans hu)
    exact trimmed_iff.2 ⟨List.cons_ne_nil _ _, htrim⟩
  have htrimmed : ∀ part ∈ Markup.split t.trim, part.Texts Trimmed := by
    intro part hpart
    simp only [hsplit, List.mem_cons, List.not_mem_nil, or_false] at hpart
    rcases hpart with rfl | rfl | rfl | rfl | rfl
    · trivial
    · exact hletter 'x' (by cbv) (by decide)
    · trivial
    · exact hletter 'y' (by cbv) (by decide)
    · trivial
  have hdoc : XmlDocument.Becomes ',' start doc := .call .refl hremove
  obtain ⟨htext, -, hapart⟩ := read_text_of_becomes hread hdoc htags
  have hneighbours : ¬ doc.root.children.Apart := fun h => by cases h.1
  exact ⟨hread, hdoc, htags, htrimmed, htext, fun h => hneighbours ((hapart htrimmed).1 h)⟩

end SeedChain
