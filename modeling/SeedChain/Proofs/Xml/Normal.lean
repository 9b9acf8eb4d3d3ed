import SeedChain.Proofs.Xml.Rereading
/-!
# Normal trees

A tree is normal if all its names are names of the format, no element has a key twice, every text
begins and ends with another character than a blank, and no two texts are neighbours. A character of a
name ends no tag, no name and no key, so the tags of a normal tree can be written (`writable`).

Main result: printing a normal tree and reading it again gives the tree, in either layout
(`read_print_normal`).
-/

namespace SeedChain.Xml

/-! ## Names of the format -/

/-- The characters that a name may begin with. -/
def isNameStart (c : Char) : Bool :=
  let n := c.toNat
  c.isAlpha || c == ':' || c == '_' || (0xC0 ≤ n && n ≤ 0xD6) || (0xD8 ≤ n && n ≤ 0xF6) ||
    (0xF8 ≤ n && n ≤ 0x2FF) || (0x370 ≤ n && n ≤ 0x37D) || (0x37F ≤ n && n ≤ 0x1FFF) ||
    (0x200C ≤ n && n ≤ 0x200D) || (0x2070 ≤ n && n ≤ 0x218F) || (0x2C00 ≤ n && n ≤ 0x2FEF) ||
    (0x3001 ≤ n && n ≤ 0xD7FF) || (0xF900 ≤ n && n ≤ 0xFDCF) || (0xFDF0 ≤ n && n ≤ 0xFFFD) ||
    (0x10000 ≤ n && n ≤ 0xEFFFF)

/-- The characters that a name may go on with. -/
def isNameChar (c : Char) : Bool :=
  let n := c.toNat
  isNameStart c || c.isDigit || c == '-' || c == '.' || n == 0xB7 || (0x300 ≤ n && n ≤ 0x36F) ||
    (0x203F ≤ n && n ≤ 0x2040)

/-- A name of the format. -/
def isName : Text → Bool
  | [] => false
  | c :: t => isNameStart c && t.all isNameChar

theorem isNameChar_of_isNameStart {c : Char} (h : isNameStart c = true) : isNameChar c = true := by
  simp [isNameChar, h]

/-- The characters that mean something in a tag. -/
def tagStructure : List Char := [' ', '\t', '\r', '\n', '>', '"', '\'', '=', '/', '!', '?']

theorem not_mem_tagStructure {c : Char} (h : isNameChar c = true) : c ∉ tagStructure := by
  intro hmem
  have hnone : tagStructure.all (fun d => !isNameChar d) = true := by decide
  have hc := List.all_eq_true.1 hnone c hmem
  rw [h] at hc
  cases hc

theorem isNameChar_of_mem {name : Text} (h : isName name = true) {c : Char} (hc : c ∈ name) :
    isNameChar c = true := by
  cases name with
  | nil => cases hc
  | cons d t =>
    rw [isName, Bool.and_eq_true] at h
    rcases List.mem_cons.1 hc with rfl | hc
    · exact isNameChar_of_isNameStart h.1
    · exact List.all_eq_true.1 h.2 c hc

theorem plain_of_isName {name : Text} (h : isName name = true) :
    ∀ c ∈ name, Markup.isBlank c = false ∧ c ∉ tagMarks := by
  intro c hc
  have hplain := not_mem_tagStructure (isNameChar_of_mem h hc)
  simp only [tagStructure, List.mem_cons, List.not_mem_nil, or_false, not_or] at hplain
  simp [Markup.isBlank, tagMarks, hplain]

theorem ne_nil_of_isName {name : Text} (h : isName name = true) : name ≠ [] := by
  rintro rfl
  cases h

theorem isTagName_of_isName {name : Text} (h : isName name = true) : IsTagName name where
  ne_nil := ne_nil_of_isName h
  plain := plain_of_isName h
  head c hc := by
    have hplain := not_mem_tagStructure (isNameChar_of_mem h (List.mem_of_mem_head? hc))
    simp only [tagStructure, List.mem_cons, List.not_mem_nil, or_false, not_or] at hplain
    simp [hplain]
  last hlast := by
    have hplain := not_mem_tagStructure (isNameChar_of_mem h (List.mem_of_getLast? hlast))
    exact hplain (by decide)

theorem isKey_of_isName {key : Text} (h : isName key = true) : IsKey key where
  ne_nil := ne_nil_of_isName h
  plain := plain_of_isName h
  tail hmem := not_mem_tagStructure (isNameChar_of_mem h (List.mem_of_mem_tail hmem)) (by decide)

/-! ## Normal trees -/

/-- A tag of a normal tree. -/
structure NormalTag (name : Text) (attributes : Attributes) : Prop where
  name : isName name = true
  keys : ∀ key ∈ Entries.keys attributes, isName key = true
  nodup : (Entries.keys attributes).Nodup

theorem NormalTag.writable {name : Text} {attributes : Attributes} (h : NormalTag name attributes) :
    Writable name attributes where
  name := isTagName_of_isName h.name
  keys key hkey := isKey_of_isName (h.keys key hkey)
  nodup := h.nodup

/-- Names and keys are those of the format, keys are distinct, all texts are trimmed, and no two of them
are neighbours. -/
structure Element.Normal (e : Element) : Prop where
  all : e.All Trimmed NormalTag
  apart : e.children.Apart

/-- Printing a normal tree and reading it again gives the tree, on one line as well as over several. -/
theorem read_print_normal {e : Element} (h : e.Normal) :
    read (e.print false) = .ok e ∧ read (e.print true) = .ok e := by
  have hwritable : e.All Trimmed Writable :=
    ⟨h.all.1.writable, h.all.2.imp (fun _ ht => ht) fun _ _ htag => htag.writable⟩
  have hsettled : e.children.Settled :=
    ⟨h.all.2.imp (fun _ ht => ht) fun _ _ _ => trivial, h.apart⟩
  have hread (indented : Bool) : read (e.print indented) = .ok e := by
    rw [read_print hwritable, Element.reread_eq_iff.2 hsettled]
  exact ⟨hread false, hread true⟩

/-- Texts beside elements, an element without content, and characters that have to be escaped. -/
theorem read_print_normal_mixed :
    let e : Element := ⟨['a'], [(['k'], " <\"'&> ".toList), ("x:y".toList, [])],
      .text "1 < 2".toList (.element ['b'] [] (.text "x & y".toList .nil)
        (.element "c-1".toList [] .nil (.text ['z'] .nil)))⟩
    e.Normal ∧ e.print false ≠ e.print true ∧
      read (e.print false) = .ok e ∧ read (e.print true) = .ok e := by
  intro e
  have hroot : NormalTag e.name e.attributes := ⟨by decide, by decide, by decide⟩
  have hb : NormalTag ['b'] [] := ⟨by decide, by decide, by decide⟩
  have hc : NormalTag "c-1".toList [] := ⟨by decide, by decide, by decide⟩
  have hfirst : Trimmed "1 < 2".toList := trimmed_iff.2 (by decide)
  have hinner : Trimmed "x & y".toList := trimmed_iff.2 (by decide)
  have hlast : Trimmed ['z'] := trimmed_iff.2 (by decide)
  have hnormal : e.Normal :=
    ⟨⟨hroot, hfirst, ⟨hb, ⟨hinner, trivial⟩, ⟨hc, trivial, hlast, trivial⟩⟩⟩,
      ⟨rfl, ⟨rfl, trivial⟩, trivial, rfl, trivial⟩⟩
  exact ⟨hnormal, by decide, read_print_normal hnormal⟩

end SeedChain.Xml
