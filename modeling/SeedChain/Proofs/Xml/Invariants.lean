import SeedChain.Proofs.Calls
import SeedChain.Proofs.Xml.Rereading
import SeedChain.Xml.Path
/-!
# What holds of every tree that is read

Whatever a document looks like, the tags of its tree are `Readable`: names and keys hold no blank, and no
key comes twice. What holds of all texts of the document, a section of character data being one, holds
of all texts of the tree (`all_of_read`).

Both are kept by selecting elements (`Element.All.of_mem_select`) and by taking out elements and
attributes (`Element.All.remove`).
-/

namespace SeedChain.Xml

open Markup (isBlank)

/-! ## Tags -/

/-- A key as it can be read: only its first character may be an equals sign. -/
structure ReadableKey (key : Text) : Prop where
  ne_nil : key ≠ []
  blank : ∀ c ∈ key, isBlank c = false
  tail : '=' ∉ key.tail

/-- A tag as it can be read. -/
structure Readable (name : Text) (attributes : Attributes) : Prop where
  name_blank : ∀ c ∈ name, isBlank c = false
  name_head : ∀ c ∈ name.head?, c ∉ ['!', '?', '/']
  keys : ∀ key ∈ Entries.keys attributes, ReadableKey key
  nodup : (Entries.keys attributes).Nodup

theorem Readable.remove {name : Text} {attributes : Attributes} (h : Readable name attributes)
    (key : Text) : Readable name (Entries.remove key attributes) := by
  have hsub : (Entries.keys (Entries.remove key attributes)).Sublist (Entries.keys attributes) :=
    List.filter_sublist.map _
  exact ⟨h.name_blank, h.name_head, fun k hk => h.keys k (hsub.subset hk), h.nodup.sublist hsub⟩

theorem head_of_takeWhile {p : Char → Bool} {t : Text} {c : Char} (h : c ∈ (t.takeWhile p).head?) :
    c ∈ t.head? := by
  cases t with
  | nil => cases h
  | cons d t =>
    rw [List.takeWhile_cons] at h
    split at h
    · exact h
    · cases h

theorem isBlank_head_dropWhile {t u : Text} {c : Char} (h : t.dropWhile isBlank = c :: u) :
    isBlank c = false := by
  have hhead := List.head?_dropWhile_not isBlank t
  rw [h] at hhead
  exact hhead

theorem key_of_takeAttribute? {c : Char} {t key raw rest : Text}
    (h : takeAttribute? c t = some (key, raw, rest)) : key = c :: t.takeWhile inKey := by
  simp only [takeAttribute?] at h
  split at h
  · split at h
    · split at h
      · split at h
        · exact (Prod.mk.inj (Option.some.inj h)).1.symm
        · cases h
      · cases h
    · cases h
  · cases h

theorem readableKey {c : Char} (hc : isBlank c = false) (t : Text) :
    ReadableKey (c :: t.takeWhile inKey) := by
  have hinKey : ∀ d ∈ t.takeWhile inKey, isBlank d = false ∧ d ≠ '=' := fun d hd => by
    simpa [inKey] using List.mem_takeWhile_imp hd
  refine ⟨List.cons_ne_nil _ _, fun d hd => ?_, fun hmem => (hinKey _ hmem).2 rfl⟩
  rcases List.mem_cons.1 hd with rfl | hd
  · exact hc
  · exact (hinKey d hd).1

/-- The keys that are read are readable, and none has been seen before. -/
theorem keys_of_readAttributes {element t : Text} {seen : List Text} {attributes : Attributes}
    (h : readAttributes element seen t = .ok attributes) :
    (∀ key ∈ Entries.keys attributes, key ∉ seen ∧ ReadableKey key) ∧
      (Entries.keys attributes).Nodup := by
  fun_induction readAttributes element seen t generalizing attributes with
  | case1 =>
    cases h
    simp [Entries.keys]
  | case2 => cases h
  | case3 => cases h
  | case4 => cases h
  | case5 seen t c u hbegin key raw rest htaken hnew value hvalue _ ih =>
    cases hrest : readAttributes element (key :: seen) rest with
    | error reason =>
      rw [hrest] at h
      cases h
    | ok others =>
      rw [hrest] at h
      cases h
      obtain ⟨hothers, hnodup⟩ := ih hrest
      have hkey : ReadableKey key := by
        rw [key_of_takeAttribute? htaken]
        exact readableKey (isBlank_head_dropWhile hbegin) u
      refine ⟨fun k hk => ?_, List.nodup_cons.2 ⟨fun hmem => ?_, hnodup⟩⟩
      · rcases List.mem_cons.1 hk with rfl | hk
        · exact ⟨hnew, hkey⟩
        · obtain ⟨hseen, hk⟩ := hothers k hk
          exact ⟨fun hmem => hseen (List.mem_cons_of_mem _ hmem), hk⟩
      · exact (hothers _ hmem).1 List.mem_cons_self

/-- The element that a start tag opens has a readable tag and no content yet. -/
theorem readable_of_readTag {content : Text} {e : Element} (h : readTag content = .ok e)
    (hhead : ∀ c ∈ content.head?, c ∉ ['!', '?', '/']) :
    Readable e.name e.attributes ∧ e.children = .nil := by
  obtain ⟨attributes, hattributes, h⟩ := exists_of_bind_eq_ok h
  cases h
  obtain ⟨hkeys, hnodup⟩ := keys_of_readAttributes hattributes
  refine ⟨⟨fun c hc => ?_, fun c hc => hhead c (head_of_takeWhile hc),
    fun key hkey => (hkeys key hkey).2, hnodup⟩, rfl⟩
  simpa using List.mem_takeWhile_imp hc

/-! ## Parts -/

namespace Markup

theorem eq_of_cutTag? {quote : Option Char} {t before after : Text}
    (h : cutTag? quote t = some (before, after)) : t = before ++ '>' :: after := by
  induction t generalizing quote before with
  | nil => simp [cutTag?] at h
  | cons c t ih =>
    simp only [cutTag?] at h
    split at h
    · rename_i hend
      obtain ⟨rfl, rfl⟩ := Prod.mk.inj (Option.some.inj h)
      rw [hend.2]
      rfl
    · obtain ⟨⟨b, a⟩, hc, heq⟩ := Option.map_eq_some_iff.1 h
      obtain ⟨rfl, rfl⟩ := Prod.mk.inj heq
      rw [ih hc]
      rfl

/-- What holds of the text that a part of a document writes. -/
def Texts (texts : Text → Prop) : Markup → Prop
  | text raw => ∀ t, unescape? raw = some t → texts t
  | data t => texts t
  | _ => True

/-- A start tag begins with none of the characters that begin other constructs. -/
def IsStart : Markup → Prop
  | tag content _ => ∀ c ∈ content.head?, c ∉ ['!', '?', '/']
  | _ => True

theorem item_of_doctype? {t after : Text} {item : Option Markup}
    (h : doctype? t = some (item, after)) : item = none := by
  simp only [doctype?] at h
  split at h
  · obtain ⟨⟨content, rest⟩, -, h⟩ := Option.bind_eq_some_iff.1 h
    split at h
    · cases h
    · exact (Prod.mk.inj (Option.some.inj h)).1.symm
  · cases h

theorem head_of_construct? {t content after : Text} {empty : Bool}
    (h : construct? t = some (some (.tag content empty), after)) :
    ∀ c ∈ content.head?, c ∉ ['!', '?', '/'] := by
  unfold construct? at h
  split at h
  · simp [upTo?] at h
  · split at h
    · simp [upTo?] at h
    · cases item_of_doctype? h
  · cases h
  · simp [upTo?] at h
  · simp at h
  · rename_i hdeclaration _ hinstruction hclose
    obtain ⟨⟨before, rest⟩, hcut, heq⟩ := Option.map_eq_some_iff.1 h
    have hcontent : content <+: before := by
      simp only at heq
      split at heq <;> cases heq
      · exact List.dropLast_prefix _
      · exact List.prefix_rfl
    intro c hc
    obtain ⟨u, rfl⟩ : ∃ u, content = c :: u := by
      cases content with
      | nil => cases hc
      | cons d u => exact ⟨u, by rw [Option.some.inj hc]⟩
    obtain ⟨v, hv⟩ := hcontent
    have ht : t = c :: (u ++ v ++ '>' :: rest) := by
      rw [eq_of_cutTag? hcut, ← hv]
      simp
    intro hmem
    simp only [List.mem_cons, List.not_mem_nil, or_false] at hmem
    rcases hmem with rfl | rfl | rfl
    · exact hdeclaration _ ht
    · exact hinstruction _ ht
    · exact hclose _ ht

theorem isStart_of_mem_split {t : Text} {part : Markup} (h : part ∈ split t) : part.IsStart := by
  fun_induction split t with
  | case1 => cases h
  | case2 t hnone =>
    obtain rfl := List.mem_singleton.1 h
    trivial
  | case3 t item after hconstruct _ ih =>
    rcases List.mem_append.1 h with hitem | hrest
    · rw [Option.mem_toList] at hitem
      obtain rfl := Option.mem_def.1 hitem
      cases part with
      | tag content empty => exact head_of_construct? hconstruct
      | _ => trivial
    · exact ih hrest
  | case4 c t hne _ ih =>
    rcases List.mem_append.1 h with hrun | hrest
    · rw [run] at hrun
      split at hrun
      · cases hrun
      · obtain rfl := List.mem_singleton.1 hrun
        trivial
    · exact ih hrest

end Markup

/-! ## Trees -/

namespace Forest

variable {texts : Text → Prop} {tags : Text → Attributes → Prop} {f g : Forest}

theorem All.append (hf : f.All texts tags) (hg : g.All texts tags) : (f ++ g).All texts tags := by
  induction f with
  | nil => exact hg
  | text t rest ih => exact ⟨hf.1, ih hf.2⟩
  | element name attributes children rest _ ih => exact ⟨hf.1, hf.2.1, ih hf.2.2⟩

theorem all_ofElement {e : Element} (h : e.All texts tags) : (ofElement e).All texts tags :=
  ⟨h.1, h.2, trivial⟩

theorem All.of_mem_elements (h : f.All texts tags) {e : Element} (he : e ∈ f.elements) :
    e.All texts tags := by
  induction f with
  | nil => cases he
  | text t rest ih => exact ih h.2 he
  | element name attributes children rest _ ih =>
    rcases List.mem_cons.1 he with rfl | he
    · exact ⟨h.1, h.2.1⟩
    · exact ih h.2.2 he

/-- Editing some of the elements keeps what the edit keeps. -/
theorem All.editWhere (h : f.All texts tags) {edit : Element → Option Element}
    (hedit : ∀ e e', e.All texts tags → edit e = some e' → e'.All texts tags)
    (called : Text → Bool) (position : Option Nat) (seen : Nat) :
    (f.editWhere called position edit seen).All texts tags := by
  induction f generalizing seen with
  | nil => trivial
  | text t rest ih => exact ⟨h.1, ih h.2 seen⟩
  | element name attributes children rest _ ih =>
    obtain ⟨htag, hchildren, hrest⟩ := h
    rw [Forest.editWhere]
    split
    · split
      · split
        · rename_i e' he'
          have he : e'.All texts tags := hedit ⟨name, attributes, children⟩ e' ⟨htag, hchildren⟩ he'
          exact ⟨he.1, he.2, ih hrest _⟩
        · exact ih hrest _
      · exact ⟨htag, hchildren, ih hrest _⟩
    · exact ⟨htag, hchildren, ih hrest seen⟩

end Forest

namespace Progress

variable {texts : Text → Prop} {tags : Text → Attributes → Prop} {p q : Progress}

/-- All elements that are open, and the root, have these texts and tags. -/
structure All (texts : Text → Prop) (tags : Text → Attributes → Prop) (p : Progress) : Prop where
  opened : ∀ e ∈ p.opened, e.All texts tags
  root : ∀ e ∈ p.root, e.All texts tags

theorem All.addContent (h : p.All texts tags) {f : Forest} (hf : f.All texts tags) :
    (p.addContent f).All texts tags := by
  obtain ⟨_ | ⟨parent, outer⟩, root⟩ := p
  · exact h
  · obtain ⟨hparent, houter⟩ := List.forall_mem_cons.1 h.opened
    exact ⟨List.forall_mem_cons.2 ⟨⟨hparent.1, hparent.2.append hf⟩, houter⟩, h.root⟩

theorem All.addElement (h : p.All texts tags) {e : Element} (he : e.All texts tags)
    (hadd : p.addElement e = .ok q) : q.All texts tags := by
  simp only [Progress.addElement] at hadd
  split at hadd
  · cases hadd
    exact h.addContent (Forest.all_ofElement he)
  · cases hadd
    refine ⟨h.opened, fun e' he' => ?_⟩
    cases he'
    exact he
  · cases hadd

/-- One part keeps what holds of its text too, and its tag is readable. -/
theorem All.step (h : p.All texts Readable) {part : Markup} (htexts : part.Texts texts)
    (hstart : part.IsStart) (hstep : p.step part = .ok q) : q.All texts Readable := by
  cases part with
  | text raw =>
    simp only [Progress.step] at hstep
    split at hstep
    · rename_i t ht
      cases hstep
      exact h.addContent ⟨htexts t ht, trivial⟩
    · cases hstep
  | data t =>
    cases hstep
    exact h.addContent ⟨htexts, trivial⟩
  | tag content empty =>
    obtain ⟨e, htag, hstep⟩ := exists_of_bind_eq_ok hstep
    obtain ⟨hreadable, hchildren⟩ := readable_of_readTag htag hstart
    have he : e.All texts Readable := ⟨hreadable, by rw [hchildren]; trivial⟩
    cases empty with
    | true => exact h.addElement he hstep
    | false =>
      cases hstep
      exact ⟨List.forall_mem_cons.2 ⟨he, h.opened⟩, h.root⟩
  | close name =>
    simp only [Progress.step] at hstep
    split at hstep
    · rename_i e outer hopened
      split at hstep
      · obtain ⟨he, houter⟩ := List.forall_mem_cons.1 (hopened ▸ h.opened)
        have hclosed : Progress.All texts Readable { p with opened := outer } := ⟨houter, h.root⟩
        exact hclosed.addElement he hstep
      · cases hstep
    · cases hstep
  | broken => cases hstep

theorem All.after (h : p.All texts Readable) {parts : List Markup}
    (hparts : ∀ part ∈ parts, part.Texts texts ∧ part.IsStart) (hrun : p.after parts = .ok q) :
    q.All texts Readable := by
  induction parts generalizing p with
  | nil =>
    cases hrun
    exact h
  | cons part parts ih =>
    rw [after_cons] at hrun
    obtain ⟨next, hstep, hrun⟩ := exists_of_bind_eq_ok hrun
    obtain ⟨htexts, hstart⟩ := hparts part List.mem_cons_self
    exact ih (h.step htexts hstart hstep) (fun part hpart => hparts part (List.mem_cons_of_mem _ hpart)) hrun

end Progress

/-- All tags of the tree that is read are readable, and what holds of all texts of the document holds of
the texts of the tree. -/
theorem all_of_read {texts : Text → Prop} {t : Text} {e : Element}
    (htexts : ∀ part ∈ Markup.split t.trim, part.Texts texts) (h : read t = .ok e) :
    e.All texts Readable := by
  have hstart : (⟨[], none⟩ : Progress).All texts Readable := ⟨by simp, by simp⟩
  obtain ⟨p, hrun, h⟩ := exists_of_bind_eq_ok h
  have hp := hstart.after
    (fun part hpart => ⟨htexts part hpart, Markup.isStart_of_mem_split hpart⟩) hrun
  obtain ⟨_ | ⟨parent, outer⟩, _ | root⟩ := p <;> cases h
  exact hp.root e rfl

/-! ## Paths -/

namespace Element

variable {texts : Text → Prop} {tags : Text → Attributes → Prop} {e : Element}

theorem All.of_mem_selectChildren (h : e.All texts tags) {name : Text} {position : Option Nat}
    {child : Element} (hchild : child ∈ e.selectChildren name position) : child.All texts tags := by
  have hcalled : ∀ c ∈ e.elements.filter fun c => Step.calls name c.name, c.All texts tags :=
    fun c hc => h.2.of_mem_elements (List.mem_filter.1 hc).1
  cases position with
  | none => exact hcalled child hchild
  | some p => exact hcalled child (List.mem_of_mem_drop (List.mem_of_mem_take hchild))

theorem All.of_mem_select {steps : List Step} (h : e.All texts tags) {selected : Element}
    (hselected : selected ∈ e.select steps) : selected.All texts tags := by
  induction steps generalizing e with
  | nil =>
    obtain rfl := List.mem_singleton.1 hselected
    exact h
  | cons step steps ih =>
    cases step with
    | attr name =>
      obtain rfl := List.mem_singleton.1 hselected
      exact h
    | element name position =>
      rw [select] at hselected
      obtain ⟨child, hchild, hselected⟩ := List.mem_flatMap.1 hselected
      exact ih (h.of_mem_selectChildren hchild) hselected

/-- Taking out elements and attributes keeps what holds of tags with fewer attributes too. -/
theorem All.remove {steps : List Step} (h : e.All texts tags)
    (htags : ∀ name attributes key, tags name attributes → tags name (Entries.remove key attributes)) :
    (e.remove steps).All texts tags := by
  induction steps generalizing e with
  | nil => exact h
  | cons step steps ih =>
    cases step with
    | attr name => exact ⟨htags _ _ _ h.1, h.2⟩
    | element name position =>
      refine ⟨h.1, h.2.editWhere (fun child edited hchild hedit => ?_) _ _ _⟩
      split at hedit
      · cases hedit
      · cases hedit
        exact ih hchild

end Element

end SeedChain.Xml
