import SeedChain.Proofs.Xml.Tags
/-!
# What printed trees are read back as

The reader knows a text only by the run of characters between two tags: neighbouring texts run
together, with the line break between them where the layout has one, blanks at the ends of a run are
dropped, and a run of blanks leaves no text. So a tree whose tags can be written is read back with its
content as `Forest.reread` says (`read_print`), in either layout.

That is the tree itself exactly if its content is `Settled`: every text begins and ends with another
character than a blank, and no two texts are neighbours (`reread_eq_iff`).
-/

namespace SeedChain.Xml

open Markup (isBlank run trimBlanks)

namespace Forest

/-! ## Content -/

@[simp]
theorem nil_append (f : Forest) : nil ++ f = f := rfl

@[simp]
theorem text_append (t : Text) (f g : Forest) : text t f ++ g = text t (f ++ g) := rfl

@[simp]
theorem element_append (name : Text) (attributes : Attributes) (children f g : Forest) :
    element name attributes children f ++ g = element name attributes children (f ++ g) := rfl

@[simp]
theorem append_nil (f : Forest) : f ++ nil = f := by
  induction f with
  | nil => rfl
  | text t rest ih => rw [text_append, ih]
  | element name attributes children rest _ ih => rw [element_append, ih]

theorem append_assoc (f g h : Forest) : f ++ g ++ h = f ++ (g ++ h) := by
  induction f with
  | nil => rfl
  | text t rest ih => rw [text_append, text_append, text_append, ih]
  | element name attributes children rest _ ih =>
    rw [element_append, element_append, element_append, ih]

/-- All texts of the content, and all tags, at any depth. -/
def All (texts : Text → Prop) (tags : Text → Attributes → Prop) : Forest → Prop
  | nil => True
  | text t rest => texts t ∧ rest.All texts tags
  | element name attributes children rest =>
    tags name attributes ∧ children.All texts tags ∧ rest.All texts tags

section

variable {f : Forest} {texts texts' : Text → Prop} {tags tags' : Text → Attributes → Prop}

theorem All.imp (htexts : ∀ t, texts t → texts' t)
    (htags : ∀ name attributes, tags name attributes → tags' name attributes)
    (h : f.All texts tags) : f.All texts' tags' := by
  induction f with
  | nil => trivial
  | text t rest ih => exact ⟨htexts t h.1, ih h.2⟩
  | element name attributes children rest ihChildren ih =>
    exact ⟨htags name attributes h.1, ihChildren h.2.1, ih h.2.2⟩

theorem All.and (h : f.All texts tags) (h' : f.All texts' tags') :
    f.All (fun t => texts t ∧ texts' t)
      fun name attributes => tags name attributes ∧ tags' name attributes := by
  induction f with
  | nil => trivial
  | text t rest ih => exact ⟨⟨h.1, h'.1⟩, ih h.2 h'.2⟩
  | element name attributes children rest ihChildren ih =>
    exact ⟨⟨h.1, h'.1⟩, ihChildren h.2.1 h'.2.1, ih h.2.2 h'.2.2⟩

end

/-! ## Rereading -/

/-- The text that a run of characters leaves in front of other content. -/
def ofRun (t : Text) (rest : Forest) : Forest :=
  if trimBlanks t = [] then rest else text (trimBlanks t) rest

/-- The line break before content in a layout. -/
def gap (depth : Nat) (broken : Bool) : Text := if broken then newline depth else []

/-- What printed content is read back as, behind the characters of a run that has begun. -/
def reread (indented : Bool) (depth : Nat) (broken : Bool) (pending : Text) : Forest → Forest
  | nil => ofRun pending nil
  | text t rest => reread indented depth broken (pending ++ gap depth broken ++ t) rest
  | element name attributes children rest =>
    let inner := indented && children.hasElements
    ofRun pending (element name attributes (reread indented (depth + 1) inner [] children)
      (reread indented depth broken [] rest))

theorem isBlank_gap (depth : Nat) (broken : Bool) : (gap depth broken).all isBlank = true := by
  have hspace : isBlank ' ' = true := by decide
  have hbreak : isBlank '\n' = true := by decide
  cases broken <;> simp [gap, newline, hspace, hbreak]

theorem ofRun_append (t : Text) (f g : Forest) : ofRun t f ++ g = ofRun t (f ++ g) := by
  unfold ofRun
  split <;> simp

theorem ofRun_append_blank {blanks : Text} (h : blanks.all isBlank = true) (t : Text) (f : Forest) :
    ofRun (t ++ blanks) f = ofRun t f := by
  rw [ofRun, ofRun, Markup.trimBlanks_append_blank h]

theorem ofRun_of_blank {t : Text} (h : t.all isBlank = true) (f : Forest) : ofRun t f = f := by
  rw [ofRun, Markup.trimBlanks_of_blank h, if_pos rfl]

/-! ## Printing -/

theorem escape_of_blank {t : Text} (h : t.all isBlank = true) : escape t = t := by
  induction t with
  | nil => rfl
  | cons c t ih =>
    simp only [List.all_cons, Bool.and_eq_true] at h
    rw [escape_cons, Markup.escapeChar_of_isBlank h.1, ih h.2]
    rfl

/-- What stands behind the attributes of a tag. -/
def body (indented : Bool) (depth : Nat) (name : Text) (children : Forest) : Text :=
  let inner := indented && children.hasElements
  if children = nil then ['/', '>']
  else '>' :: children.render indented (depth + 1) inner ++ gap depth inner ++
    '<' :: '/' :: name ++ ['>']

theorem render_text (indented : Bool) (depth : Nat) (broken : Bool) (t : Text) (rest : Forest) :
    (text t rest).render indented depth broken =
      gap depth broken ++ escape t ++ rest.render indented depth broken := rfl

theorem render_element (indented : Bool) (depth : Nat) (broken : Bool) (name : Text)
    (attributes : Attributes) (children rest : Forest) :
    (element name attributes children rest).render indented depth broken =
      gap depth broken ++ ('<' :: name ++ renderAttributes attributes ++
        (body indented depth name children ++ rest.render indented depth broken)) := by
  cases children <;> simp [render, body, gap]

end Forest

open Forest (ofRun gap body)

/-! ## Reading what is printed -/

namespace Progress

theorem addContent_append {p : Progress} (f g : Forest) :
    (p.addContent f).addContent g = p.addContent (f ++ g) := by
  obtain ⟨opened, root⟩ := p
  cases opened with
  | nil => rfl
  | cons parent outer => simp [addContent, Forest.append_assoc]

theorem opened_addContent_ne_nil {p : Progress} (hp : p.opened ≠ []) (f : Forest) :
    (p.addContent f).opened ≠ [] := by
  obtain ⟨_ | ⟨parent, outer⟩, root⟩ := p
  · exact absurd rfl hp
  · exact List.cons_ne_nil _ _

theorem addElement_of_opened {p : Progress} (hp : p.opened ≠ []) (e : Element) :
    p.addElement e = .ok (p.addContent (.ofElement e)) := by
  obtain ⟨_ | ⟨parent, outer⟩, root⟩ := p
  · exact absurd rfl hp
  · rfl

/-- The progress behind some parts of a document. -/
def after (p : Progress) (parts : List Markup) : Except Reason Progress := parts.foldlM step p

theorem after_cons (p : Progress) (part : Markup) (parts : List Markup) :
    p.after (part :: parts) = (p.step part).bind fun q => q.after parts := by
  rw [after, List.foldlM_cons]
  rfl

/-- A start tag opens the element that is written in it. -/
theorem after_tag {name : Text} {attributes : Attributes} (h : Writable name attributes)
    (p : Progress) (parts : List Markup) :
    p.after (.tag (name ++ renderAttributes attributes) false :: parts) =
      { p with opened := ⟨name, attributes, .nil⟩ :: p.opened : Progress }.after parts := by
  rw [after_cons, step, readTag_render h]
  rfl

theorem after_emptyTag {name : Text} {attributes : Attributes} (h : Writable name attributes)
    (p : Progress) (parts : List Markup) :
    p.after (.tag (name ++ renderAttributes attributes) true :: parts) =
      (p.addElement ⟨name, attributes, .nil⟩).bind fun q => q.after parts := by
  rw [after_cons, step, readTag_render h]
  rfl

/-- A closing tag adds the innermost open element, if it has its name. -/
theorem after_close (e : Element) (p : Progress) (parts : List Markup) :
    { p with opened := e :: p.opened : Progress }.after (.close e.name :: parts) =
      (p.addElement e).bind fun q => q.after parts := by
  rw [after_cons]
  simp [step]

/-- Inside an element, what is written between two tags adds the text that it leaves. -/
theorem after_text {p : Progress} (hp : p.opened ≠ []) (t rest : Text) :
    p.after (Markup.split (escape t ++ '<' :: rest)) =
      (p.addContent (ofRun t .nil)).after (Markup.split ('<' :: rest)) := by
  rw [Markup.split_text (not_mem_escape (by decide) (by decide) t), Markup.run_escape, ofRun]
  split
  · obtain ⟨_ | ⟨parent, outer⟩, root⟩ := p
    · exact absurd rfl hp
    · simp [addContent]
  · rw [List.singleton_append, after_cons, step, unescape?_escape]
    rfl

end Progress

/-- Inside an element the content is read back as `reread` says, up to the tag behind it. -/
def Forest.ReadBack (f : Forest) : Prop :=
  ∀ (indented : Bool) (depth : Nat) (broken : Bool) (pending blanks rest : Text) (p : Progress),
    p.opened ≠ [] → blanks.all isBlank = true →
    p.after (Markup.split (escape pending ++ f.render indented depth broken ++
        (blanks ++ '<' :: rest))) =
      (p.addContent (f.reread indented depth broken pending)).after (Markup.split ('<' :: rest))

/-- A printed element is read back if its content is. -/
theorem after_element {name : Text} {attributes : Attributes} {children : Forest}
    (h : Writable name attributes) (hchildren : children.ReadBack) (indented : Bool) (depth : Nat)
    (rest : Text) (p : Progress) :
    let inner := indented && children.hasElements
    p.after (Markup.split ('<' :: name ++ renderAttributes attributes ++
        (body indented depth name children ++ rest))) =
      (p.addElement ⟨name, attributes, children.reread indented (depth + 1) inner []⟩).bind
        fun q => q.after (Markup.split rest) := by
  intro inner
  by_cases hnil : children = .nil
  · have hempty : children.reread indented (depth + 1) inner [] = .nil := by
      rw [hnil]
      exact Forest.ofRun_of_blank rfl _
    have hsplit := Markup.split_emptyTag h rest
    simp only [body, hnil, if_true, List.cons_append, List.nil_append] at hsplit ⊢
    rw [hsplit, Progress.after_emptyTag h, ← hnil, hempty, hnil]
  · -- the content is read with the element open, and its closing tag adds the element
    have hcontent := hchildren indented (depth + 1) inner [] (gap depth inner)
      ('/' :: name ++ '>' :: rest) { p with opened := ⟨name, attributes, .nil⟩ :: p.opened }
      (List.cons_ne_nil _ _) (Forest.isBlank_gap _ _)
    have hsplit := Markup.split_tag h (children.render indented (depth + 1) inner ++
      (gap depth inner ++ '<' :: '/' :: name ++ '>' :: rest))
    have hclose := Markup.split_close h.name rest
    have hadd := p.after_close
      ⟨name, attributes, children.reread indented (depth + 1) inner []⟩ (Markup.split rest)
    simp only [body, hnil, if_false, escape_nil, List.nil_append, List.cons_append,
      List.append_assoc] at hsplit hcontent hclose ⊢
    rw [hsplit, Progress.after_tag h, hcontent, hclose, ← hadd]
    rfl

theorem Forest.readBack {f : Forest} {texts : Text → Prop} (h : f.All texts Writable) :
    f.ReadBack := by
  induction f with
  | nil =>
    intro indented depth broken pending blanks rest p hp hblanks
    have hread := p.after_text hp (pending ++ blanks) rest
    rw [escape_append, escape_of_blank hblanks, ofRun_append_blank hblanks] at hread
    simpa [render, reread] using hread
  | text t f ih =>
    intro indented depth broken pending blanks rest p hp hblanks
    have hread := ih h.2 indented depth broken (pending ++ gap depth broken ++ t) blanks rest p hp hblanks
    rw [escape_append, escape_append, escape_of_blank (isBlank_gap _ _)] at hread
    simpa [render_text, reread] using hread
  | element name attributes children f ihChildren ih =>
    intro indented depth broken pending blanks rest p hp hblanks
    obtain ⟨htag, hchildren, hf⟩ := h
    let e : Element := ⟨name, attributes,
      children.reread indented (depth + 1) (indented && children.hasElements) []⟩
    let behind := f.render indented depth broken ++ (blanks ++ '<' :: rest)
    let tag := name ++ renderAttributes attributes ++ (body indented depth name children ++ behind)
    let q := p.addContent (ofRun pending .nil)
    have hq : q.opened ≠ [] := Progress.opened_addContent_ne_nil hp _
    -- the run in front of the element, the element itself, and what is behind it
    have hrun : p.after (Markup.split (escape pending ++ gap depth broken ++ '<' :: tag)) =
        q.after (Markup.split ('<' :: tag)) := by
      have hread := p.after_text hp (pending ++ gap depth broken) tag
      rwa [escape_append, escape_of_blank (isBlank_gap _ _), ofRun_append_blank (isBlank_gap _ _)] at hread
    have helement : q.after (Markup.split ('<' :: tag)) =
        (q.addContent (.ofElement e)).after (Markup.split behind) := by
      refine (after_element htag (ihChildren hchildren) indented depth behind q).trans ?_
      rw [Progress.addElement_of_opened hq]
      rfl
    have hbehind := ih hf indented depth broken [] blanks rest (q.addContent (.ofElement e))
      (Progress.opened_addContent_ne_nil hq _) hblanks
    have hcontent : (q.addContent (.ofElement e)).addContent (f.reread indented depth broken []) =
        p.addContent ((element name attributes children f).reread indented depth broken pending) := by
      rw [Progress.addContent_append, Progress.addContent_append, reread, ofRun_append]
      rfl
    rw [hcontent] at hbehind
    calc p.after (Markup.split (escape pending ++
          (element name attributes children f).render indented depth broken ++ (blanks ++ '<' :: rest)))
      _ = p.after (Markup.split (escape pending ++ gap depth broken ++ '<' :: tag)) := by
        simp [render_element, tag, behind]
      _ = (q.addContent (.ofElement e)).after (Markup.split behind) := hrun.trans helement
      _ = _ := by simpa [behind] using hbehind

/-! ## Whole documents -/

namespace Element

/-- The element with its tags and texts, at any depth. -/
def All (texts : Text → Prop) (tags : Text → Attributes → Prop) (e : Element) : Prop :=
  tags e.name e.attributes ∧ e.children.All texts tags

/-- What the printed element is read back as. -/
def reread (indented : Bool) (e : Element) : Element :=
  { e with children := e.children.reread indented 1 (indented && e.children.hasElements) [] }

theorem print_eq (indented : Bool) (e : Element) : e.print indented =
    '<' :: e.name ++ renderAttributes e.attributes ++ body indented 0 e.name e.children := by
  have hrender := Forest.render_element indented 0 false e.name e.attributes e.children .nil
  simpa [print, Forest.ofElement, gap, Forest.render] using hrender

/-- A printed element stands between angle brackets, so there is nothing to trim. -/
theorem trim_print (indented : Bool) (e : Element) : (e.print indented).trim = e.print indented := by
  obtain ⟨inner, hinner⟩ : ∃ inner, e.print indented = '<' :: inner ++ ['>'] := by
    rw [print_eq, body]
    split
    · exact ⟨e.name ++ renderAttributes e.attributes ++ ['/'], by simp⟩
    · exact ⟨e.name ++ renderAttributes e.attributes ++ ('>' :: _ ++ _ ++ '<' :: '/' :: e.name), by simp; rfl⟩
  rw [hinner]
  exact Text.trim_between (by decide) (by decide) inner

end Element

/-- An element whose tags can be written is read back, in either layout. -/
theorem read_print {e : Element} {texts : Text → Prop} (h : e.All texts Writable) (indented : Bool) :
    read (e.print indented) = .ok (e.reread indented) := by
  have helement := after_element h.1 (Forest.readBack h.2) indented 0 [] ⟨[], none⟩
  rw [List.append_nil, ← Element.print_eq] at helement
  have hsplit : Markup.split [] = [] := by rw [Markup.split]
  rw [read, Element.trim_print]
  change (Progress.after _ _).bind Progress.result = _
  rw [helement, hsplit]
  rfl

/-! ## Settled content -/

/-- The text begins and ends with another character than a blank. -/
structure Trimmed (t : Text) : Prop where
  ne_nil : t ≠ []
  head : ∀ c ∈ t.head?, isBlank c = false
  last : ∀ c ∈ t.getLast?, isBlank c = false

theorem Trimmed.trimBlanks_eq {t : Text} (h : Trimmed t) : trimBlanks t = t := by
  obtain ⟨c, s, rfl⟩ := List.exists_cons_of_ne_nil h.ne_nil
  have hc : isBlank c = false := h.head c rfl
  obtain ⟨front, d, heq⟩ := (List.eq_nil_or_concat (c :: s)).resolve_left (List.cons_ne_nil _ _)
  rw [List.concat_eq_append] at heq
  have hd : isBlank d = false := h.last d (by rw [heq, List.getLast?_concat]; rfl)
  rw [trimBlanks, List.dropWhile_cons_of_neg (by simp [hc]), heq]
  simp [Text.dropEndWhile, hd]

theorem trimmed_trimBlanks {t : Text} (h : trimBlanks t ≠ []) : Trimmed (trimBlanks t) := by
  have hends (s : Text) : ∀ c ∈ (s.dropWhile isBlank).head?, isBlank c = false := fun c hc => by
    simpa [Option.mem_def.1 hc] using List.head?_dropWhile_not isBlank s
  refine ⟨h, fun c hc => ?_, fun c hc => ?_⟩
  · -- what is dropped at the end leaves the first character
    have hprefix : trimBlanks t <+: t.dropWhile isBlank :=
      List.reverse_suffix.1 (by simpa [trimBlanks, Text.dropEndWhile] using List.dropWhile_suffix _)
    obtain ⟨d, s, heq⟩ := List.exists_cons_of_ne_nil h
    obtain ⟨u, hu⟩ := hprefix
    refine hends t c ?_
    rw [heq] at hc hu
    rw [← hu]
    exact hc
  · rw [trimBlanks, Text.dropEndWhile, List.getLast?_reverse] at hc
    exact hends _ c hc

theorem trimmed_iff {t : Text} : Trimmed t ↔ t ≠ [] ∧ trimBlanks t = t := by
  constructor
  · intro h
    exact ⟨h.ne_nil, h.trimBlanks_eq⟩
  · rintro ⟨hne, heq⟩
    rw [← heq] at hne ⊢
    exact trimmed_trimBlanks hne

namespace Forest

/-- The content begins with a text. -/
def beginsWithText : Forest → Bool
  | text _ _ => true
  | _ => false

/-- No two texts are neighbours, at any depth. -/
def Apart : Forest → Prop
  | nil => True
  | text _ rest => rest.beginsWithText = false ∧ rest.Apart
  | element _ _ children rest => children.Apart ∧ rest.Apart

/-- Content that its own text stands for: all texts are trimmed, and no two are neighbours. -/
structure Settled (f : Forest) : Prop where
  trimmed : f.All Trimmed fun _ _ => True
  apart : f.Apart

theorem ofRun_blank_append {blanks : Text} (h : blanks.all isBlank = true) (t : Text) (f : Forest) :
    ofRun (blanks ++ t) f = ofRun t f := by
  rw [ofRun, ofRun, Markup.trimBlanks_blank_append h]

theorem ofRun_of_trimmed {t : Text} (h : Trimmed t) (f : Forest) : ofRun t f = text t f := by
  rw [ofRun, h.trimBlanks_eq, if_neg h.ne_nil]

/-- Settled content is read back as it is, behind a run that does not go on into it. -/
theorem reread_of_settled {f : Forest} (h : f.Settled) (indented : Bool) (depth : Nat) (broken : Bool)
    {pending : Text} (hpending : pending.all isBlank = true ∨ f.beginsWithText = false) :
    f.reread indented depth broken pending = ofRun pending f := by
  induction f generalizing depth broken pending with
  | nil => rfl
  | text t rest ih =>
    have hblank : pending.all isBlank = true := by simpa [beginsWithText] using hpending
    have hblanks : (pending ++ gap depth broken).all isBlank = true := by
      rw [List.all_append, hblank, isBlank_gap]
      rfl
    rw [reread, ih ⟨h.trimmed.2, h.apart.2⟩ depth broken (.inr h.apart.1),
      ofRun_blank_append hblanks, ofRun_of_trimmed h.trimmed.1, ofRun_of_blank hblank]
  | element name attributes children rest ihChildren ih =>
    obtain ⟨-, hchildren, hrest⟩ := h.trimmed
    have hnone : ([] : Text).all isBlank = true := rfl
    have hinner := ihChildren ⟨hchildren, h.apart.1⟩ (depth + 1) (indented && children.hasElements)
      (.inl hnone)
    have hbehind := ih ⟨hrest, h.apart.2⟩ depth broken (.inl hnone)
    rw [ofRun_of_blank hnone] at hinner hbehind
    rw [reread, hinner, hbehind]

theorem settled_ofRun {f : Forest} (h : f.Settled) (hf : f.beginsWithText = false) (t : Text) :
    (ofRun t f).Settled := by
  unfold ofRun
  split
  · exact h
  · rename_i hne
    exact ⟨⟨trimmed_trimBlanks hne, h.trimmed⟩, hf, h.apart⟩

/-- Whatever is printed, what is read back is settled. -/
theorem settled_reread (f : Forest) (indented : Bool) (depth : Nat) (broken : Bool) (pending : Text) :
    (f.reread indented depth broken pending).Settled := by
  induction f generalizing depth broken pending with
  | nil =>
    have hnil : nil.Settled := ⟨trivial, trivial⟩
    exact settled_ofRun hnil rfl pending
  | text t rest ih => exact ih _ _ _
  | element name attributes children rest ihChildren ih =>
    have hchildren := ihChildren (depth + 1) (indented && children.hasElements) []
    have hrest := ih depth broken []
    have helement : (element name attributes _ _).Settled :=
      ⟨⟨trivial, hchildren.trimmed, hrest.trimmed⟩, hchildren.apart, hrest.apart⟩
    exact settled_ofRun helement rfl pending

end Forest

namespace Element

/-- An element is read back as it is exactly if its content is settled. -/
theorem reread_eq_iff {e : Element} {indented : Bool} :
    e.reread indented = e ↔ e.children.Settled := by
  have hchildren : e.reread indented = e ↔
      e.children.reread indented 1 (indented && e.children.hasElements) [] = e.children := by
    obtain ⟨name, attributes, children⟩ := e
    simp [reread]
  rw [hchildren]
  constructor
  · intro h
    rw [← h]
    exact Forest.settled_reread _ _ _ _ _
  · intro h
    rw [Forest.reread_of_settled h _ _ _ (.inl rfl), Forest.ofRun_of_blank rfl]

end Element

end SeedChain.Xml
