import SeedChain.Proofs.Xml.References
import SeedChain.Xml.Printer
import SeedChain.Xml.Reader
/-!
# Tags that are read back

A tag goes on through every text in which each quotation mark is followed by its partner and no `>`
stands outside of them (`KeepsTag`), so through names without such characters and through written
values. Main facts: what is written in a tag is split off as one part, whatever follows
(`split_tag`, `split_emptyTag`, `split_close`), and is read as the name and the attributes that were
written (`readTag_render`). Between tags, what is left of a written text is the text without the blanks
at its ends (`split_text`, `run_escape`).
-/

namespace SeedChain.Xml

/-! ## Names and keys -/

/-- The characters that end a tag or begin a value in it. -/
def tagMarks : List Char := ['>', '"', '\'']

/-- An element's name that stands for itself in a tag. -/
structure IsTagName (name : Text) : Prop where
  ne_nil : name ≠ []
  plain : ∀ c ∈ name, Markup.isBlank c = false ∧ c ∉ tagMarks
  /-- What begins with one of these is no start tag. -/
  head : ∀ c ∈ name.head?, c ∉ ['!', '?', '/']
  /-- A slash at the end would close the element. -/
  last : name.getLast? ≠ some '/'

/-- A key that stands for itself in a tag. -/
structure IsKey (key : Text) : Prop where
  ne_nil : key ≠ []
  plain : ∀ c ∈ key, Markup.isBlank c = false ∧ c ∉ tagMarks
  /-- An equals sign behind the first character would end the key. -/
  tail : '=' ∉ key.tail

/-- A tag that can be written: its name and keys stand for themselves, and no key comes twice. -/
structure Writable (name : Text) (attributes : Attributes) : Prop where
  name : IsTagName name
  keys : ∀ key ∈ Entries.keys attributes, IsKey key
  nodup : (Entries.keys attributes).Nodup

theorem renderAttributes_cons (key value : Text) (attributes : Attributes) :
    renderAttributes ((key, value) :: attributes) =
      ' ' :: key ++ '=' :: '"' :: escape value ++ '"' :: renderAttributes attributes := by
  simp [renderAttributes]

namespace Markup

variable {s t name rest : Text} {attributes : Attributes}

/-! ## Where a tag ends -/

/-- The tag does not end in this text, and no value that begins in it is open behind it. -/
def KeepsTag (s : Text) : Prop :=
  ∀ t, cutTag? none (s ++ t) = (cutTag? none t).map fun parts => (s ++ parts.1, parts.2)

theorem keepsTag_nil : KeepsTag [] := fun t => by simp

theorem KeepsTag.append (hs : KeepsTag s) (ht : KeepsTag t) : KeepsTag (s ++ t) := by
  intro u
  rw [List.append_assoc, hs, ht, Option.map_map]
  congr 1
  funext parts
  simp

theorem keepsTag_of_plain (h : ∀ c ∈ s, c ∉ tagMarks) : KeepsTag s := by
  intro t
  induction s with
  | nil => simp
  | cons c s ih =>
    have hc := h c (by simp)
    simp only [tagMarks, List.mem_cons, List.not_mem_nil, or_false, not_or] at hc
    obtain ⟨hclose, hdouble, hsingle⟩ := hc
    have hs := ih fun d hd => h d (List.mem_cons_of_mem _ hd)
    rw [List.cons_append, cutTag?, if_neg fun hc => hclose hc.2]
    simp only [hdouble, hsingle, or_self, if_false, hs, Option.map_map]
    rfl

/-- A value goes on to the quotation mark that it began with. -/
theorem cutTag?_quoted {q : Char} (h : q ∉ s) (t : Text) : cutTag? (some q) (s ++ q :: t) =
    (cutTag? none t).map fun parts => (s ++ q :: parts.1, parts.2) := by
  induction s with
  | nil =>
    rw [List.nil_append, cutTag?, if_neg (by simp)]
    simp
  | cons c s ih =>
    simp only [List.mem_cons, not_or] at h
    rw [List.cons_append, cutTag?, if_neg (by simp)]
    simp only [Ne.symm h.1, if_false, ih h.2, Option.map_map]
    rfl

theorem keepsTag_value (h : '"' ∉ s) : KeepsTag ('"' :: s ++ ['"']) := by
  intro t
  have hvalue := cutTag?_quoted h t
  simp [cutTag?, hvalue, Function.comp_def]

theorem keepsTag_renderAttributes (h : ∀ key ∈ Entries.keys attributes, IsKey key) :
    KeepsTag (renderAttributes attributes) := by
  induction attributes with
  | nil => exact keepsTag_nil
  | cons entry attributes ih =>
    obtain ⟨key, value⟩ := entry
    have hkey : KeepsTag (' ' :: key ++ ['=']) := by
      refine keepsTag_of_plain fun c hc => ?_
      simp only [List.cons_append, List.mem_cons, List.mem_append, List.not_mem_nil, or_false] at hc
      rcases hc with rfl | hc | rfl
      · decide
      · exact ((h key (by simp [Entries.keys])).plain c hc).2
      · decide
    have hvalue : KeepsTag ('"' :: escape value ++ ['"']) :=
      keepsTag_value (not_mem_escape (by decide) (by decide) value)
    have hrest : KeepsTag (renderAttributes attributes) :=
      ih fun k hk => h k (List.mem_cons_of_mem _ hk)
    simpa [renderAttributes_cons] using (hkey.append hvalue).append hrest

theorem keepsTag_tag (h : Writable name attributes) :
    KeepsTag (name ++ renderAttributes attributes) :=
  (keepsTag_of_plain fun c hc => (h.name.plain c hc).2).append (keepsTag_renderAttributes h.keys)

/-! ## The parts of a document -/

theorem construct?_tag {c : Char} (hc : c ∉ ['!', '?', '/'])
    (hcut : cutTag? none (c :: t) = some (s, rest)) (hlast : s.getLast? ≠ some '/') :
    construct? (c :: t) = some (some (.tag s false), rest) := by
  unfold construct?
  split
  case h_6 =>
    simp only [hcut, Option.map_some]
  all_goals simp_all

theorem construct?_emptyTag {c : Char} (hc : c ∉ ['!', '?', '/'])
    (hcut : cutTag? none (c :: t) = some (s ++ ['/'], rest)) :
    construct? (c :: t) = some (some (.tag s true), rest) := by
  unfold construct?
  split
  case h_6 => simp [hcut]
  all_goals simp_all

theorem split_construct {item : Option Markup} (h : construct? t = some (item, rest)) :
    Markup.split ('<' :: t) = item.toList ++ Markup.split rest := by
  rw [Markup.split]
  split
  · simp_all
  · rename_i heq
    obtain ⟨rfl, rfl⟩ := Prod.mk.inj (Option.some.inj (heq.symm.trans h))
    rfl

theorem getLast?_tag (h : Writable name attributes) :
    (name ++ renderAttributes attributes).getLast? ≠ some '/' := by
  rcases List.eq_nil_or_concat attributes with rfl | ⟨front, ⟨key, value⟩, rfl⟩
  · simpa [renderAttributes] using h.name.last
  · have hquote : name ++ renderAttributes (front.concat (key, value)) =
        name ++ renderAttributes front ++ ' ' :: key ++ '=' :: '"' :: escape value ++ ['"'] := by
      simp [renderAttributes]
    rw [hquote, List.getLast?_concat]
    decide

theorem split_tag (h : Writable name attributes) (rest : Text) :
    Markup.split ('<' :: name ++ renderAttributes attributes ++ '>' :: rest) =
      .tag (name ++ renderAttributes attributes) false :: Markup.split rest := by
  have hcut : cutTag? none (name ++ renderAttributes attributes ++ '>' :: rest) =
      some (name ++ renderAttributes attributes, rest) := by
    rw [keepsTag_tag h]
    simp [cutTag?]
  have hlast := getLast?_tag h
  obtain ⟨c, name, rfl⟩ := List.exists_cons_of_ne_nil h.name.ne_nil
  exact split_construct (construct?_tag (h.name.head c rfl) hcut hlast)

theorem split_emptyTag (h : Writable name attributes) (rest : Text) :
    Markup.split ('<' :: name ++ renderAttributes attributes ++ '/' :: '>' :: rest) =
      .tag (name ++ renderAttributes attributes) true :: Markup.split rest := by
  have hslash : KeepsTag ['/'] := keepsTag_of_plain (by simp [tagMarks])
  have hcut : cutTag? none (name ++ renderAttributes attributes ++ '/' :: '>' :: rest) =
      some (name ++ renderAttributes attributes ++ ['/'], rest) := by
    rw [List.append_cons, (keepsTag_tag h).append hslash]
    simp [cutTag?]
  obtain ⟨c, name, rfl⟩ := List.exists_cons_of_ne_nil h.name.ne_nil
  exact split_construct (construct?_emptyTag (h.name.head c rfl) hcut)

theorem closedName_of_plain (h : IsTagName name) : closedName name = name := by
  unfold closedName
  split
  · rfl
  · obtain ⟨front, c, rfl⟩ := (List.eq_nil_or_concat name).resolve_left h.ne_nil
    have hc : isBlank c = false := (h.plain c (by simp)).1
    simp [Text.dropEndWhile, hc]

theorem split_close (h : IsTagName name) (rest : Text) :
    Markup.split ('<' :: '/' :: name ++ '>' :: rest) = .close name :: Markup.split rest := by
  have hcut := keepsTag_of_plain (fun c hc => (h.plain c hc).2) ('>' :: rest)
  have hread : construct? ('/' :: (name ++ '>' :: rest)) = some (some (.close name), rest) := by
    simp [construct?, hcut, cutTag?, closedName_of_plain h]
  simpa using split_construct hread

/-- A text goes up to the next angle bracket. -/
theorem split_text (h : '<' ∉ s) (rest : Text) :
    Markup.split (s ++ '<' :: rest) = run s ++ Markup.split ('<' :: rest) := by
  cases s with
  | nil => rfl
  | cons c s =>
    simp only [List.mem_cons, not_or] at h
    have hall : ∀ d ∈ s, (d != '<') = true := fun d hd => bne_iff_ne.2 fun heq => h.2 (heq ▸ hd)
    have htake : (s ++ '<' :: rest).takeWhile (· != '<') = s :=
      Text.takeWhile_append_stop hall (by simp) rest
    have hdrop : (s ++ '<' :: rest).dropWhile (· != '<') = '<' :: rest :=
      Text.dropWhile_append_stop hall (by simp) rest
    rw [List.cons_append, Markup.split.eq_def]
    split
    · contradiction
    · rename_i heq
      exact absurd (List.head_eq_of_cons_eq heq).symm h.1
    · rename_i heq
      obtain ⟨rfl, rfl⟩ := List.cons.inj heq
      simp only [htake, hdrop]

/-- What is left of a written text is the text without the blanks at its ends. -/
theorem run_escape (t : Text) :
    run (escape t) = if trimBlanks t = [] then [] else [.text (escape (trimBlanks t))] := by
  have hrun : run (escape t) =
      if trimBlanks (escape t) = [] then [] else [.text (trimBlanks (escape t))] := rfl
  rw [hrun, trimBlanks_escape]
  simp only [escape_eq_nil_iff]

end Markup

/-! ## Reading a tag -/

/-- An attribute is read up to the quotation mark behind its value. -/
theorem takeAttribute?_render {c : Char} {key : Text} (h : IsKey (c :: key)) (value rest : Text) :
    takeAttribute? c (key ++ '=' :: '"' :: (escape value ++ '"' :: rest)) =
      some (c :: key, escape value, rest) := by
  have hkey : ∀ d ∈ key, inKey d = true := by
    intro d hd
    have hblank := (h.plain d (List.mem_cons_of_mem _ hd)).1
    have hne : d ≠ '=' := fun heq => h.tail (heq ▸ hd)
    simp [inKey, hblank, hne]
  have hvalue : ∀ d ∈ escape value, (d != '"') = true := fun d hd =>
    bne_iff_ne.2 fun heq => not_mem_escape (by decide) (by decide) value (heq ▸ hd)
  have hequals : Markup.isBlank '=' = false := by decide
  have hquote : Markup.isBlank '"' = false := by decide
  have htake := Text.takeWhile_append_stop hvalue (c := '"') (by simp) rest
  have hdrop := Text.dropWhile_append_stop hvalue (c := '"') (by simp) rest
  simp [takeAttribute?, Text.takeWhile_append_stop hkey, Text.dropWhile_append_stop hkey, inKey,
    hequals, hquote, htake, hdrop]

/-- Attributes are read back, if no key comes twice or has been seen before. -/
theorem readAttributes_render (element : Text) {seen : List Text} {attributes : Attributes}
    (hkeys : ∀ key ∈ Entries.keys attributes, IsKey key) (hnodup : (Entries.keys attributes).Nodup)
    (hseen : ∀ key ∈ Entries.keys attributes, key ∉ seen) :
    readAttributes element seen (renderAttributes attributes) = .ok attributes := by
  induction attributes generalizing seen with
  | nil => simp [renderAttributes, readAttributes]
  | cons entry attributes ih =>
    obtain ⟨key, value⟩ := entry
    have hkey := hkeys key (by simp [Entries.keys])
    obtain ⟨c, key, rfl⟩ := List.exists_cons_of_ne_nil hkey.ne_nil
    obtain ⟨hnew, hnodup⟩ := List.nodup_cons.1 hnodup
    have hc : Markup.isBlank c = false := (hkey.plain c (by simp)).1
    have hblank : Markup.isBlank ' ' = true := by decide
    have hbegin : (renderAttributes ((c :: key, value) :: attributes)).dropWhile Markup.isBlank =
        c :: (key ++ '=' :: '"' :: (escape value ++ '"' :: renderAttributes attributes)) := by
      simp [renderAttributes_cons, hblank, hc]
    have hrest : readAttributes element ((c :: key) :: seen) (renderAttributes attributes) =
        .ok attributes := by
      refine ih (fun k hk => hkeys k (List.mem_cons_of_mem _ hk)) hnodup fun k hk => ?_
      simp only [List.mem_cons, not_or]
      exact ⟨fun heq => hnew (heq ▸ hk), hseen k (List.mem_cons_of_mem _ hk)⟩
    have hattribute := takeAttribute?_render hkey value (renderAttributes attributes)
    rw [readAttributes]
    split
    · rename_i hu
      cases hu.symm.trans hbegin
    · rename_i d u hu
      obtain ⟨rfl, rfl⟩ := List.cons.inj (hu.symm.trans hbegin)
      split
      · rename_i htaken
        cases htaken.symm.trans hattribute
      · rename_i found raw rest htaken
        cases htaken.symm.trans hattribute
        simp only [hseen (d :: key) (by simp [Entries.keys]), if_false, unescape?_escape, hrest]
        rfl

/-- What is written in a tag is read as it was. -/
theorem readTag_render {name : Text} {attributes : Attributes} (h : Writable name attributes) :
    readTag (name ++ renderAttributes attributes) = .ok ⟨name, attributes, .nil⟩ := by
  have hname : ∀ c ∈ name, (!Markup.isBlank c) = true := fun c hc => by
    simp [(h.name.plain c hc).1]
  have hattributes : readAttributes name [] (renderAttributes attributes) = .ok attributes :=
    readAttributes_render name h.keys h.nodup fun _ _ => List.not_mem_nil
  have hends : renderAttributes attributes = [] ∨ ∃ t, renderAttributes attributes = ' ' :: t := by
    cases attributes with
    | nil => exact .inl rfl
    | cons entry attributes => exact .inr ⟨_, rfl⟩
  have htake : (name ++ renderAttributes attributes).takeWhile (fun c => !Markup.isBlank c) = name := by
    rcases hends with hnil | ⟨t, ht⟩
    · rw [hnil, List.append_nil, List.takeWhile_eq_self_iff.2 hname]
    · rw [ht]
      exact Text.takeWhile_append_stop hname (by decide) t
  have hdrop : (name ++ renderAttributes attributes).dropWhile (fun c => !Markup.isBlank c) =
      renderAttributes attributes := by
    rcases hends with hnil | ⟨t, ht⟩
    · rw [hnil, List.append_nil, List.dropWhile_eq_nil_iff.2 hname]
    · rw [ht]
      exact Text.dropWhile_append_stop hname (by decide) t
  simp only [readTag, htake, hdrop, hattributes]
  rfl

end SeedChain.Xml
