import SeedChain.Proofs.Pieces
import SeedChain.Xml.Escape
import SeedChain.Xml.Markup
/-!
# Texts with references

Writing the special characters of a text as references is undone by reading (`unescape?_escape`). What
is written holds no angle bracket and no quotation mark (`not_mem_escape`), and it begins and ends with
as many blanks as the text itself does, so it makes no difference whether a text is trimmed before or
after it is written (`trimBlanks_escape`).
-/

namespace SeedChain.Xml

@[simp]
theorem escape_nil : escape [] = [] := rfl

theorem escape_cons (c : Char) (t : Text) : escape (c :: t) = escapeChar c ++ escape t := by
  simp [escape]

@[simp]
theorem escape_append (s t : Text) : escape (s ++ t) = escape s ++ escape t := by
  simp [escape]

/-- The characters that are written as references. -/
def special : List Char := ['<', '>', '&', '\'', '"']

theorem escapeChar_of_not_special {c : Char} (h : c ∉ special) : escapeChar c = [c] := by
  unfold escapeChar
  split
  all_goals first | rfl | exact absurd (by decide) h

/-- A special character is written as a reference that names it. -/
theorem escapeChar_of_special {c : Char} (h : c ∈ special) : ∃ name,
    escapeChar c = '&' :: name ++ [';'] ∧ name.all inReference = true ∧ reference? name = some c ∧
      ∀ d ∈ name, d ∉ special := by
  simp only [special, List.mem_cons, List.not_mem_nil, or_false] at h
  rcases h with rfl | rfl | rfl | rfl | rfl
  · exact ⟨"lt".toList, rfl, by decide, rfl, by simp [special]⟩
  · exact ⟨"gt".toList, rfl, by decide, rfl, by simp [special]⟩
  · exact ⟨"amp".toList, rfl, by decide, rfl, by simp [special]⟩
  · exact ⟨"apos".toList, rfl, by decide, rfl, by simp [special]⟩
  · exact ⟨"quot".toList, rfl, by decide, rfl, by simp [special]⟩

/-- Nothing that is written ends a text, a tag or a value. -/
theorem not_mem_escape {c : Char} (hc : c ∈ special) (hamp : c ≠ '&') (t : Text) :
    c ∉ escape t := by
  intro hmem
  obtain ⟨d, -, hd⟩ := List.mem_flatMap.1 hmem
  by_cases hspecial : d ∈ special
  · obtain ⟨name, heq, -, -, hname⟩ := escapeChar_of_special hspecial
    rw [heq] at hd
    simp only [List.cons_append, List.mem_cons, List.mem_append, List.not_mem_nil, or_false] at hd
    rcases hd with rfl | hd | rfl
    · exact hamp rfl
    · exact hname c hd hc
    · exact absurd hc (by decide)
  · rw [escapeChar_of_not_special hspecial, List.mem_singleton] at hd
    exact hspecial (hd ▸ hc)

theorem escape_eq_nil_iff {t : Text} : escape t = [] ↔ t = [] := by
  cases t with
  | nil => simp
  | cons c t =>
    by_cases h : c ∈ special
    · obtain ⟨name, heq, -⟩ := escapeChar_of_special h
      simp [escape_cons, heq]
    · simp [escape_cons, escapeChar_of_not_special h]

/-! ## Reading references -/

theorem unescape?_cons {c : Char} (h : c ≠ '&') (t : Text) :
    unescape? (c :: t) = (c :: ·) <$> unescape? t := by
  rw [unescape?, if_neg h]

/-- A reference is read up to its semicolon. -/
theorem unescape?_reference {name : Text} {c : Char} (hname : name.all inReference = true)
    (hc : reference? name = some c) (t : Text) :
    unescape? ('&' :: name ++ ';' :: t) = (c :: ·) <$> unescape? t := by
  have hall : ∀ d ∈ name, inReference d = true := List.all_eq_true.1 hname
  have htake : (name ++ ';' :: t).takeWhile inReference = name :=
    Text.takeWhile_append_stop hall rfl t
  have hdrop : (name ++ ';' :: t).dropWhile inReference = ';' :: t :=
    Text.dropWhile_append_stop hall rfl t
  rw [List.cons_append, unescape?, if_pos rfl, htake, hc]
  split
  · rename_i rest hrest
    obtain rfl : rest = t := (List.cons.inj (hrest.symm.trans hdrop)).2
    cases unescape? rest <;> rfl
  · rename_i hne
    exact absurd hdrop (hne t)

/-- What is written with references is read as it was. -/
theorem unescape?_escape (t : Text) : unescape? (escape t) = some t := by
  induction t with
  | nil => rw [escape_nil, unescape?]
  | cons c t ih =>
    rw [escape_cons]
    by_cases hspecial : c ∈ special
    · obtain ⟨name, heq, hname, hc, -⟩ := escapeChar_of_special hspecial
      rw [heq, List.append_assoc, List.singleton_append, unescape?_reference hname hc, ih]
      rfl
    · have hamp : c ≠ '&' := by
        rintro rfl
        exact hspecial (by decide)
      rw [escapeChar_of_not_special hspecial, List.singleton_append, unescape?_cons hamp, ih]
      rfl

/-! ## Blanks at the ends -/

namespace Markup

/-- The text without the blanks at its ends. -/
def trimBlanks (t : Text) : Text := Text.dropEndWhile isBlank (t.dropWhile isBlank)

theorem dropWhile_isBlank_append {gap : Text} (h : gap.all isBlank = true) (t : Text) :
    (gap ++ t).dropWhile isBlank = t.dropWhile isBlank :=
  List.dropWhile_append_of_pos (List.all_eq_true.1 h)

theorem dropEndWhile_isBlank_append {gap : Text} (h : gap.all isBlank = true) (t : Text) :
    Text.dropEndWhile isBlank (t ++ gap) = Text.dropEndWhile isBlank t := by
  rw [Text.dropEndWhile, List.reverse_append, dropWhile_isBlank_append (by simpa using h)]
  rfl

theorem trimBlanks_blank_append {gap : Text} (h : gap.all isBlank = true) (t : Text) :
    trimBlanks (gap ++ t) = trimBlanks t := by
  rw [trimBlanks, dropWhile_isBlank_append h, trimBlanks]

theorem trimBlanks_append_blank {gap : Text} (h : gap.all isBlank = true) (t : Text) :
    trimBlanks (t ++ gap) = trimBlanks t := by
  induction t with
  | nil =>
    have hgap := dropWhile_isBlank_append h []
    rw [List.append_nil] at hgap
    rw [List.nil_append, trimBlanks, trimBlanks, hgap]
  | cons c t ih =>
    by_cases hc : isBlank c = true
    · simpa [trimBlanks, hc] using ih
    · simp only [trimBlanks, List.cons_append, List.dropWhile_cons_of_neg hc]
      rw [← List.cons_append, dropEndWhile_isBlank_append h]

theorem trimBlanks_of_blank {t : Text} (h : t.all isBlank = true) : trimBlanks t = [] := by
  have := trimBlanks_append_blank h []
  rwa [List.nil_append] at this

/-- Blanks in front are dropped before or after characters are written out, if exactly the blanks are
written as themselves. -/
theorem dropWhile_isBlank_flatMap {f : Char → Text} (hblank : ∀ c, isBlank c = true → f c = [c])
    (hother : ∀ c, isBlank c = false → ∃ d r, f c = d :: r ∧ isBlank d = false) (t : Text) :
    (t.flatMap f).dropWhile isBlank = (t.dropWhile isBlank).flatMap f := by
  induction t with
  | nil => rfl
  | cons c t ih =>
    cases hc : isBlank c with
    | true => simp [List.flatMap_cons, hblank c hc, hc, ih]
    | false =>
      obtain ⟨d, r, hd, hdb⟩ := hother c hc
      simp [List.flatMap_cons, hd, hdb, hc]

theorem escapeChar_of_isBlank {c : Char} (h : isBlank c = true) : escapeChar c = [c] := by
  refine escapeChar_of_not_special fun hspecial => ?_
  have hnone : special.all (fun d => !isBlank d) = true := by decide
  have hc := List.all_eq_true.1 hnone c hspecial
  rw [h] at hc
  cases hc

/-- What another character is written as begins and ends with no blank. -/
theorem escapeChar_ends {c : Char} (h : isBlank c = false) :
    (∃ d r, escapeChar c = d :: r ∧ isBlank d = false) ∧
      ∃ d r, (escapeChar c).reverse = d :: r ∧ isBlank d = false := by
  by_cases hspecial : c ∈ special
  · obtain ⟨name, heq, -⟩ := escapeChar_of_special hspecial
    exact ⟨⟨'&', name ++ [';'], heq, by decide⟩, ⟨';', name.reverse ++ ['&'], by simp [heq], by decide⟩⟩
  · have heq := escapeChar_of_not_special hspecial
    exact ⟨⟨c, [], heq, h⟩, ⟨c, [], by rw [heq]; rfl, h⟩⟩

theorem trimBlanks_escape (t : Text) : trimBlanks (escape t) = escape (trimBlanks t) := by
  have hfront (s : Text) : (escape s).dropWhile isBlank = escape (s.dropWhile isBlank) :=
    dropWhile_isBlank_flatMap (fun c hc => escapeChar_of_isBlank hc)
      (fun c hc => (escapeChar_ends hc).1) s
  have hback (s : Text) : (escape s).reverse.dropWhile isBlank =
      (escape (s.reverse.dropWhile isBlank).reverse).reverse := by
    have hflat (u : Text) : (escape u.reverse).reverse = u.flatMap (List.reverse ∘ escapeChar) := by
      simp [escape, List.reverse_flatMap]
    rw [hflat, ← dropWhile_isBlank_flatMap, ← hflat, List.reverse_reverse]
    · exact fun c hc => by simp [escapeChar_of_isBlank hc]
    · exact fun c hc => (escapeChar_ends hc).2
  rw [trimBlanks, hfront, Text.dropEndWhile, hback, List.reverse_reverse]
  rfl

end Markup

end SeedChain.Xml
