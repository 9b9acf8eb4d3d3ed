import Mathlib.Data.List.Basic
import Mathlib.Data.List.TakeWhile
import SeedChain.Proofs.Pieces
import SeedChain.Properties.Basic
/-!
# Lines with content

The lines of a document are trimmed, and those without content are left out. So it makes no difference
whether a line ends with a line feed alone or with a carriage return before it (`contentLines_eq`), and a
line feed cuts the lines with content in two wherever it stands (`contentLines_append`). Texts joined by
line feeds have the lines of each of them (`contentLines_join`), and what is on a line with content is
read from it as it stands (`contentLines_of_isContent`).
-/

namespace SeedChain

namespace Text

variable {t : Text} {c : Char}

/-! ## Trimmed texts -/

theorem trimEnd_begins (t : Text) : trimEnd t <+: t := by
  rw [trimEnd, dropEndWhile, ← List.reverse_suffix, List.reverse_reverse]
  exact List.dropWhile_suffix _

theorem head?_trim_not_white (t : Text) : ∀ c ∈ (trim t).head?, isWhite c = false := by
  intro c hc
  have hstart := List.head?_dropWhile_not isWhite t
  obtain ⟨behind, hbehind⟩ := trimEnd_begins (trimStart t)
  rw [show t.dropWhile isWhite = trimStart t from rfl, ← hbehind, List.head?_append,
    show (trimEnd (trimStart t)).head? = some c from hc] at hstart
  exact hstart

theorem getLast?_trim_not_white (t : Text) : ∀ c ∈ (trim t).getLast?, isWhite c = false := by
  intro c hc
  have hend := List.head?_dropWhile_not isWhite (trimStart t).reverse
  rw [← List.getLast?_reverse, show ((trimStart t).reverse.dropWhile isWhite).reverse = trim t from rfl,
    show (trim t).getLast? = some c from hc] at hend
  exact hend

theorem trim_trim (t : Text) : (trim t).trim = trim t :=
  trim_of_ends (head?_trim_not_white t) (getLast?_trim_not_white t)

theorem trim_subset (t : Text) : trim t ⊆ t :=
  fun _ hc => (List.dropWhile_sublist _).subset ((trimEnd_begins _).subset hc)

theorem length_trim_le (t : Text) : t.trim.length ≤ t.length :=
  (trimEnd_begins _).length_le.trans (length_trimStart_le t)

theorem trim_cons (hc : isWhite c = false) (t : Text) : trim (c :: t) = c :: t.trimEnd := by
  have hstart : trimStart (c :: t) = c :: t := List.dropWhile_cons_of_neg (by simp [hc])
  rw [trim, hstart, trimEnd, trimEnd, dropEndWhile, dropEndWhile, List.reverse_cons,
    List.dropWhile_append]
  split
  · rename_i hblank
    rw [List.dropWhile_cons_of_neg (by simp [hc]), List.isEmpty_iff.1 hblank]
    rfl
  · rw [List.reverse_append]
    rfl

/-- A text that begins with something visible still does when it is trimmed. -/
theorem head?_trim_cons (hc : isWhite c = false) (t : Text) : (trim (c :: t)).head? = some c := by
  rw [trim_cons hc, List.head?_cons]

theorem trim_concat (hc : isWhite c = true) (t : Text) : trim (t ++ [c]) = trim t := by
  rw [trim, trim, trimStart, trimStart, List.dropWhile_append]
  split
  · rename_i hnil
    rw [List.dropWhile_cons_of_pos hc, List.isEmpty_iff.1 hnil, List.dropWhile_nil]
  · rw [trimEnd, trimEnd, dropEndWhile, dropEndWhile, List.reverse_concat,
      List.dropWhile_cons_of_pos hc]

/-- A text that stands on a line as it is: it holds no line feed, and has no blanks around it. -/
structure OnLine (t : Text) : Prop where
  trim_eq : t.trim = t
  no_lineFeed : '\n' ∉ t

theorem onLine_nil : OnLine [] := ⟨rfl, List.not_mem_nil⟩

theorem onLine_trim (h : '\n' ∉ t) : OnLine t.trim :=
  ⟨trim_trim t, fun hmem => h (trim_subset t hmem)⟩

theorem OnLine.head?_not_white (h : OnLine t) : ∀ c ∈ t.head?, isWhite c = false :=
  h.trim_eq ▸ head?_trim_not_white t

theorem OnLine.getLast?_not_white (h : OnLine t) : ∀ c ∈ t.getLast?, isWhite c = false :=
  h.trim_eq ▸ getLast?_trim_not_white t

theorem eq_of_isSuffixOf? {s t r : Text} (h : s.isSuffixOf? t = some r) : t = r ++ s := by
  obtain ⟨u, hu, rfl⟩ := Option.map_eq_some_iff.1
    (show (s.reverse.isPrefixOf? t.reverse).map List.reverse = some r from h)
  rw [← List.reverse_reverse t, eq_of_isPrefixOf? hu, List.reverse_append, List.reverse_reverse]

/-- A carriage return at the end is a blank like any other. -/
theorem trim_withoutReturn (line : Text) :
    trim ((['\r'].isSuffixOf? line).getD line) = trim line := by
  cases h : (['\r'] : Text).isSuffixOf? line with
  | none => rfl
  | some r =>
    rw [eq_of_isSuffixOf? h, trim_concat (by decide)]
    rfl

end Text

namespace Properties

open Text (OnLine)

variable {marks : List Char} {line t : Text}

/-- A line with content, as it is read: it stands on a line, is not blank, and begins with none of some
characters. -/
structure IsContent (marks : List Char) (line : Text) : Prop extends OnLine line where
  visible : isComment marks line = false

theorem contentLines_eq (marks : List Char) (t : Text) :
    contentLines marks t =
      ((Text.split '\n' t).map Text.trim).filter fun line => !isComment marks line := by
  obtain ⟨ended, last, hpieces⟩ := (List.eq_nil_or_concat' (Text.split '\n' t)).resolve_left
    (Text.splitWhen_ne_nil _ t)
  have hended : (ended.map fun line => (['\r'].isSuffixOf? line).getD line).map Text.trim =
      ended.map Text.trim := by
    rw [List.map_map]
    exact List.map_congr_left fun line _ => Text.trim_withoutReturn line
  have hlines : t.lines = ended.map (fun line => (['\r'].isSuffixOf? line).getD line) ++
      if last = [] then [] else [last] := by
    simp only [Text.lines, hpieces, List.dropLast_concat, List.getLastD_concat]
    split
    · rw [List.append_nil]
    · rfl
  rw [contentLines, hlines, hpieces, List.map_append, List.map_append, hended, List.filter_append,
    List.filter_append]
  -- behind the last line feed there may be nothing, and a line without anything is left out
  split
  · rename_i hlast
    rw [hlast]
    rfl
  · rfl

/-- A line feed cuts the lines with content in two. -/
theorem contentLines_append (marks : List Char) (s t : Text) :
    contentLines marks (s ++ '\n' :: t) = contentLines marks s ++ contentLines marks t := by
  simp only [contentLines_eq, Text.split_append, List.map_append, List.filter_append]

/-- Texts with line feeds between them have the lines of each of them. -/
theorem contentLines_join (marks : List Char) {separator : Text}
    (hseparator : separator = ['\n'] ∨ separator = ['\n', '\n']) (pieces : List Text) :
    contentLines marks (Text.join separator pieces) = pieces.flatMap (contentLines marks) := by
  have hcut (s t : Text) :
      contentLines marks (s ++ (separator ++ t)) = contentLines marks s ++ contentLines marks t := by
    rcases hseparator with rfl | rfl
    · exact contentLines_append marks s t
    · exact (contentLines_append marks s ('\n' :: t)).trans
        (congrArg _ (contentLines_append marks [] t))
  induction pieces with
  | nil => rfl
  | cons p pieces ih =>
    rw [Text.join_cons, List.flatMap_cons]
    split
    · rename_i hnil
      rw [hnil, List.append_nil, List.flatMap_nil, List.append_nil]
    · rw [hcut, ih]

theorem contentLines_of_isContent (h : IsContent marks line) : contentLines marks line = [line] := by
  rw [contentLines_eq, Text.split_of_not_mem h.no_lineFeed, List.map_singleton, h.trim_eq,
    List.filter_cons_of_pos (by simp [h.visible]), List.filter_nil]

theorem isContent_of_mem_contentLines (h : line ∈ contentLines marks t) : IsContent marks line := by
  rw [contentLines_eq, List.mem_filter, List.mem_map] at h
  obtain ⟨⟨piece, hpiece, rfl⟩, hvisible⟩ := h
  exact { Text.onLine_trim (Text.not_mem_of_mem_split hpiece) with visible := by simpa using hvisible }

end Properties

end SeedChain
