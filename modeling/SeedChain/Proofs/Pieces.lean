import Mathlib.Data.List.TakeWhile
import Mathlib.Tactic.Common
import SeedChain.Text.Basic
/-!
# Cutting texts into pieces and joining them

A character that splits cuts a text in two wherever it stands (`splitWhen_append_cons`), and every other
one goes into the piece it stands in (`splitWhen_cons_of_neg`). The pieces and the characters between them
make up the text (`interleave_splitWhen`). No piece holds the mark that was split at
(`not_mem_of_mem_split`), and pieces without the mark that have been joined with it are found again
(`split_join`). A text read up to a character is cut at the first one that is none of those before it
(`takeWhile_append_stop`, `dropWhile_append_stop`).
-/

namespace SeedChain.Text

variable {p : Char → Bool} {c d : Char} {separator piece t : Text} {pieces : List Text}

/-! ## Cutting -/

theorem splitWhen_ne_nil (p : Char → Bool) (t : Text) : splitWhen p t ≠ [] := by
  induction t with
  | nil => exact List.cons_ne_nil _ _
  | cons c t ih =>
    rw [splitWhen]
    split
    · exact List.cons_ne_nil _ _
    · split <;> exact List.cons_ne_nil _ _

/-- A character that does not split goes into the first piece. -/
theorem splitWhen_cons_of_neg (hc : p c = false) (t : Text) :
    splitWhen p (c :: t) = (splitWhen p t).modifyHead (c :: ·) := by
  obtain ⟨piece, pieces, hsplit⟩ := List.exists_cons_of_ne_nil (splitWhen_ne_nil p t)
  simp [splitWhen, hc, hsplit]

theorem splitWhen_of_forall_neg (h : ∀ c, p c = false) (t : Text) : splitWhen p t = [t] := by
  induction t with
  | nil => rfl
  | cons c t ih => rw [splitWhen_cons_of_neg (h c), ih, List.modifyHead_cons]

theorem splitWhen_append_of_forall_neg {s : Text} (hs : ∀ c ∈ s, p c = false) (t : Text) :
    splitWhen p (s ++ t) = (splitWhen p t).modifyHead (s ++ ·) := by
  obtain ⟨piece, pieces, hsplit⟩ := List.exists_cons_of_ne_nil (splitWhen_ne_nil p t)
  induction s with
  | nil => simp [hsplit]
  | cons c s ih =>
    rw [List.cons_append, splitWhen_cons_of_neg (hs c List.mem_cons_self),
      ih fun d hd => hs d (List.mem_cons_of_mem _ hd), hsplit]
    rfl

/-- A character that splits cuts the text in two. -/
theorem splitWhen_append_cons (hc : p c = true) (s t : Text) :
    splitWhen p (s ++ c :: t) = splitWhen p s ++ splitWhen p t := by
  induction s with
  | nil => simp [splitWhen, hc]
  | cons d s ih =>
    cases hd : p d with
    | true => simp only [List.cons_append, splitWhen, hd, if_true, ih]
    | false =>
      obtain ⟨piece, pieces, hsplit⟩ := List.exists_cons_of_ne_nil (splitWhen_ne_nil p s)
      rw [List.cons_append, splitWhen_cons_of_neg hd, splitWhen_cons_of_neg hd, ih, hsplit]
      rfl

/-- The pieces with marks between neighbours, in order. -/
def interleave : List Text → Text → Text
  | piece :: pieces, c :: marks => piece ++ c :: interleave pieces marks
  | pieces, _ => pieces.flatten

/-- The pieces and the characters that split say what the text is. -/
theorem interleave_splitWhen (p : Char → Bool) (t : Text) :
    interleave (splitWhen p t) (t.filter p) = t := by
  induction t with
  | nil => rfl
  | cons c t ih =>
    cases hc : p c with
    | true => simp [splitWhen, hc, interleave, ih]
    | false =>
      obtain ⟨piece, pieces, hsplit⟩ := List.exists_cons_of_ne_nil (splitWhen_ne_nil p t)
      rw [hsplit] at ih
      rw [splitWhen_cons_of_neg hc, hsplit, List.modifyHead_cons, List.filter_cons_of_neg (by simp [hc])]
      nth_rewrite 2 [← ih]
      cases t.filter p <;> rfl

theorem split_append (d : Char) (s t : Text) : split d (s ++ d :: t) = split d s ++ split d t :=
  splitWhen_append_cons (p := (· == d)) (beq_self_eq_true d) s t

theorem split_of_not_mem (h : d ∉ t) : split d t = [t] := by
  unfold split
  induction t with
  | nil => rfl
  | cons c t ih =>
    simp only [List.mem_cons, not_or] at h
    rw [splitWhen, if_neg (by simpa using Ne.symm h.1), ih h.2]

theorem not_mem_of_mem_split (h : piece ∈ split d t) : d ∉ piece := by
  unfold split at h
  induction t generalizing piece with
  | nil =>
    rw [List.mem_singleton.1 h]
    exact List.not_mem_nil
  | cons c t ih =>
    obtain ⟨first, pieces, hsplit⟩ := List.exists_cons_of_ne_nil (splitWhen_ne_nil (· == d) t)
    rw [hsplit] at ih
    cases hc : c == d with
    | true =>
      simp only [splitWhen, hc, if_true, hsplit] at h
      rcases List.mem_cons.1 h with rfl | h
      · exact List.not_mem_nil
      · exact ih h
    | false =>
      rw [splitWhen_cons_of_neg (p := (· == d)) hc, hsplit, List.modifyHead_cons] at h
      rcases List.mem_cons.1 h with rfl | h
      · rw [List.mem_cons, not_or]
        exact ⟨fun heq => ne_of_beq_false hc heq.symm, ih List.mem_cons_self⟩
      · exact ih (List.mem_cons_of_mem _ h)

theorem takeWhile_append_stop (h : ∀ d ∈ piece, p d = true) (hc : p c = false) (t : Text) :
    (piece ++ c :: t).takeWhile p = piece := by
  rw [List.takeWhile_append_of_pos h, List.takeWhile_cons_of_neg (by simp [hc]), List.append_nil]

theorem dropWhile_append_stop (h : ∀ d ∈ piece, p d = true) (hc : p c = false) (t : Text) :
    (piece ++ c :: t).dropWhile p = c :: t := by
  rw [List.dropWhile_append_of_pos h, List.dropWhile_cons_of_neg (by simp [hc])]

/-! ## Joining -/

theorem mem_join (h : c ∈ join separator pieces) : c ∈ separator ∨ ∃ p ∈ pieces, c ∈ p := by
  induction pieces with
  | nil => cases h
  | cons p pieces ih =>
    rw [join_cons, List.mem_append] at h
    rcases h with h | h
    · exact .inr ⟨p, by simp, h⟩
    · split at h
      · cases h
      · rcases List.mem_append.1 h with h | h
        · exact .inl h
        · exact (ih h).imp_right fun ⟨q, hq, hc⟩ => ⟨q, List.mem_cons_of_mem _ hq, hc⟩

theorem subset_join (separator : Text) (h : piece ∈ pieces) : piece ⊆ join separator pieces := by
  induction pieces with
  | nil => cases h
  | cons q pieces ih =>
    rw [join_cons]
    intro c hc
    rcases List.mem_cons.1 h with rfl | h
    · exact List.mem_append_left _ hc
    · rw [if_neg (List.ne_nil_of_mem h)]
      exact List.mem_append_right _ (List.mem_append_right _ (ih h hc))

/-- Pieces without the mark between them are found again. -/
theorem split_join (hne : pieces ≠ []) (h : ∀ p ∈ pieces, d ∉ p) :
    split d (join [d] pieces) = pieces := by
  induction pieces with
  | nil => exact absurd rfl hne
  | cons p pieces ih =>
    have hp := split_of_not_mem (h p List.mem_cons_self)
    rw [join_cons]
    split
    · rename_i hnil
      rw [List.append_nil, hp, hnil]
    · rename_i hcons
      rw [List.singleton_append, split_append, hp, List.singleton_append,
        ih hcons fun q hq => h q (List.mem_cons_of_mem _ hq)]

end SeedChain.Text
