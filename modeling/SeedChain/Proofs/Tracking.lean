import Mathlib.Data.List.Forall2
import Mathlib.Data.List.ReduceOption
import SeedChain.Proofs.Bytes.Utf8
import SeedChain.Proofs.Spans
/-!
# Spans follow the text

After a substitution the settled spans are those that it does not overlap, in the order in which they
were, moved along with the bytes they hold. They count bytes and need not begin or end between
characters; only the part that is replaced does, so that in bytes, too, a substitution keeps what stands
before it and behind it (`ofText_replaceIn`). Each difference that is taken when spans are moved is that
of a number and a smaller one (`shiftChecked?_eq`).

Main result: `settled_spans_tracked`.
-/

namespace SeedChain

theorem Bytes.length_ofText (t : Text) : (ofText t).length = Text.byteLength t := by
  induction t with
  | nil => rfl
  | cons c t ih =>
    rw [ofText_cons, List.length_append, ofChar_eq_utf8EncodeChar, String.length_utf8EncodeChar, ih,
      Text.byteLength]

namespace Span

variable {s replaced : Span} {t old : Text} {length : Nat}

/-- The bytes of a text that stand in a span. -/
def bytesIn (s : Span) (t : Text) : Bytes := ((Bytes.ofText t).take s.stop).drop s.start

/-- The span reaches into what is replaced, or around it. -/
def overlaps (s replaced : Span) : Bool := s.start < replaced.stop && replaced.start < s.stop

/-- A span overlaps what is replaced if they share a byte, or if something is put between two bytes of
the span. -/
theorem overlaps_iff (hs : s.start < s.stop) (hreplaced : replaced.start ≤ replaced.stop) :
    s.overlaps replaced = true ↔
      (∃ b, (s.start ≤ b ∧ b < s.stop) ∧ replaced.start ≤ b ∧ b < replaced.stop) ∨
        replaced.start = replaced.stop ∧ s.start < replaced.start ∧ replaced.start < s.stop := by
  simp only [overlaps, Bool.and_eq_true, decide_eq_true_eq]
  constructor
  · rintro ⟨hstart, hstop⟩
    rcases Nat.eq_or_lt_of_le hreplaced with heq | hlt
    · exact .inr ⟨heq, by omega, hstop⟩
    · exact .inl ⟨max s.start replaced.start, by omega, by omega⟩
  · rintro (⟨b, hb, hb'⟩ | ⟨heq, hstart, hstop⟩) <;> omega

theorem shift?_eq_none_iff : replaced.shift? length s = none ↔ s.overlaps replaced = true := by
  simp only [overlaps, Bool.and_eq_true, decide_eq_true_eq, shift?]
  split
  · simp only [reduceCtorEq, false_iff]
    omega
  · split
    · simp only [reduceCtorEq, false_iff]
      omega
    · simp only [true_iff]
      omega

/-! ## Differences -/

/-- The difference of two numbers, unless it is below zero. -/
def difference? (m n : Nat) : Option Nat := if n ≤ m then some (m - n) else none

/-- `shift?` with every difference checked: there is no result if one is below zero. -/
def shiftChecked? (replaced : Span) (length : Nat) (s : Span) : Option (Option Span) :=
  if s.stop ≤ replaced.start then some (some s)
  else if replaced.stop ≤ s.start then do
    let gap ← difference? s.start replaced.stop
    let start := gap + replaced.start + length
    let size ← difference? s.stop s.start
    some (some ⟨start, start + size⟩)
  else some none

theorem shiftChecked?_eq (hs : s.start ≤ s.stop) :
    replaced.shiftChecked? length s = some (replaced.shift? length s) := by
  unfold shiftChecked? shift?
  split
  · rfl
  · split
    · rename_i hbehind
      simp only [difference?, if_pos hbehind, if_pos hs, Option.bind_eq_bind, Option.bind_some]
    · rfl

theorem mapM_shiftChecked? {spans : List Span} (hspans : ∀ s ∈ spans, s.start ≤ s.stop) :
    spans.mapM (replaced.shiftChecked? length) = some (spans.map (replaced.shift? length)) := by
  induction spans with
  | nil => rfl
  | cons s spans ih =>
    rw [List.forall_mem_cons] at hspans
    rw [List.mapM_cons, shiftChecked?_eq hspans.1, ih hspans.2]
    rfl

/-! ## Bytes -/

theorem Covers.start_le_stop (h : replaced.Covers t old) : replaced.start ≤ replaced.stop := by
  obtain ⟨before, after, -, rfl⟩ := h
  exact Nat.le_add_right _ _

/-- In bytes, too, a substitution keeps what stands before it and behind it. -/
theorem Covers.ofText_replaceIn (h : replaced.Covers t old) (replacement : Text) :
    Bytes.ofText (replaced.replaceIn replacement t) =
      (Bytes.ofText t).take replaced.start ++ Bytes.ofText replacement ++
        (Bytes.ofText t).drop replaced.stop := by
  obtain ⟨before, after, rfl, rfl⟩ := h
  have hbefore : (Bytes.ofText (before ++ old ++ after)).take (Text.byteLength before) =
      Bytes.ofText before := by
    rw [List.append_assoc, Bytes.ofText_append, ← Bytes.length_ofText, List.take_left]
  have hafter : (Bytes.ofText (before ++ old ++ after)).drop (Text.byteLength (before ++ old)) =
      Bytes.ofText after := by
    rw [Bytes.ofText_append, ← Bytes.length_ofText, List.drop_left]
  rw [replaceIn_behind, behind, ← Text.byteLength_append, hbefore, hafter, Bytes.ofText_append,
    Bytes.ofText_append]

end Span

namespace Substitution

variable {s : Substitution} {σ τ : Span} {t old : Text}

theorem Carries.stop_le (h : s.Carries σ τ) (hs : s.span.Covers t old)
    (hσ : σ.stop ≤ Text.byteLength t) :
    τ.stop ≤ Text.byteLength (s.span.replaceIn s.replacement t) := by
  obtain ⟨before, after, rfl, hspan⟩ := hs
  rw [hspan, Span.replaceIn_behind]
  simp only [Text.byteLength_append] at hσ ⊢
  cases h with
  | before h =>
    simp only [hspan, Span.behind] at h
    omega
  | behind gap length =>
    simp only [hspan, Span.behind] at hσ ⊢
    omega

theorem Carries.length_eq (h : s.Carries σ τ) : τ.stop - τ.start = σ.stop - σ.start := by
  cases h with
  | before => rfl
  | behind gap length => rw [Nat.add_sub_cancel_left, Nat.add_sub_cancel_left]

/-- A span that is carried along holds the same bytes afterwards. -/
theorem Carries.bytesIn_eq (h : s.Carries σ τ) (hs : s.span.Covers t old) :
    τ.bytesIn (s.span.replaceIn s.replacement t) = σ.bytesIn t := by
  have hstop := hs.stop_le
  have hstart := hs.start_le_stop
  have hbefore : ((Bytes.ofText t).take s.span.start).length = s.span.start := by
    rw [List.length_take, Bytes.length_ofText]
    omega
  rw [Span.bytesIn, Span.bytesIn, hs.ofText_replaceIn]
  -- a span before the substitution ends in the beginning that is kept, one behind it begins in the rest
  cases h with
  | before h =>
    rw [List.append_assoc, List.take_append_of_le_length (hbefore.symm ▸ h), List.take_take,
      Nat.min_eq_left h]
  | behind gap length =>
    have hlength : ((Bytes.ofText t).take s.span.start ++ Bytes.ofText s.replacement).length =
        s.span.start + Text.byteLength s.replacement := by
      rw [List.length_append, hbefore, Bytes.length_ofText]
    rw [List.drop_take, List.drop_take, Nat.add_sub_cancel_left, Nat.add_sub_cancel_left, ← hlength,
      List.drop_length_add_append, List.drop_drop]

end Substitution

/-! ## Settled spans -/

theorem forall₂_filter_filterMap {α β : Type} {R : α → β → Prop} {p : α → Bool} {f : α → Option β}
    {l : List α} (hnone : ∀ a ∈ l, p a = false → f a = none)
    (hsome : ∀ a ∈ l, p a = true → ∃ b, f a = some b ∧ R a b) :
    List.Forall₂ R (l.filter p) (l.filterMap f) := by
  induction l with
  | nil => exact .nil
  | cons a l ih =>
    rw [List.forall_mem_cons] at hnone hsome
    have hrest := ih hnone.2 hsome.2
    cases ha : p a with
    | true =>
      obtain ⟨b, hb, hab⟩ := hsome.1 ha
      rw [List.filter_cons_of_pos ha, List.filterMap_cons_some hb]
      exact .cons hab hrest
    | false =>
      rw [List.filter_cons_of_neg (by simp [ha]), List.filterMap_cons_none (hnone.1 ha)]
      exact hrest

/-- After a substitution the settled spans are those that it does not overlap, in the same order. Each
is carried along with the text: it is as long as before, in bounds, and holds the same bytes, wherever
it begins and ends. No difference that is taken on the way is below zero. -/
theorem settled_spans_tracked {t old : Text} {replaced : Span} (hreplaced : replaced.Covers t old)
    (replacement : Text) {spans : List Span}
    (hspans : ∀ s ∈ spans, s.start < s.stop ∧ s.stop ≤ Text.byteLength t) :
    let substitution : Substitution := ⟨replaced, replacement⟩
    let p := Progress.substitute ⟨t, spans⟩ substitution
    Bytes.ofText p.text = (Bytes.ofText t).take replaced.start ++ Bytes.ofText replacement ++
      (Bytes.ofText t).drop replaced.stop ∧
    List.Forall₂ (fun s s' => substitution.Carries s s' ∧ s'.stop - s'.start = s.stop - s.start ∧
        s'.stop ≤ Text.byteLength p.text ∧ s'.bytesIn p.text = s.bytesIn t)
      (spans.filter fun s => !s.overlaps replaced) p.settled ∧
    (∀ s ∈ spans, s.overlaps replaced = true ↔
      (∃ b, (s.start ≤ b ∧ b < s.stop) ∧ replaced.start ≤ b ∧ b < replaced.stop) ∨
        replaced.start = replaced.stop ∧ s.start < replaced.start ∧ replaced.start < s.stop) ∧
    (spans.mapM (replaced.shiftChecked? (Text.byteLength replacement))).map List.reduceOption =
      some p.settled := by
  intro substitution p
  refine ⟨hreplaced.ofText_replaceIn replacement, ?_, ?_, ?_⟩
  · refine forall₂_filter_filterMap ?_ ?_
    · intro s _ hoverlaps
      exact Span.shift?_eq_none_iff.2 (by simpa using hoverlaps)
    · intro s hs hkept
      obtain ⟨hne, hbound⟩ := hspans s hs
      have hshift : replaced.shift? (Text.byteLength replacement) s ≠ none := by
        rw [ne_eq, Span.shift?_eq_none_iff]
        simpa using hkept
      obtain ⟨s', hs'⟩ := Option.ne_none_iff_exists'.1 hshift
      have hcarries : substitution.Carries s s' := Substitution.carries_of_shift? hne.le hs'
      exact ⟨s', hs', hcarries, hcarries.length_eq, hcarries.stop_le hreplaced hbound,
        hcarries.bytesIn_eq hreplaced⟩
  · intro s hs
    exact Span.overlaps_iff (hspans s hs).1 hreplaced.start_le_stop
  · rw [Span.mapM_shiftChecked? fun s hs => (hspans s hs).1.le, Option.map_some, List.reduceOption,
      List.filterMap_map]
    rfl

/-- Nothing takes the place of the brackets. The first span, the second half of a character, ends where
they begin, the third one begins where they end, and the others reach into them. -/
theorem settled_spans_tracked_touching :
    let t : Text := ['a', 'é', '[', 'x', ']', 'b', 'c']
    let spans : List Span := [⟨2, 3⟩, ⟨0, 4⟩, ⟨6, 8⟩, ⟨5, 7⟩]
    let p := Progress.substitute ⟨t, spans⟩ ⟨⟨3, 6⟩, []⟩
    Span.Covers ⟨3, 6⟩ t ['[', 'x', ']'] ∧
      (∀ s ∈ spans, s.start < s.stop ∧ s.stop ≤ Text.byteLength t) ∧
      p.text = ['a', 'é', 'b', 'c'] ∧ p.settled = [⟨2, 3⟩, ⟨3, 5⟩] ∧
      Span.bytesIn ⟨2, 3⟩ p.text = Span.bytesIn ⟨2, 3⟩ t ∧
      Span.bytesIn ⟨3, 5⟩ p.text = Span.bytesIn ⟨6, 8⟩ t ∧
      (spans.mapM (Span.shiftChecked? ⟨3, 6⟩ 0)).map List.reduceOption = some [⟨2, 3⟩, ⟨3, 5⟩] := by
  intro t spans p
  have hreplaced : Span.Covers ⟨3, 6⟩ t ['[', 'x', ']'] := ⟨['a', 'é'], ['b', 'c'], rfl, by decide⟩
  have hspans : ∀ s ∈ spans, s.start < s.stop ∧ s.stop ≤ Text.byteLength t := by decide
  obtain ⟨-, htracked, -, hchecked⟩ := settled_spans_tracked hreplaced [] hspans
  obtain ⟨hfirst, hthird⟩ := List.forall₂_cons.1 htracked
  exact ⟨hreplaced, hspans, by decide, by decide, hfirst.2.2.2, (List.forall₂_cons.1 hthird).1.2.2.2,
    hchecked⟩

end SeedChain
