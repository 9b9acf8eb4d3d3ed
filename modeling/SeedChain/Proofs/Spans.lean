import Mathlib.Data.List.Sort
import Mathlib.Tactic.Common
import SeedChain.Evaluator.Basic
/-!
# Parts of a text

A span counts bytes, a text is a list of characters, and an offset between two characters is the
length of what stands before it. `Span.Covers` says that a span begins and ends between characters
and what stands there. A substitution that does not overlap a part carries it along
(`Substitution.Carries`), and what the part holds stays the same (`Carries.covers`).
-/

namespace SeedChain

namespace Text

theorem byteLength_pos {t : Text} (h : t ≠ []) : 0 < byteLength t := by
  cases t with
  | nil => exact absurd rfl h
  | cons c t => exact Nat.add_pos_left c.utf8Size_pos _

theorem eq_nil_of_byteLength {t : Text} (h : byteLength t = 0) : t = [] := by
  by_contra hne
  exact Nat.ne_of_gt (byteLength_pos hne) h

/-- Of two leading parts of one text, the one with fewer bytes leads the other. -/
theorem exists_eq_append_of_byteLength_le {x u y v : Text} (h : x ++ u = y ++ v)
    (hle : byteLength x ≤ byteLength y) : ∃ w, y = x ++ w ∧ u = w ++ v := by
  rcases List.append_eq_append_iff.1 h with ⟨w, hy, hu⟩ | ⟨w, hx, hv⟩
  · exact ⟨w, hy, hu⟩
  · have hw : w = [] := by
      apply eq_nil_of_byteLength
      rw [hx, byteLength_append] at hle
      omega
    subst hw
    exact ⟨[], by simpa using hx.symm, by simpa using hv.symm⟩

/-- A part that begins inside another one begins behind a leading part of it. -/
theorem exists_eq_append_of_begins_inside {b m a b' m' a' : Text}
    (h : b ++ m ++ a = b' ++ m' ++ a') (hafter : byteLength b < byteLength b')
    (hinside : byteLength b' < byteLength b + byteLength m) :
    ∃ w z, w ≠ [] ∧ z ≠ [] ∧ b' = b ++ w ∧ m = w ++ z ∧ m' ++ a' = z ++ a := by
  rw [List.append_assoc, List.append_assoc] at h
  obtain ⟨w, rfl, hbehind⟩ := exists_eq_append_of_byteLength_le h (Nat.le_of_lt hafter)
  rw [byteLength_append] at hafter hinside
  obtain ⟨z, rfl, hz⟩ := exists_eq_append_of_byteLength_le hbehind.symm (by omega)
  rw [byteLength_append] at hinside
  refine ⟨w, z, ?_, ?_, rfl, rfl, hz⟩
  · rintro rfl
    simp [byteLength] at hafter
  · rintro rfl
    simp [byteLength] at hinside

end Text

namespace Span

/-- The span that a part takes up behind another one. -/
def behind (before part : Text) : Span :=
  ⟨Text.byteLength before, Text.byteLength before + Text.byteLength part⟩

/-- The span begins and ends between characters of the text, and `part` stands there. -/
def Covers (s : Span) (t part : Text) : Prop :=
  ∃ before after, t = before ++ part ++ after ∧ s = behind before part

@[simp]
theorem within_iff {s t : Span} : s.within t = true ↔ t.start ≤ s.start ∧ s.stop ≤ t.stop := by
  simp [within]

theorem within_self (s : Span) : s.within s = true := by simp

theorem within_trans {s t u : Span} (hst : s.within t = true) (htu : t.within u = true) :
    s.within u = true := by
  rw [within_iff] at *
  omega

theorem slice_behind (before part after : Text) :
    (behind before part).slice (before ++ part ++ after) = part := by
  simp only [slice, behind, Nat.add_sub_cancel_left, List.append_assoc, Text.dropBytes_append,
    Text.takeBytes_append]

theorem replaceIn_behind (before part after replacement : Text) :
    (behind before part).replaceIn replacement (before ++ part ++ after) =
      before ++ replacement ++ after := by
  have hdrop := Text.dropBytes_append (before ++ part) after
  rw [Text.byteLength_append] at hdrop
  have htake := Text.takeBytes_append before (part ++ after)
  rw [← List.append_assoc] at htake
  simp only [replaceIn, behind, hdrop, htake]

namespace Covers

variable {s r : Span} {t part old : Text}

theorem slice_eq (h : s.Covers t part) : s.slice t = part := by
  obtain ⟨before, after, rfl, rfl⟩ := h
  exact slice_behind before part after

theorem start_lt_stop (h : s.Covers t part) (hne : part ≠ []) : s.start < s.stop := by
  obtain ⟨before, after, rfl, rfl⟩ := h
  have := Text.byteLength_pos hne
  simp only [behind]
  omega

theorem stop_le (h : s.Covers t part) : s.stop ≤ Text.byteLength t := by
  obtain ⟨before, after, rfl, rfl⟩ := h
  simp [behind]

end Covers

end Span

/-- The substitution does not overlap a part of the text that stands at the first span, and
afterwards the part stands at the second one. -/
inductive Substitution.Carries (s : Substitution) : Span → Span → Prop
  /-- A part before the substitution stays where it is. -/
  | before {σ : Span} (h : σ.stop ≤ s.span.start) : s.Carries σ σ
  /-- A part behind it keeps its distance from the end of it. -/
  | behind (gap length : Nat) :
    s.Carries ⟨s.span.stop + gap, s.span.stop + gap + length⟩
      ⟨s.span.start + Text.byteLength s.replacement + gap,
        s.span.start + Text.byteLength s.replacement + gap + length⟩

namespace Substitution

variable {s : Substitution} {σ τ : Span} {t part old : Text}

/-- Shifting finds the place to which a part is carried. -/
theorem Carries.shift? (h : s.Carries σ τ) (hσ : σ.start < σ.stop)
    (hs : s.span.start < s.span.stop) :
    s.span.shift? (Text.byteLength s.replacement) σ = some τ := by
  cases h with
  | before h => simp [Span.shift?, h]
  | behind gap length =>
    have hnot : ¬ s.span.stop + gap + length ≤ s.span.start := by omega
    simp only [Span.shift?, hnot, if_false, Nat.le_add_right, if_true, Option.some.injEq,
      Span.mk.injEq]
    omega

/-- What shifting keeps has been carried. -/
theorem carries_of_shift? (hσ : σ.start ≤ σ.stop)
    (h : s.span.shift? (Text.byteLength s.replacement) σ = some τ) : s.Carries σ τ := by
  unfold Span.shift? at h
  split at h
  · cases h
    exact .before ‹_›
  · split at h
    · rename_i _ hle
      obtain ⟨gap, hgap⟩ := Nat.exists_eq_add_of_le hle
      obtain ⟨length, hlength⟩ := Nat.exists_eq_add_of_le hσ
      have hbehind := Carries.behind (s := s) gap length
      convert hbehind using 1
      · cases σ
        simp_all
      · cases h
        simp only [Span.mk.injEq]
        omega
    · cases h

/-- A part that is carried along holds the same characters afterwards. -/
theorem Carries.covers (h : s.Carries σ τ) (hσ : σ.Covers t part) (hs : s.span.Covers t old) :
    τ.Covers (s.span.replaceIn s.replacement t) part := by
  obtain ⟨before, after, ht, hspan⟩ := hs
  rw [hspan, ht, Span.replaceIn_behind]
  obtain ⟨left, right, ht', rfl⟩ := hσ
  rw [ht] at ht'
  -- the part lies before the substitution or behind it, so one of the two cuts is inside the other
  generalize hg : Span.behind left part = σ at h
  cases h with
  | before h =>
    rw [← hg, hspan] at h
    obtain ⟨w, hb, -⟩ := Text.exists_eq_append_of_byteLength_le (x := left ++ part) (u := right)
      (y := before) (v := old ++ after) (by simpa using ht'.symm) (by simpa [Span.behind] using h)
    subst hb
    exact ⟨left, w ++ s.replacement ++ after, by simp, hg.symm⟩
  | behind gap length =>
    simp only [Span.behind, Span.mk.injEq, hspan] at hg
    obtain ⟨w, hw, hafter⟩ := Text.exists_eq_append_of_byteLength_le (x := before ++ old)
      (u := after) (y := left) (v := part ++ right) (by simpa using ht')
      (by rw [Text.byteLength_append]; omega)
    subst hw
    refine ⟨before ++ s.replacement ++ w, right, by simp [hafter], ?_⟩
    simp only [Span.behind, Text.byteLength_append, Span.mk.injEq, hspan] at hg ⊢
    omega

end Substitution

end SeedChain
