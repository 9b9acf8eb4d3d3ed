import SeedChain.Operation.Table
import SeedChain.Proofs.Bytes.Utf8
/-!
# Texts cut at markers

A marker that occurs in a text cuts it at the first place where it stands: no occurrence begins earlier,
not even one that overlaps the one that is found (`not_infix_of_cut?`), and every other one has the text
before the first one in front of it (`prefix_of_cut?`). In bytes there are no further places: where the
bytes of the marker stand, the marker stands.

Main result: `markers_cut_at_first`.
-/

namespace SeedChain.Text

variable {marker opening closing t before after : Text}

/-! ## The first occurrence -/

theorem cut?_eq_none_iff : cut? marker t = none ↔ ¬ marker <:+: t := by
  induction t with
  | nil =>
    rw [cut?, List.infix_nil, ← List.prefix_nil, ← isPrefixOf?_eq_none_iff]
    cases marker.isPrefixOf? [] <;> simp
  | cons c t ih =>
    rw [cut?, List.infix_cons_iff, not_or, ← isPrefixOf?_eq_none_iff, ← ih]
    cases marker.isPrefixOf? (c :: t) <;> simp

theorem exists_cut? (h : marker <:+: t) : ∃ before after, cut? marker t = some (before, after) := by
  cases hcut : cut? marker t with
  | none => exact absurd h (cut?_eq_none_iff.1 hcut)
  | some parts => exact ⟨parts.1, parts.2, rfl⟩

/-- No occurrence ends before the one that is found does. -/
theorem not_infix_of_cut? (hne : marker ≠ []) (h : cut? marker t = some (before, after)) :
    ¬ marker <:+: before ++ marker.dropLast := by
  induction t generalizing before with
  | nil =>
    have hnil := congrArg List.length (eq_of_cut? h)
    have hpos := List.length_pos_iff.2 hne
    simp only [List.length_nil, List.length_append] at hnil
    omega
  | cons c t ih =>
    have htext := eq_of_cut? h
    rw [cut?] at h
    split at h
    · obtain ⟨rfl, -⟩ := Prod.mk.inj (Option.some.inj h)
      intro hinfix
      have hlength := hinfix.length_le
      have hpos := List.length_pos_iff.2 hne
      simp only [List.nil_append, List.length_dropLast] at hlength
      omega
    · rename_i hprefix
      obtain ⟨⟨rest, _⟩, hcut, heq⟩ := Option.map_eq_some_iff.1 h
      obtain ⟨rfl, rfl⟩ := Prod.mk.inj heq
      rw [List.cons_append, List.infix_cons_iff]
      rintro (hbegins | hinside)
      · -- the text itself begins with the marker then
        refine isPrefixOf?_eq_none_iff.1 hprefix (hbegins.trans ?_)
        rw [htext, List.cons_append, List.cons_append, List.cons_prefix_cons, List.append_assoc,
          List.prefix_append_right_inj]
        exact ⟨rfl, (List.dropLast_prefix marker).trans (List.prefix_append _ _)⟩
      · exact ih hcut hinside

/-- What stands before the first occurrence stands before every occurrence. -/
theorem prefix_of_cut? (hne : marker ≠ []) (h : cut? marker t = some (before, after)) {b a : Text}
    (ht : t = b ++ marker ++ a) : before <+: b := by
  have htext := eq_of_cut? h
  have hbegins : before ++ marker.dropLast <+: t := by
    rw [htext, List.append_assoc, List.prefix_append_right_inj]
    exact (List.dropLast_prefix marker).trans (List.prefix_append _ _)
  have hother : b ++ marker <+: t := ⟨a, ht.symm⟩
  have hbefore : before <+: t := ⟨marker ++ after, by simp [htext]⟩
  have hb : b <+: t := ⟨marker ++ a, by simp [ht]⟩
  refine List.prefix_of_prefix_length_le hbefore hb ?_
  by_contra hshort
  refine not_infix_of_cut? hne h ((List.suffix_append b marker).isInfix.trans
    (List.prefix_of_prefix_length_le hother hbegins ?_).isInfix)
  have hpos := List.length_pos_iff.2 hne
  simp only [List.length_append, List.length_dropLast]
  omega

/-! ## The operations -/

theorem before_of_cut? (hne : marker ≠ []) (h : cut? marker t = some (before, after)) :
    Text.before marker t = before := by
  simp [Text.before, hne, h]

theorem after_of_cut? (hne : marker ≠ []) (h : cut? marker t = some (before, after)) :
    Text.after marker t = after := by
  simp [Text.after, hne, h]

theorem before_of_absent (h : ¬ marker <:+: t) : Text.before marker t = t := by
  have hne : marker ≠ [] := by
    rintro rfl
    exact h List.nil_infix
  simp [Text.before, hne, cut?_eq_none_iff.2 h]

theorem after_of_absent (h : ¬ marker <:+: t) : Text.after marker t = [] := by
  have hne : marker ≠ [] := by
    rintro rfl
    exact h List.nil_infix
  simp [Text.after, hne, cut?_eq_none_iff.2 h]

theorem isSome_between?_iff (hopening : opening ≠ []) :
    (between? opening closing t).isSome = true ↔
      opening <:+: t ∧ closing <:+: Text.after opening t := by
  by_cases ho : opening <:+: t
  · obtain ⟨before, rest, hcut⟩ := exists_cut? ho
    rw [after_of_cut? hopening hcut]
    by_cases hc : closing <:+: rest
    · obtain ⟨inner, behind, hinner⟩ := exists_cut? hc
      simp [between?, hcut, hinner, ho, hc]
    · simp [between?, hcut, cut?_eq_none_iff.2 hc, hc]
  · simp [between?, cut?_eq_none_iff.2 ho, ho]

theorem eq_before_of_between? (hopening : opening ≠ []) (hclosing : closing ≠ []) {inner : Text}
    (h : between? opening closing t = some inner) :
    Text.before closing (Text.after opening t) = inner := by
  simp only [between?, Option.bind_eq_bind, Option.bind_eq_some_iff, Option.pure_def,
    Option.some.injEq] at h
  obtain ⟨⟨before, rest⟩, hcut, ⟨inner, behind⟩, hinner, rfl⟩ := h
  rw [after_of_cut? hopening hcut]
  exact before_of_cut? hclosing hinner

/-- `before` and `after` cut a text at the first occurrence of a marker, which is also the first place
where the bytes of the marker stand, and no such place parts a character. `between` cuts at the first
closing marker behind the first opening one, which stands for a closing one that is left out. -/
theorem markers_cut_at_first (hopening : opening ≠ []) (hclosing : closing ≠ []) (t : Text)
    (delimiter : Char) (store : Store) :
    ∃ before after : Text, ∃ inner : Option Text,
      (Value.text t).invoke delimiter "before".toList [opening] store = (goOn (.text before), store) ∧
      (Value.text t).invoke delimiter "after".toList [opening] store = (goOn (.text after), store) ∧
      (Value.text t).invoke delimiter "between".toList [opening, closing] store =
        (goOnIf (inner.map .text), store) ∧
      (Value.text t).invoke delimiter "between".toList [opening] store =
        (Value.text t).invoke delimiter "between".toList [opening, opening] store ∧
      (opening <:+: t → before ++ opening ++ after = t ∧ ¬ opening <:+: before ++ opening.dropLast) ∧
      (¬ opening <:+: t → before = t ∧ after = []) ∧
      (inner.isSome = true ↔ opening <:+: t ∧ closing <:+: after) ∧
      (∀ v ∈ inner, (Value.text after).invoke delimiter "before".toList [closing] store =
        (goOn (.text v), store)) ∧
      ∀ p s, Bytes.ofText t = p ++ Bytes.ofText opening ++ s →
        Bytes.ofText before <+: p ∧
          ∃ b a, t = b ++ opening ++ a ∧ Bytes.ofText b = p ∧ Bytes.ofText a = s := by
  refine ⟨Text.before opening t, Text.after opening t, between? opening closing t, rfl, rfl, rfl, rfl,
    ?_, ?_, isSome_between?_iff hopening, ?_, ?_⟩
  · intro h
    obtain ⟨before, after, hcut⟩ := exists_cut? h
    rw [before_of_cut? hopening hcut, after_of_cut? hopening hcut]
    exact ⟨(eq_of_cut? hcut).symm, not_infix_of_cut? hopening hcut⟩
  · intro h
    exact ⟨before_of_absent h, after_of_absent h⟩
  · intro v hv
    rw [← eq_before_of_between? hopening hclosing hv]
    rfl
  · intro p s h
    obtain ⟨b, a, ht, rfl, rfl⟩ := Bytes.exists_cut_of_ofText hopening h
    obtain ⟨before, after, hcut⟩ := exists_cut? (t := t) ⟨b, a, ht.symm⟩
    rw [before_of_cut? hopening hcut]
    obtain ⟨rest, rfl⟩ := prefix_of_cut? hopening hcut ht
    exact ⟨⟨Bytes.ofText rest, (Bytes.ofText_append before rest).symm⟩, _, a, ht, rfl, rfl⟩

/-- A marker of characters of two bytes that overlaps itself. -/
theorem markers_cut_at_first_overlapping :
    let opening : Text := ['é', 'é']
    let t : Text := ['x', 'é', 'é', 'é', ',']
    opening ≠ [] ∧ [','] ≠ ([] : Text) ∧ opening <:+: t ∧ ¬ opening <:+: ['x'] ++ opening.dropLast ∧
    (Value.text t).invoke ',' "before".toList [opening] [] = (goOn (.text ['x']), []) ∧
    (Value.text t).invoke ',' "after".toList [opening] [] = (goOn (.text ['é', ',']), []) ∧
    (Value.text t).invoke ',' "between".toList [opening, [',']] [] = (goOn (.text ['é']), []) ∧
    ∀ p s, Bytes.ofText t = p ++ Bytes.ofText opening ++ s → Bytes.ofText ['x'] <+: p := by
  intro opening t
  have hopening : opening ≠ [] := List.cons_ne_nil _ _
  have hclosing : [','] ≠ ([] : Text) := List.cons_ne_nil _ _
  have hbefore : (Value.text t).invoke ',' "before".toList [opening] [] = (goOn (.text ['x']), []) := by
    rfl
  have hafter : (Value.text t).invoke ',' "after".toList [opening] [] =
      (goOn (.text ['é', ',']), []) := by rfl
  have hbetween : (Value.text t).invoke ',' "between".toList [opening, [',']] [] =
      (goOn (.text ['é']), []) := by rfl
  have hinfix : opening <:+: t := ⟨['x'], ['é', ','], rfl⟩
  obtain ⟨before, after, inner, hb, -, -, -, hcut, -, -, -, hbytes⟩ :=
    markers_cut_at_first hopening hclosing t ',' []
  rw [hbefore] at hb
  cases hb
  exact ⟨hopening, hclosing, hinfix, (hcut hinfix).2, hbefore, hafter, hbetween, fun p s h => (hbytes p s h).1⟩

end SeedChain.Text
