import SeedChain.Proofs.Escaping
import SeedChain.Value.ItemList
/-!
# Placeholders and the characters that carry structure

The placeholders for a text are the first private-use characters that it leaves free
(`mem_freePlaceholders_iff`), in the order of their code points. So no structural character and no
backslash is among them. But nothing keeps the delimiter from being one of them, if it is a private-use
character itself: an escaped parenthesis is then taken for the delimiter.

Main result: who has a placeholder, that no two share one, and when a placeholder is the delimiter
(`avoiding_collides_iff`).
-/

namespace SeedChain.EscapeCodec

/-! ## The first characters that are free -/

/-- The private-use characters that stand before a character and do not occur in the text are at least
`n`. -/
def FreeBefore (n : Nat) (c : Char) (t : Text) : Prop :=
  ∃ cs : List Char, cs.length = n ∧ cs.Nodup ∧
    ∀ p ∈ cs, isPrivateUse p = true ∧ p ∉ t ∧ p.toNat < c.toNat

theorem toNat_lt_of_privateUse? {i j : Nat} {c d : Char} (hc : privateUse? i = some c)
    (hd : privateUse? j = some d) (hij : i < j) : c.toNat < d.toNat := by
  obtain ⟨hj, hjd⟩ := toNat_privateUse? hd
  rw [(toNat_privateUse? hc).2, hjd]
  split <;> split <;> omega

/-- The private-use characters in order, as many as are considered. -/
theorem candidates_sorted (n : Nat) :
    ((List.range n).filterMap privateUse?).Pairwise (·.toNat < ·.toNat) :=
  List.pairwise_lt_range.filterMap _ fun _ _ hij _ hc _ hd => toNat_lt_of_privateUse? hc hd hij

variable {n : Nat} {c p : Char} {t : Text}

/-- A free character that is no placeholder stands behind all of them. -/
theorem toNat_lt_of_not_mem (hc : isPrivateUse c = true) (ht : c ∉ t)
    (hnot : c ∉ freePlaceholders n t) (hp : p ∈ freePlaceholders n t) : p.toNat < c.toNat := by
  obtain ⟨i, -, hi⟩ := exists_privateUse? hc
  unfold freePlaceholders at hnot hp
  set used := t.filter isPrivateUse
  set free := ((List.range (n + used.length)).filterMap privateUse?).filter (fun a => !used.contains a)
  have hsorted : free.Pairwise (·.toNat < ·.toNat) := (candidates_sorted _).filter _
  by_cases hlt : i < n + used.length
  · -- it is considered, but too late
    have hmem : c ∈ free := List.mem_filter.2
      ⟨List.mem_filterMap.2 ⟨i, List.mem_range.2 hlt, hi⟩, by simp [used, ht]⟩
    rw [← List.take_append_drop n free] at hmem hsorted
    have hdrop : c ∈ free.drop n := (List.mem_append.1 hmem).resolve_left hnot
    exact (List.pairwise_append.1 hsorted).2.2 p hp c hdrop
  · -- it is not considered
    obtain ⟨j, hj, hjp⟩ := List.mem_filterMap.1 (List.mem_filter.1 (List.mem_of_mem_take hp)).1
    exact toNat_lt_of_privateUse? hjp hi (by have := List.mem_range.1 hj; omega)

/-- A free character that stands before a placeholder is a placeholder. -/
theorem mem_freePlaceholders_of_lt (hc : c ∈ freePlaceholders n t) (hp : isPrivateUse p = true)
    (ht : p ∉ t) (hlt : p.toNat < c.toNat) : p ∈ freePlaceholders n t := by
  by_contra hnot
  have := toNat_lt_of_not_mem hp ht hnot hc
  omega

/-- The placeholders are the first free characters. -/
theorem mem_freePlaceholders_iff (hfree : LeavesFree n t) :
    c ∈ freePlaceholders n t ↔ isPrivateUse c = true ∧ c ∉ t ∧ ¬ FreeBefore n c t := by
  constructor
  · intro hc
    obtain ⟨hprivate, ht⟩ := mem_freePlaceholders hc
    refine ⟨hprivate, ht, ?_⟩
    rintro ⟨cs, hlen, hnodup, hcs⟩
    -- with those before it there would be more placeholders than are chosen
    have hall : c :: cs ⊆ freePlaceholders n t := by
      refine List.cons_subset.2 ⟨hc, fun p hp => ?_⟩
      obtain ⟨hprivate, ht, hlt⟩ := hcs p hp
      exact mem_freePlaceholders_of_lt hc hprivate ht hlt
    have hdistinct : (c :: cs).Nodup :=
      List.nodup_cons.2 ⟨fun hmem => Nat.lt_irrefl _ (hcs c hmem).2.2, hnodup⟩
    have := hdistinct.length_le_of_subset hall
    have := length_freePlaceholders_le n t
    simp only [List.length_cons] at *
    omega
  · rintro ⟨hprivate, ht, hbefore⟩
    by_contra hnot
    refine hbefore ⟨freePlaceholders n t, length_freePlaceholders hfree, freePlaceholders_nodup n t,
      fun p hp => ?_⟩
    obtain ⟨hp', hpt⟩ := mem_freePlaceholders hp
    exact ⟨hp', hpt, toNat_lt_of_not_mem hprivate ht hnot hp⟩

/-! ## The table -/

theorem escapable_nodup (delimiter : Char) : (escapable delimiter).Nodup := by
  unfold escapable
  split
  · decide
  · rename_i h
    exact List.nodup_append.2 ⟨by decide, List.nodup_singleton _, fun a ha b hb hab =>
      h (List.mem_singleton.1 hb ▸ hab ▸ ha)⟩

theorem Complete.placeholder?_eq_some_iff {codec : EscapeCodec} (h : codec.Complete) :
    codec.placeholder? c = some p ↔ (c, p) ∈ codec.table := by
  constructor
  · intro hp
    obtain ⟨l, r, htable, -⟩ := List.lookup_eq_some_iff.1 hp
    simp [htable]
  · intro hmem
    have hne : codec.placeholder? c ≠ none := fun hnone =>
      EscapeCodec.placeholder?_eq_none_iff.1 hnone (List.mem_map.2 ⟨_, hmem, rfl⟩)
    obtain ⟨q, hq⟩ := Option.ne_none_iff_exists'.1 hne
    obtain ⟨l, r, htable, -⟩ := List.lookup_eq_some_iff.1 hq
    have hnodup : (codec.table.map (·.1)).Nodup := by
      rw [h]
      exact escapable_nodup _
    have heq : (c, q) = (c, p) := List.inj_on_of_nodup_map hnodup (by simp [htable]) hmem rfl
    rw [hq, (Prod.mk.inj heq).2]

theorem Complete.exists_placeholder?_iff {codec : EscapeCodec} (h : codec.Complete) :
    (∃ p, codec.placeholder? c = some p) ↔ c ∈ ['(', ')', ',', ']', codec.delimiter] := by
  rw [← Option.ne_none_iff_exists', Ne, h.placeholder?_eq_none_iff, not_not, mem_escapable_iff]
  simp [structural, or_assoc]

/-- What is some placeholder is one of the free characters that were chosen. -/
theorem exists_placeholder?_eq_some_iff {delimiter : Char} (hfree : LeavesFree 5 t) :
    (∃ c, (avoiding delimiter t).placeholder? c = some p) ↔
      p ∈ freePlaceholders (escapable delimiter).length t := by
  have hsnd : (avoiding delimiter t).table.map (·.2) =
      freePlaceholders (escapable delimiter).length t :=
    List.map_snd_zip (length_freePlaceholders_le _ _)
  simp only [(avoiding_complete hfree).placeholder?_eq_some_iff, ← hsnd, List.mem_map, Prod.exists,
    exists_eq_right]

/-- No private-use character is a backslash or carries structure. -/
theorem not_mem_of_isPrivateUse (h : isPrivateUse c = true) : c ∉ '\\' :: structural := by
  intro hmem
  have hall : ('\\' :: structural).all (fun c => !isPrivateUse c) = true := by decide
  rw [not_isPrivateUse_of_all hall c hmem] at h
  cases h

theorem length_escapable_of_isPrivateUse {delimiter : Char} (h : isPrivateUse delimiter = true) :
    (escapable delimiter).length = 5 := by
  rw [escapable, if_neg fun hmem => not_mem_of_isPrivateUse h (List.mem_cons_of_mem _ hmem)]
  rfl

/-! ## Collisions -/

/-- Each structural character and the delimiter have a placeholder, no two share one, and no placeholder
occurs in the text, carries structure or is a backslash. A placeholder is the delimiter exactly if that
is one of the first five private-use characters that do not occur in the text. -/
theorem avoiding_collides_iff (delimiter : Char) {t : Text} (hfree : LeavesFree 5 t) :
    let codec := avoiding delimiter t
    (∀ c, (∃ p, codec.placeholder? c = some p) ↔ c ∈ ['(', ')', ',', ']', delimiter]) ∧
    (∀ c d p, codec.placeholder? c = some p → codec.placeholder? d = some p → c = d) ∧
    (∀ c p, codec.placeholder? c = some p → p ∉ t ∧ p ∉ structural ∧ p ≠ '\\') ∧
    ((∃ c, codec.placeholder? c = some delimiter) ↔
      isPrivateUse delimiter = true ∧ delimiter ∉ t ∧ ¬ FreeBefore 5 delimiter t) := by
  intro codec
  have ha : codec.Avoids t := avoiding_avoids delimiter t
  have hcodec : codec.Complete := avoiding_complete hfree
  refine ⟨fun c => hcodec.exists_placeholder?_iff, fun c d p hc hd => ?_, fun c p hp => ?_, ?_⟩
  · exact Option.some.inj ((ha.original?_of_placeholder? hc).symm.trans (ha.original?_of_placeholder? hd))
  · have hnot := not_mem_of_isPrivateUse (isPrivateUse_of_placeholder? ha hp)
    obtain ⟨hslash, hstructural⟩ := not_or.1 (mt List.mem_cons.2 hnot)
    exact ⟨ha.absent _ (hcodec.placeholder?_eq_some_iff.1 hp), hstructural, hslash⟩
  · rw [exists_placeholder?_eq_some_iff hfree]
    constructor
    · intro hmem
      have hprivate := (mem_freePlaceholders hmem).1
      rwa [length_escapable_of_isPrivateUse hprivate, mem_freePlaceholders_iff hfree] at hmem
    · intro h
      rwa [length_escapable_of_isPrivateUse h.1, mem_freePlaceholders_iff hfree]

/-- With the first private-use character for a delimiter, an escaped parenthesis splits a list. -/
theorem avoiding_collides_iff_parenthesis :
    let t : Text := "a\\(b".toList
    let codec := avoiding '\uE000' t
    LeavesFree 5 t ∧ codec.placeholder? '(' = some '\uE000' ∧
    (isPrivateUse '\uE000' = true ∧ '\uE000' ∉ t ∧ ¬ FreeBefore 5 '\uE000' t) ∧
    ItemList.split '\uE000' t = [['a'], ['b']] := by
  intro t codec
  have hall : ['\uE010', '\uE011', '\uE012', '\uE013', '\uE014'].all
      (fun c => isPrivateUse c && !t.contains c) = true := by decide +kernel
  have hfree : LeavesFree 5 t := leavesFree_of_all (by decide) hall
  have hp : codec.placeholder? '(' = some '\uE000' := by decide +kernel
  have hcollides := (avoiding_collides_iff '\uE000' hfree).2.2.2.1 ⟨'(', hp⟩
  exact ⟨hfree, hp, hcollides, by decide +kernel⟩

end SeedChain.EscapeCodec
