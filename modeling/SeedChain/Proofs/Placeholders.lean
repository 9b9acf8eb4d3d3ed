import Mathlib.Data.List.Nodup
import Mathlib.Tactic.Common
import SeedChain.Escape
/-!
# Placeholders

The placeholders of a codec are different private-use characters that do not occur in the text it
was made for (`avoiding_avoids`), whatever the delimiter is and however few such characters the text
leaves; where the text leaves five of them, there is one for everything that can be escaped
(`avoiding_complete`). So encoding loses nothing (`decode_encode`), and a cut of the encoded text is
the encoding of a cut of the text (`encode_cut`). A cut of the text is one of the encoded text unless
it parts a backslash from a character that can be escaped (`encode_append`).

Main result: the codec for a text is lossless on it, and on both halves of every cut
(`avoiding_lossless`).
-/

namespace SeedChain.EscapeCodec

/-! ## Private-use characters -/

theorem toNat_ofNat_of_valid {n : Nat} (h : n.isValidChar) : (Char.ofNat n).toNat = n := by
  rw [Char.ofNat, dif_pos h]
  rfl

/-- How many private-use characters there are. -/
def privateUseCount : Nat := 0x1900 + 0xFFFE

theorem toNat_privateUse? {i : Nat} {c : Char} (h : privateUse? i = some c) :
    i < privateUseCount ∧ c.toNat = if i < 0x1900 then 0xE000 + i else 0xF0000 + (i - 0x1900) := by
  unfold privateUse? at h
  unfold privateUseCount
  split at h
  · rename_i hlow
    rw [← Option.some.inj h, toNat_ofNat_of_valid (by unfold Nat.isValidChar; omega), if_pos hlow]
    exact ⟨by omega, rfl⟩
  · rename_i hlow
    split at h
    · rename_i hhigh
      rw [← Option.some.inj h, toNat_ofNat_of_valid (by unfold Nat.isValidChar; omega), if_neg hlow]
      exact ⟨hhigh, rfl⟩
    · cases h

theorem isPrivateUse_iff {c : Char} : isPrivateUse c = true ↔
    (0xE000 ≤ c.toNat ∧ c.toNat ≤ 0xF8FF) ∨ (0xF0000 ≤ c.toNat ∧ c.toNat ≤ 0xFFFFD) := by
  simp [isPrivateUse]

theorem isPrivateUse_of_privateUse? {i : Nat} {c : Char} (h : privateUse? i = some c) :
    isPrivateUse c = true := by
  obtain ⟨hi, hc⟩ := toNat_privateUse? h
  rw [isPrivateUse_iff, hc]
  unfold privateUseCount at hi
  split <;> omega

theorem privateUse?_inj {i j : Nat} {c : Char} (hi : privateUse? i = some c)
    (hj : privateUse? j = some c) : i = j := by
  have h := (toNat_privateUse? hi).2.symm.trans (toNat_privateUse? hj).2
  split at h <;> split at h <;> omega

theorem isSome_privateUse? {i : Nat} (h : i < privateUseCount) : (privateUse? i).isSome := by
  unfold privateUse?
  split
  · rfl
  · rw [if_pos (show i < 0x1900 + 0xFFFE from h)]
    rfl

theorem exists_privateUse? {c : Char} (h : isPrivateUse c = true) :
    ∃ i < privateUseCount, privateUse? i = some c := by
  unfold privateUse? privateUseCount
  rcases isPrivateUse_iff.1 h with h | h
  · refine ⟨c.toNat - 0xE000, by omega, ?_⟩
    rw [if_pos (by omega), show 0xE000 + (c.toNat - 0xE000) = c.toNat by omega, Char.ofNat_toNat]
  · refine ⟨c.toNat - 0xF0000 + 0x1900, by omega, ?_⟩
    rw [if_neg (by omega), if_pos (by omega),
      show 0xF0000 + (c.toNat - 0xF0000 + 0x1900 - 0x1900) = c.toNat by omega, Char.ofNat_toNat]

theorem not_isPrivateUse_of_lt {c : Char} (h : c.toNat < 0xE000) : isPrivateUse c = false := by
  rw [Bool.eq_false_iff, Ne, isPrivateUse_iff]
  omega

theorem not_isPrivateUse_of_all {t : Text} (h : t.all (fun c => !isPrivateUse c) = true) :
    ∀ c ∈ t, isPrivateUse c = false := by
  simpa using h

theorem not_isPrivateUse_of_isWhite {c : Char} (h : Text.isWhite c = true) :
    isPrivateUse c = false := by
  apply not_isPrivateUse_of_lt
  simp only [Text.isWhite, Bool.or_eq_true, Bool.and_eq_true, decide_eq_true_eq, beq_iff_eq] at h
  omega

/-! ## Free placeholders -/

/-- At least `n` private-use characters do not occur in the text. -/
def LeavesFree (n : Nat) (t : Text) : Prop :=
  ∃ cs : List Char, cs.length = n ∧ cs.Nodup ∧ ∀ c ∈ cs, isPrivateUse c = true ∧ c ∉ t

theorem leavesFree_of_all {cs t : List Char} (hnodup : cs.Nodup)
    (h : cs.all (fun c => isPrivateUse c && !t.contains c) = true) : LeavesFree cs.length t :=
  ⟨cs, rfl, hnodup, by simpa using h⟩

/-- Only the private-use characters of a text count. -/
theorem LeavesFree.of_forall {n : Nat} {s t : Text} (h : LeavesFree n t)
    (hst : ∀ c ∈ s, isPrivateUse c = false ∨ c ∈ t) : LeavesFree n s := by
  obtain ⟨cs, hlen, hnodup, hcs⟩ := h
  refine ⟨cs, hlen, hnodup, fun c hc => ⟨(hcs c hc).1, fun hs => ?_⟩⟩
  obtain ⟨hprivate, ht⟩ := hcs c hc
  rcases hst c hs with hpublic | hmem
  · rw [hprivate] at hpublic
    cases hpublic
  · exact ht hmem

theorem LeavesFree.of_subset {n : Nat} {s t : Text} (h : LeavesFree n t) (hst : s ⊆ t) :
    LeavesFree n s :=
  h.of_forall fun _ hc => .inr (hst hc)

theorem LeavesFree.of_le {n k : Nat} {t : Text} (h : LeavesFree n t) (hk : k ≤ n) :
    LeavesFree k t := by
  obtain ⟨cs, hlen, hnodup, hcs⟩ := h
  exact ⟨cs.take k, by simp [hlen, hk], hnodup.sublist (List.take_sublist _ _),
    fun c hc => hcs c (List.mem_of_mem_take hc)⟩

theorem mem_freePlaceholders {n : Nat} {t : Text} {c : Char} (h : c ∈ freePlaceholders n t) :
    isPrivateUse c = true ∧ c ∉ t := by
  obtain ⟨hc, hfree⟩ := List.mem_filter.1 (List.mem_of_mem_take h)
  obtain ⟨i, -, hi⟩ := List.mem_filterMap.1 hc
  have hp := isPrivateUse_of_privateUse? hi
  refine ⟨hp, fun ht => ?_⟩
  simp [hp, ht] at hfree

theorem candidates_nodup (n : Nat) : ((List.range n).filterMap privateUse?).Nodup :=
  List.nodup_range.filterMap fun _ _ _ => privateUse?_inj

theorem freePlaceholders_nodup (n : Nat) (t : Text) : (freePlaceholders n t).Nodup :=
  ((candidates_nodup _).filter _).sublist (List.take_sublist _ _)

theorem length_freePlaceholders_le (n : Nat) (t : Text) : (freePlaceholders n t).length ≤ n :=
  List.length_take_le _ _

/-- As many placeholders are found as the text leaves free. -/
theorem length_freePlaceholders {n : Nat} {t : Text} (h : LeavesFree n t) :
    (freePlaceholders n t).length = n := by
  obtain ⟨cs, hlen, hnodup, hcs⟩ := h
  simp only [freePlaceholders, List.length_take]
  refine Nat.min_eq_left ?_
  generalize hu : t.filter isPrivateUse = used
  generalize hk : n + used.length = k
  have hused : ∀ c ∈ cs, c ∉ used := fun c hc hmem => by
    subst hu
    exact (hcs c hc).2 (List.mem_filter.1 hmem).1
  -- either all private-use characters are candidates, or the candidates outnumber the used ones
  by_cases hcount : privateUseCount ≤ k
  · rw [← hlen]
    refine hnodup.length_le_of_subset fun c hc => List.mem_filter.2 ⟨?_, by simpa using hused c hc⟩
    obtain ⟨i, hi, hic⟩ := exists_privateUse? (hcs c hc).1
    exact List.mem_filterMap.2 ⟨i, List.mem_range.2 (by omega), hic⟩
  · have hall : ((List.range k).filterMap privateUse?).length = k := by
      rw [List.filterMap_length_eq_length.2, List.length_range]
      exact fun i hi => isSome_privateUse? (by have := List.mem_range.1 hi; omega)
    have hsplit := List.length_eq_length_filter_add (l := (List.range k).filterMap privateUse?)
      (fun c => used.contains c)
    have hle : (((List.range k).filterMap privateUse?).filter fun c => used.contains c).length
        ≤ used.length :=
      ((candidates_nodup k).filter _).length_le_of_subset
        fun c hc => by simpa using (List.mem_filter.1 hc).2
    omega

/-! ## Codecs that avoid a text -/

/-- The placeholders of the codec are different private-use characters, none of them in the text. -/
structure Avoids (codec : EscapeCodec) (t : Text) : Prop where
  nodup : (codec.table.map (·.2)).Nodup
  isPrivateUse : ∀ entry ∈ codec.table, isPrivateUse entry.2 = true
  absent : ∀ entry ∈ codec.table, entry.2 ∉ t

theorem avoiding_avoids (delimiter : Char) (t : Text) : (avoiding delimiter t).Avoids t where
  nodup := by
    rw [avoiding, List.map_snd_zip (length_freePlaceholders_le _ _)]
    exact freePlaceholders_nodup _ _
  isPrivateUse _ h := (mem_freePlaceholders (List.of_mem_zip h).2).1
  absent _ h := (mem_freePlaceholders (List.of_mem_zip h).2).2

theorem placeholder?_eq_none_iff {codec : EscapeCodec} {c : Char} :
    codec.placeholder? c = none ↔ c ∉ codec.table.map (·.1) := by
  rw [placeholder?, List.lookup_eq_none_iff]
  simp only [List.mem_map, not_exists, not_and, bne_iff_ne]
  exact ⟨fun h entry he heq => h entry he heq.symm, fun h entry he heq => h entry he heq.symm⟩

theorem isPrivateUse_of_placeholder? {codec : EscapeCodec} {t : Text} (h : codec.Avoids t)
    {c p : Char} (hp : codec.placeholder? c = some p) : isPrivateUse p = true := by
  obtain ⟨l, r, htable, -⟩ := List.lookup_eq_some_iff.1 hp
  exact h.isPrivateUse (c, p) (by simp [htable])

theorem length_escapable_le (delimiter : Char) : (escapable delimiter).length ≤ 5 := by
  unfold escapable
  split <;> simp [structural]

/-- There is a placeholder for everything that can be escaped. -/
def Complete (codec : EscapeCodec) : Prop :=
  codec.table.map (·.1) = escapable codec.delimiter

theorem avoiding_complete {delimiter : Char} {t : Text} (h : LeavesFree 5 t) :
    (avoiding delimiter t).Complete := by
  have hlen := length_freePlaceholders (h.of_le (length_escapable_le delimiter))
  exact List.map_fst_zip (Nat.le_of_eq hlen.symm)

theorem Complete.placeholder?_eq_none_iff {codec : EscapeCodec} (h : codec.Complete) {c : Char} :
    codec.placeholder? c = none ↔ c ∉ escapable codec.delimiter := by
  rw [EscapeCodec.placeholder?_eq_none_iff, h]

/-- A text without placeholders stands for itself. -/
theorem decode_of_original?_eq_none {codec : EscapeCodec} (restore : Restore) {s : Text}
    (h : ∀ c ∈ s, codec.original? c = none) : codec.decode restore s = s := by
  induction s with
  | nil => rfl
  | cons c s ih =>
    rw [← List.singleton_append, decode_append, ih fun d hd => h d (List.mem_cons_of_mem _ hd)]
    simp [decode, decodeChar, h c (by simp)]

/-- A placeholder leaves a backslash behind where escapes are kept. -/
theorem original?_eq_none_of_decode {codec : EscapeCodec} {s : Text}
    (h : '\\' ∉ codec.decode .escaped s) : ∀ c ∈ s, codec.original? c = none := by
  intro c hc
  rw [Option.eq_none_iff_forall_ne_some]
  intro o ho
  exact h (List.mem_flatMap.2 ⟨c, hc, by simp [decodeChar, ho]⟩)

namespace Avoids

variable {codec : EscapeCodec} {s t : Text}

/-- Only the private-use characters of a text count. -/
theorem of_forall (h : codec.Avoids t)
    (hst : ∀ c ∈ s, EscapeCodec.isPrivateUse c = false ∨ c ∈ t) : codec.Avoids s := by
  refine ⟨h.nodup, h.isPrivateUse, fun entry he hs => ?_⟩
  rcases hst _ hs with hpublic | hmem
  · rw [h.isPrivateUse entry he] at hpublic
    cases hpublic
  · exact h.absent entry he hmem

theorem of_subset (h : codec.Avoids t) (hst : s ⊆ t) : codec.Avoids s :=
  h.of_forall fun _ hc => .inr (hst hc)

theorem original?_eq_some_iff (h : codec.Avoids t) {p c : Char} :
    codec.original? p = some c ↔ (c, p) ∈ codec.table := by
  rw [original?, Option.map_eq_some_iff]
  constructor
  · rintro ⟨⟨c', p'⟩, hfind, rfl⟩
    have hp : p' = p := by simpa using List.find?_some hfind
    exact hp ▸ List.mem_of_find?_eq_some hfind
  · intro hmem
    cases hfind : codec.table.find? (·.2 == p) with
    | none => exact absurd (List.find?_eq_none.1 hfind _ hmem) (by simp)
    | some entry =>
      have hp : entry.2 = p := by simpa using List.find?_some hfind
      have heq : entry = (c, p) :=
        List.inj_on_of_nodup_map h.nodup (List.mem_of_find?_eq_some hfind) hmem hp
      exact ⟨entry, rfl, by rw [heq]⟩

theorem original?_eq_none (h : codec.Avoids t) {c : Char}
    (hc : EscapeCodec.isPrivateUse c = false ∨ c ∈ t) : codec.original? c = none := by
  cases ho : codec.original? c with
  | none => rfl
  | some o =>
    have hmem := h.original?_eq_some_iff.1 ho
    rcases hc with hc | hc
    · rw [h.isPrivateUse _ hmem] at hc
      cases hc
    · exact absurd hc (h.absent _ hmem)

theorem original?_of_placeholder? (h : codec.Avoids t) {c p : Char}
    (hp : codec.placeholder? c = some p) : codec.original? p = some c := by
  obtain ⟨l, r, htable, -⟩ := List.lookup_eq_some_iff.1 hp
  exact h.original?_eq_some_iff.2 (by simp [htable])

/-- A character that is no placeholder stands for itself. -/
theorem decode_singleton (h : codec.Avoids t) (restore : Restore) {c : Char}
    (hc : EscapeCodec.isPrivateUse c = false ∨ c ∈ t) : codec.decode restore [c] = [c] := by
  simp [decode, decodeChar, h.original?_eq_none hc]

theorem decode_eq_self (h : codec.Avoids t) (restore : Restore)
    (hs : ∀ c ∈ s, EscapeCodec.isPrivateUse c = false ∨ c ∈ t) : codec.decode restore s = s :=
  decode_of_original?_eq_none restore fun c hc => h.original?_eq_none (hs c hc)

/-- Encoding loses nothing. -/
theorem decode_encode (h : codec.Avoids t) : codec.decode .escaped (codec.encode t) = t := by
  fun_induction encode codec t with
  | case1 => rfl
  | case2 c => exact h.decode_singleton _ (.inr (by simp))
  | case3 d t p hp ih =>
    have ht := ih (h.of_subset fun c hc => by simp [hc])
    rw [← List.singleton_append, decode_append, ht]
    simp [decode, decodeChar, h.original?_of_placeholder? hp]
  | case4 d t hp ih =>
    have ht := ih (h.of_subset fun c hc => by simp only [List.mem_cons] at hc ⊢; exact .inr hc)
    rw [← List.singleton_append, decode_append, ht, h.decode_singleton _ (.inr (by simp))]
    rfl
  | case5 c d t hc ih =>
    have ht := ih (h.of_subset fun c hc => by simp only [List.mem_cons] at hc ⊢; exact .inr hc)
    rw [← List.singleton_append, decode_append, ht, h.decode_singleton _ (.inr (by simp))]
    rfl

end Avoids

/-! ## Cuts -/

variable {codec : EscapeCodec}

/-- Where the encoded text is cut, the text can be cut. -/
theorem encode_cut {t x y : Text} (h : codec.encode t = x ++ y) :
    ∃ s u, t = s ++ u ∧ codec.encode s = x ∧ codec.encode u = y := by
  cases x with
  | nil => exact ⟨[], t, rfl, rfl, h⟩
  | cons a x =>
    fun_induction encode codec t generalizing a x with
    | case1 => cases h
    | case2 c =>
      obtain ⟨rfl, hx⟩ := List.cons.inj h
      obtain ⟨rfl, rfl⟩ := List.append_eq_nil_iff.1 hx.symm
      exact ⟨[c], [], rfl, rfl, rfl⟩
    | case3 d t p hp ih =>
      obtain ⟨rfl, ht⟩ := List.cons.inj h
      -- the cut is never inside the pair that the placeholder stands for
      cases x with
      | nil => exact ⟨['\\', d], t, rfl, by simp [encode, hp], ht⟩
      | cons b x =>
        obtain ⟨s, u, rfl, hs, hu⟩ := ih _ _ ht
        exact ⟨'\\' :: d :: s, u, rfl, by simp [encode, hp, hs], hu⟩
    | case4 d t hp ih =>
      obtain ⟨rfl, ht⟩ := List.cons.inj h
      cases x with
      | nil => exact ⟨['\\'], d :: t, rfl, rfl, ht⟩
      | cons b x =>
        obtain ⟨s, u, hsu, hs, hu⟩ := ih _ _ ht
        cases s with
        | nil => cases hs
        | cons d' s =>
          obtain ⟨rfl, rfl⟩ := List.cons.inj hsu
          exact ⟨'\\' :: d :: s, u, rfl, by rw [encode, if_pos rfl, hp]; simp [hs], hu⟩
    | case5 c d t hc ih =>
      obtain ⟨rfl, ht⟩ := List.cons.inj h
      cases x with
      | nil => exact ⟨[c], d :: t, rfl, rfl, ht⟩
      | cons b x =>
        obtain ⟨s, u, hsu, hs, hu⟩ := ih _ _ ht
        cases s with
        | nil => cases hs
        | cons d' s =>
          obtain ⟨rfl, rfl⟩ := List.cons.inj hsu
          exact ⟨c :: d :: s, u, rfl, by rw [encode, if_neg hc, hs], hu⟩

theorem encode_ne_nil (c : Char) (t : Text) : codec.encode (c :: t) ≠ [] := by
  cases t with
  | nil => exact List.cons_ne_nil _ _
  | cons d t =>
    rw [encode]
    split
    · split <;> exact List.cons_ne_nil _ _
    · exact List.cons_ne_nil _ _

/-- A cut of the text is one of the encoded text, unless it parts a backslash from a character that
can be escaped. -/
theorem encode_append {s u : Text}
    (h : s.getLast? ≠ some '\\' ∨ ∀ c ∈ u.head?, codec.placeholder? c = none) :
    codec.encode (s ++ u) = codec.encode s ++ codec.encode u := by
  fun_induction encode codec s with
  | case1 => rfl
  | case2 c =>
    cases u with
    | nil => simp [encode]
    | cons d u =>
      rw [List.singleton_append, encode]
      split
      · rename_i hc
        have hd : codec.placeholder? d = none := by simpa [hc] using h
        simp [hd]
      · rfl
  | case3 d t p hp ih =>
    rw [List.cons_append, List.cons_append, encode, if_pos rfl, hp]
    simp only [List.cons_append, List.cons.injEq, true_and]
    cases t with
    | nil => rfl
    | cons e t => exact ih (by simpa using h)
  | case4 d t hp ih =>
    rw [List.cons_append, List.cons_append, encode, if_pos rfl, hp]
    simpa using ih (by simpa using h)
  | case5 c d t hc ih =>
    rw [List.cons_append, List.cons_append, encode, if_neg hc]
    simpa using ih (by simpa using h)

/-- A cut of the text is one of the encoded text if what stands before it is encoded as something
that does not end with a backslash. -/
theorem encode_append_of_encoded {s u : Text} (h : (codec.encode s).getLast? ≠ some '\\') :
    codec.encode (s ++ u) = codec.encode s ++ codec.encode u := by
  fun_induction encode codec s with
  | case1 => rfl
  | case2 c => exact encode_append (.inl (by simpa using h))
  | case3 d t p hp ih =>
    rw [List.cons_append, List.cons_append, encode, if_pos rfl, hp]
    simp only [List.cons_append, List.cons.injEq, true_and]
    cases t with
    | nil => rfl
    | cons e t => exact ih fun hlast => h (List.getLast?_cons_of_ne_nil (encode_ne_nil e t) ▸ hlast)
  | case4 d t hp ih =>
    rw [List.cons_append, List.cons_append, encode, if_pos rfl, hp]
    simpa using ih fun hlast => h (List.getLast?_cons_of_ne_nil (encode_ne_nil d t) ▸ hlast)
  | case5 c d t hc ih =>
    rw [List.cons_append, List.cons_append, encode, if_neg hc]
    simpa using ih fun hlast => h (List.getLast?_cons_of_ne_nil (encode_ne_nil d t) ▸ hlast)

/-! ## Nothing is lost -/

/-- Whatever the delimiter is and whichever private-use characters the text uses, encoding loses
nothing; and wherever the encoded text is cut, its halves stand for halves of the text, which they are
the encodings of. -/
theorem avoiding_lossless (delimiter : Char) (t : Text) :
    let codec := avoiding delimiter t
    let encoded := codec.encode t
    codec.decode .escaped encoded = t ∧ ∀ n,
      let x := codec.decode .escaped (encoded.take n)
      let y := codec.decode .escaped (encoded.drop n)
      x ++ y = t ∧ codec.encode x = encoded.take n ∧ codec.encode y = encoded.drop n := by
  intro codec encoded
  have ha : codec.Avoids t := avoiding_avoids delimiter t
  refine ⟨ha.decode_encode, fun n => ?_⟩
  intro x y
  obtain ⟨s, u, hsu, hs, hu⟩ := encode_cut (List.take_append_drop n encoded).symm
  have hx : x = s := by
    rw [show x = codec.decode .escaped (codec.encode s) by rw [hs]]
    exact (ha.of_subset fun c hc => by simp [hsu, hc]).decode_encode
  have hy : y = u := by
    rw [show y = codec.decode .escaped (codec.encode u) by rw [hu]]
    exact (ha.of_subset fun c hc => by simp [hsu, hc]).decode_encode
  rw [hx, hy]
  exact ⟨hsu.symm, hs, hu⟩

end SeedChain.EscapeCodec
