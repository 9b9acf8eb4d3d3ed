import SeedChain.Proofs.Recognition
/-!
# Where expressions stand

Spans of expressions count bytes of the encoded text; what is evaluated and replaced stands in the
text itself. `Stands` says where: the text and its encoding are cut at the same places, and the part
between the cuts is the expression as written. Every expression that is found stands somewhere
(`exists_stands`), and every part that reads as an expression is found (`stands_of_reads`). Which of
two offsets comes first is the same in both texts (`byteLength_decode_le_iff`), so spans lie inside
one another in the one if they do in the other (`spanIn_within_iff`).

Expressions are found strictly ordered: by their ends, and of two that end together the one that
begins later comes first (`findAll_pairwise`).
-/

namespace SeedChain

/-- Resolution order, strictly. -/
def Expression.Precedes (e f : Expression) : Prop :=
  e.span.stop < f.span.stop ∨ (e.span.stop = f.span.stop ∧ f.span.start < e.span.start)

namespace EscapeCodec

variable {codec : EscapeCodec} {t : Text} {e f : Expression}

/-! ## Listing -/

theorem mem_expressionsFrom {offset : Nat} : e ∈ codec.expressionsFrom offset t ↔
    ∃ x y, t = x ++ y ∧ codec.expressionAt? (offset + Text.byteLength x) y = some e := by
  induction t generalizing offset with
  | nil =>
    constructor
    · intro h
      cases h
    · rintro ⟨x, y, hxy, he⟩
      obtain ⟨rfl, rfl⟩ := List.append_eq_nil_iff.1 hxy.symm
      cases he
  | cons c t ih =>
    rw [expressionsFrom, List.mem_append, ih]
    constructor
    · rintro (h | ⟨x, y, rfl, he⟩)
      · exact ⟨[], c :: t, rfl, by simpa [Text.byteLength] using h⟩
      · exact ⟨c :: x, y, rfl, by simpa [Text.byteLength, Nat.add_assoc] using he⟩
    · rintro ⟨x, y, hxy, he⟩
      cases x with
      | nil =>
        subst hxy
        exact .inl (by simpa [Text.byteLength] using he)
      | cons d x =>
        obtain ⟨rfl, rfl⟩ := List.cons.inj hxy
        exact .inr ⟨x, y, rfl, by simpa [Text.byteLength, Nat.add_assoc] using he⟩

theorem mem_findAll : e ∈ codec.findAll t ↔ ∃ before matched after r, t = before ++ matched ++ after ∧
    Reading.Reads r matched ∧ e = codec.expressionOf (Text.byteLength before) matched r := by
  rw [findAll, List.mem_mergeSort, mem_expressionsFrom]
  constructor
  · rintro ⟨before, y, rfl, he⟩
    obtain ⟨matched, after, r, rfl, hr, rfl⟩ := expressionAt?_eq_some_iff.1 he
    exact ⟨before, matched, after, r, by simp, hr, by simp⟩
  · rintro ⟨before, matched, after, r, rfl, hr, rfl⟩
    exact ⟨before, matched ++ after, by simp,
      expressionAt?_eq_some_iff.2 ⟨matched, after, r, rfl, hr, by simp⟩⟩

theorem expressionsFrom_pairwise (codec : EscapeCodec) (offset : Nat) (t : Text) :
    (codec.expressionsFrom offset t).Pairwise fun e f => e.span.start < f.span.start := by
  induction t generalizing offset with
  | nil => exact .nil
  | cons c t ih =>
    rw [expressionsFrom]
    refine List.pairwise_append.2 ⟨?_, ih _, fun e he f hf => ?_⟩
    · cases codec.expressionAt? offset (c :: t) <;> simp
    · obtain ⟨_, _, _, -, -, rfl⟩ := expressionAt?_eq_some_iff.1 (Option.mem_toList.1 he)
      obtain ⟨x, y, -, hf⟩ := mem_expressionsFrom.1 hf
      obtain ⟨_, _, _, -, -, rfl⟩ := expressionAt?_eq_some_iff.1 hf
      have := c.utf8Size_pos
      simp only [expressionOf]
      omega

theorem resolvesBefore_iff : resolvesBefore e f = true ↔
    e.span.stop < f.span.stop ∨ (e.span.stop = f.span.stop ∧ f.span.start ≤ e.span.start) := by
  simp [resolvesBefore]

/-- No two expressions begin at the same place. -/
theorem findAll_starts (codec : EscapeCodec) (t : Text) :
    (codec.findAll t).Pairwise fun e f => e.span.start ≠ f.span.start :=
  ((codec.expressionsFrom_pairwise 0 t).imp Nat.ne_of_lt).perm (List.mergeSort_perm _ _).symm
    fun h => h.symm

/-- Expressions come strictly ordered, the inner ones first. -/
theorem findAll_pairwise (codec : EscapeCodec) (t : Text) :
    (codec.findAll t).Pairwise Expression.Precedes := by
  have hsorted : (codec.findAll t).Pairwise fun e f => resolvesBefore e f = true := by
    apply List.pairwise_mergeSort
    · intro a b c hab hbc
      rw [resolvesBefore_iff] at *
      omega
    · intro a b
      rw [Bool.or_eq_true, resolvesBefore_iff, resolvesBefore_iff]
      omega
  -- no two begin at the same place, so the order is strict
  refine (hsorted.and (findAll_starts codec t)).imp ?_
  rintro e f ⟨hle, hne⟩
  rw [resolvesBefore_iff] at hle
  unfold Expression.Precedes
  omega

instance : DecidableRel Expression.Precedes := fun _ _ => inferInstanceAs (Decidable (_ ∨ _))

/-- The expressions of a text can be in one order only. -/
theorem findAll_eq_of_perm {es : List Expression} (hperm : (codec.expressionsFrom 0 t).Perm es)
    (hsorted : es.Pairwise Expression.Precedes) : codec.findAll t = es := by
  refine ((List.mergeSort_perm _ _).trans hperm).eq_of_pairwise ?_ (findAll_pairwise codec t) hsorted
  intro e f _ _ hef hfe
  unfold Expression.Precedes at hef hfe
  omega

theorem start_lt_stop_of_mem_findAll (h : e ∈ codec.findAll t) : e.span.start < e.span.stop := by
  obtain ⟨before, matched, _, r, -, hr, rfl⟩ := mem_findAll.1 h
  obtain ⟨inner, hinner⟩ := hr.bracketed
  have hpos : 0 < Text.byteLength matched := Text.byteLength_pos (by simp [hinner])
  simp only [expressionOf]
  omega

/-! ## Places -/

/-- A text whose encoding is an expression stands between brackets itself. -/
theorem Avoids.bracketed (ha : codec.Avoids t) {r : Reading} (hr : r.Reads (codec.encode t)) :
    ∃ inner, t = '[' :: inner ++ [']'] := by
  obtain ⟨inner, hinner⟩ := hr.bracketed
  refine ⟨codec.decode .escaped inner, ?_⟩
  have hopen := ha.decode_singleton .escaped (c := '[') (.inl (not_isPrivateUse_of_lt (by decide)))
  have hclose := ha.decode_singleton .escaped (c := ']') (.inl (not_isPrivateUse_of_lt (by decide)))
  have hdecode := ha.decode_encode
  rw [hinner, ← List.singleton_append, decode_append, decode_append, hopen, hclose] at hdecode
  exact hdecode.symm

/-- The expression stands in the text between `before` and `after`, and so does its encoding in the
encoded text. -/
structure Stands (codec : EscapeCodec) (t : Text) (e : Expression) (before after : Text) : Prop where
  text_eq : t = before ++ e.matched ++ after
  encode_eq : codec.encode t = codec.encode before ++ codec.encode e.matched ++ codec.encode after
  span_eq : e.span = Span.behind (codec.encode before) (codec.encode e.matched)
  read : ∃ r, Reading.Reads r (codec.encode e.matched) ∧
    e = codec.expressionOf (Text.byteLength (codec.encode before)) (codec.encode e.matched) r

/-- What is read between two cuts that the text and its encoding share stands there. -/
theorem stands_of_cuts {before m after : Text} {r : Reading} (ham : codec.Avoids m)
    (ht : t = before ++ m ++ after)
    (hencode : codec.encode t = codec.encode before ++ codec.encode m ++ codec.encode after)
    (hr : r.Reads (codec.encode m)) :
    codec.Stands t
      (codec.expressionOf (Text.byteLength (codec.encode before)) (codec.encode m) r) before after := by
  have hm : codec.decode .escaped (codec.encode m) = m := ham.decode_encode
  constructor
  · simpa [expressionOf, hm] using ht
  · simpa [expressionOf, hm] using hencode
  · simp [expressionOf, hm, Span.behind]
  · exact ⟨r, by simpa [expressionOf, hm] using hr, by simp [expressionOf, hm]⟩

/-- Every expression that is found stands somewhere. -/
theorem exists_stands (ha : codec.Avoids t) (h : e ∈ codec.findAll (codec.encode t)) :
    ∃ before after, codec.Stands t e before after := by
  obtain ⟨x, y, z, r, hxyz, hr, rfl⟩ := mem_findAll.1 h
  rw [List.append_assoc] at hxyz
  obtain ⟨before, u, rfl, rfl, hu⟩ := encode_cut hxyz
  obtain ⟨m, after, rfl, rfl, rfl⟩ := encode_cut hu
  have ham : codec.Avoids m := ha.of_subset fun c hc => by simp [hc]
  exact ⟨before, after, stands_of_cuts ham (by simp) (by simpa using hxyz) hr⟩

/-- A part of the text whose encoding is an expression is found, where it stands. -/
theorem stands_of_reads {before m after : Text} {r : Reading} (ha : codec.Avoids t)
    (hbracket : codec.placeholder? '[' = none) (ht : t = before ++ m ++ after)
    (hr : r.Reads (codec.encode m)) :
    let e := codec.expressionOf (Text.byteLength (codec.encode before)) (codec.encode m) r
    e.matched = m ∧ e ∈ codec.findAll (codec.encode t) ∧ codec.Stands t e before after := by
  have ham : codec.Avoids m := ha.of_subset fun c hc => by rw [ht]; simp [hc]
  obtain ⟨inner, hinner⟩ := ham.bracketed hr
  -- neither cut parts a backslash from a character that can be escaped
  have hencode : codec.encode t = codec.encode before ++ codec.encode m ++ codec.encode after := by
    rw [ht, encode_append (s := before ++ m), encode_append (s := before)]
    · rw [hinner]
      refine .inr fun c hc => ?_
      obtain rfl : c = '[' := (Option.some.inj hc).symm
      exact hbracket
    · rw [hinner, ← List.append_assoc, List.getLast?_concat]
      exact .inl (by decide)
  exact ⟨ham.decode_encode, mem_findAll.2 ⟨_, _, _, r, hencode, hr, rfl⟩,
    stands_of_cuts ham ht hencode hr⟩

namespace Stands

variable {before after : Text}

theorem avoids_before (h : codec.Stands t e before after) (ha : codec.Avoids t) :
    codec.Avoids before :=
  ha.of_subset fun c hc => by rw [h.text_eq]; simp [hc]

theorem avoids_matched (h : codec.Stands t e before after) (ha : codec.Avoids t) :
    codec.Avoids e.matched :=
  ha.of_subset fun c hc => by rw [h.text_eq]; simp [hc]

/-- An expression is written between brackets. -/
theorem bracketed (h : codec.Stands t e before after) (ha : codec.Avoids t) :
    ∃ inner, e.matched = '[' :: inner ++ [']'] := by
  obtain ⟨r, hr, -⟩ := h.read
  exact (h.avoids_matched ha).bracketed hr

theorem matched_ne_nil (h : codec.Stands t e before after) (ha : codec.Avoids t) :
    e.matched ≠ [] := by
  obtain ⟨inner, hinner⟩ := h.bracketed ha
  simp [hinner]

/-- Where the expression stands in the text itself. -/
theorem spanIn_eq (h : codec.Stands t e before after) (ha : codec.Avoids t) :
    codec.spanIn (codec.encode t) e = Span.behind before e.matched := by
  have hbefore := (h.avoids_before ha).decode_encode
  rw [spanIn, h.encode_eq, h.span_eq, List.append_assoc]
  simp only [Span.behind, Text.takeBytes_append, hbefore]

theorem covers (h : codec.Stands t e before after) (ha : codec.Avoids t) :
    (codec.spanIn (codec.encode t) e).Covers t e.matched :=
  ⟨before, after, h.text_eq, h.spanIn_eq ha⟩

end Stands

/-! ## Offsets in the text and in the encoded text -/

theorem byteLength_decode_pos (codec : EscapeCodec) (restore : Restore) {x : Text} (h : x ≠ []) :
    0 < Text.byteLength (codec.decode restore x) := by
  apply Text.byteLength_pos
  cases x with
  | nil => exact absurd rfl h
  | cons c x =>
    rw [← List.singleton_append, decode_append]
    refine List.append_ne_nil_of_left_ne_nil ?_ _
    simp only [decode, List.flatMap_singleton, decodeChar]
    split <;> simp

/-- Turning placeholders back keeps the order of offsets. -/
theorem byteLength_decode_le_iff (codec : EscapeCodec) (restore : Restore) {x u y v : Text}
    (h : x ++ u = y ++ v) :
    Text.byteLength (codec.decode restore x) ≤ Text.byteLength (codec.decode restore y) ↔
      Text.byteLength x ≤ Text.byteLength y := by
  constructor
  · intro hle
    by_contra hlt
    obtain ⟨w, rfl, -⟩ := Text.exists_eq_append_of_byteLength_le h.symm (Nat.le_of_not_le hlt)
    -- the longer part has further characters, and each stands for at least one
    have hw : w ≠ [] := by
      rintro rfl
      simp at hlt
    have := byteLength_decode_pos codec restore hw
    rw [decode_append, Text.byteLength_append] at hle
    omega
  · intro hle
    obtain ⟨w, rfl, -⟩ := Text.exists_eq_append_of_byteLength_le h hle
    simp

variable {before after before' after' : Text}

/-- Offsets of two expressions compare alike in the text and in the encoded text. -/
theorem Stands.offsets_le_iff (he : codec.Stands t e before after)
    (hf : codec.Stands t f before' after') (ha : codec.Avoids t) :
    let s := codec.spanIn (codec.encode t) e
    let s' := codec.spanIn (codec.encode t) f
    (s.start ≤ s'.start ↔ e.span.start ≤ f.span.start) ∧
      (s.stop ≤ s'.stop ↔ e.span.stop ≤ f.span.stop) := by
  have hcut := he.encode_eq.symm.trans hf.encode_eq
  have hstop := byteLength_decode_le_iff codec .escaped hcut
  rw [List.append_assoc, List.append_assoc] at hcut
  have hstart := byteLength_decode_le_iff codec .escaped hcut
  rw [(he.avoids_before ha).decode_encode, (hf.avoids_before ha).decode_encode] at hstart
  rw [decode_append, decode_append, (he.avoids_before ha).decode_encode,
    (hf.avoids_before ha).decode_encode, (he.avoids_matched ha).decode_encode,
    (hf.avoids_matched ha).decode_encode] at hstop
  simp only [he.spanIn_eq ha, hf.spanIn_eq ha, he.span_eq, hf.span_eq, Span.behind,
    ← Text.byteLength_append]
  exact ⟨hstart, hstop⟩

theorem spanIn_within_iff (ha : codec.Avoids t) (he : e ∈ codec.findAll (codec.encode t))
    (hf : f ∈ codec.findAll (codec.encode t)) :
    (codec.spanIn (codec.encode t) e).within (codec.spanIn (codec.encode t) f) = true ↔
      e.span.within f.span = true := by
  obtain ⟨_, _, he⟩ := exists_stands ha he
  obtain ⟨_, _, hf⟩ := exists_stands ha hf
  rw [Span.within_iff, Span.within_iff, (hf.offsets_le_iff he ha).1, (he.offsets_le_iff hf ha).2]

end EscapeCodec

end SeedChain
