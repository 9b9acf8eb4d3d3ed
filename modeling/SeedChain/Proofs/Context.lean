import SeedChain.Proofs.Innermost
import SeedChain.Proofs.Renaming
/-!
# An expression does not depend on the text around it

The codec of a pass is made for the whole text, so the same expression is encoded with other
placeholders in another text. As long as both codecs have a placeholder for everything that can be
escaped, this makes no difference: the one encoding is the other one with placeholders exchanged
(`Interchange.encode_map`), and what is read from them decodes to the same (`Interchange.recognises`).

Main results: what is an expression can be said of its own text alone, and the expressions of a text
are those of its parts that are one (`mem_expressionsAt`); so behind a text without opening bracket,
and before any other text, a text keeps its expressions (`expressionsAt_append`).
-/

namespace SeedChain

/-- The expression, standing at a place. -/
def Expression.placed (e : Expression) (s : Span) : Expression := { e with span := s }

@[simp]
theorem Expression.placed_span (e : Expression) (s : Span) : (e.placed s).span = s := rfl

@[simp]
theorem Expression.placed_placed (e : Expression) (s s' : Span) :
    (e.placed s).placed s' = e.placed s' := rfl

/-- Evaluation does not look at the place. -/
theorem Expression.evaluate_placed (env : Environment) (e : Expression) (s : Span) (store : Store) :
    (e.placed s).evaluate env store = e.evaluate env store := rfl

namespace EscapeCodec

/-! ## Two codecs for one text -/

/-- Both codecs avoid the text, and they have placeholders for the same characters. -/
structure Interchange (codec codec' : EscapeCodec) (t : Text) : Prop where
  avoids : codec.Avoids t
  avoids' : codec'.Avoids t
  delimiter : codec'.delimiter = codec.delimiter
  delimiter_public : EscapeCodec.isPrivateUse codec.delimiter = false
  escapable : codec'.table.map (·.1) = codec.table.map (·.1)

/-- Exchanges the placeholders of one codec for those of another one. -/
def exchange (codec codec' : EscapeCodec) (c : Char) : Char :=
  ((codec.original? c).bind codec'.placeholder?).getD c

theorem mem_encode {codec : EscapeCodec} {t : Text} {c : Char} (h : c ∈ codec.encode t) :
    c ∈ t ∨ ∃ d, codec.placeholder? d = some c := by
  fun_induction encode codec t with
  | case1 => cases h
  | case2 d => exact .inl h
  | case3 d t p hp ih =>
    rcases List.mem_cons.1 h with rfl | h
    · exact .inr ⟨d, hp⟩
    · exact (ih h).imp_left fun h => by simp [h]
  | case4 d t hp ih =>
    rcases List.mem_cons.1 h with rfl | h
    · exact .inl (by simp)
    · exact (ih h).imp_left fun h => List.mem_cons_of_mem _ h
  | case5 a d t ha ih =>
    rcases List.mem_cons.1 h with rfl | h
    · exact .inl (by simp)
    · exact (ih h).imp_left fun h => List.mem_cons_of_mem _ h

namespace Interchange

variable {codec codec' : EscapeCodec} {t : Text}

theorem symm (h : Interchange codec codec' t) : Interchange codec' codec t :=
  ⟨h.avoids', h.avoids, h.delimiter.symm, h.delimiter ▸ h.delimiter_public, h.escapable.symm⟩

theorem exchange_renames (h : Interchange codec codec' t) : Renames (exchange codec codec') where
  fixed c hc := by simp [exchange, h.avoids.original?_eq_none (.inl hc)]
  privateUse c hc := by
    unfold exchange
    cases hp : (codec.original? c).bind codec'.placeholder? with
    | none => exact hc
    | some p =>
      obtain ⟨d, -, hd⟩ := Option.bind_eq_some_iff.1 hp
      exact isPrivateUse_of_placeholder? h.avoids' hd

theorem exchange_of_mem (h : Interchange codec codec' t) {c : Char} (hc : c ∈ t) :
    exchange codec codec' c = c := by
  simp [exchange, h.avoids.original?_eq_none (.inr hc)]

theorem exchange_placeholder (h : Interchange codec codec' t) {c p : Char}
    (hp : codec.placeholder? c = some p) :
    codec'.placeholder? c = some (exchange codec codec' p) := by
  have hsome : codec'.placeholder? c ≠ none := by
    intro hnone
    rw [placeholder?_eq_none_iff, h.escapable, ← placeholder?_eq_none_iff, hp] at hnone
    cases hnone
  obtain ⟨p', hp'⟩ := Option.ne_none_iff_exists'.1 hsome
  simp [exchange, h.avoids.original?_of_placeholder? hp, hp']

theorem placeholder?_none (h : Interchange codec codec' t) {c : Char}
    (hc : codec.placeholder? c = none) : codec'.placeholder? c = none := by
  rw [placeholder?_eq_none_iff] at hc ⊢
  rwa [h.escapable]

/-- The one encoding is the other one with the placeholders exchanged. -/
theorem encode_map (h : Interchange codec codec' t) {s : Text} (hs : s ⊆ t) :
    codec'.encode s = (codec.encode s).map (exchange codec codec') := by
  fun_induction encode codec s with
  | case1 => rfl
  | case2 c =>
    rw [List.map_singleton, h.exchange_of_mem (hs (by simp))]
    rfl
  | case3 d s p hp ih =>
    rw [List.map_cons, ← ih fun c hc => hs (by simp [hc]), encode, if_pos rfl,
      h.exchange_placeholder hp]
  | case4 d s hp ih =>
    rw [List.map_cons, ← ih fun c hc => hs (List.mem_cons_of_mem _ hc), encode, if_pos rfl,
      h.placeholder?_none hp, h.exchange_of_mem (hs (by simp))]
  | case5 c d s hc ih =>
    rw [List.map_cons, ← ih fun c hc => hs (List.mem_cons_of_mem _ hc), encode, if_neg hc,
      h.exchange_of_mem (hs (by simp))]

theorem decodeChar_exchange (h : Interchange codec codec' t) (restore : Restore) {c : Char}
    (hc : EscapeCodec.isPrivateUse c = false ∨ c ∈ codec.encode t) :
    codec'.decodeChar restore (exchange codec codec' c) = codec.decodeChar restore c := by
  -- neither codec has a placeholder among these
  have hkept : EscapeCodec.isPrivateUse c = false ∨ c ∈ t →
      codec'.decodeChar restore (exchange codec codec' c) = codec.decodeChar restore c := by
    intro hc
    simp [exchange, decodeChar, h.avoids.original?_eq_none hc, h.avoids'.original?_eq_none hc]
  rcases hc with hc | hc
  · exact hkept (.inl hc)
  · rcases mem_encode hc with hc | ⟨d, hd⟩
    · exact hkept (.inr hc)
    · unfold decodeChar
      rw [h.avoids.original?_of_placeholder? hd,
        h.avoids'.original?_of_placeholder? (h.exchange_placeholder hd)]
      cases restore <;> rfl

/-- What is read from the two encodings decodes to the same. -/
theorem decode_exchange (h : Interchange codec codec' t) (restore : Restore) {x : Text}
    (hx : x.map (displace (codec.encode t)) = x) :
    codec'.decode restore (x.map (exchange codec codec')) = codec.decode restore x := by
  unfold decode
  rw [List.flatMap_map]
  exact List.flatMap_congr fun c hc => h.decodeChar_exchange restore (map_displace_iff.1 hx c hc)

theorem invocation_exchange (h : Interchange codec codec' t) {token : ChainToken}
    (htoken : token.map (displace (codec.encode t)) = token) :
    codec'.invocation (token.map (exchange codec codec')) = codec.invocation token := by
  have hρ := h.exchange_renames
  have hμ := displace_renames (codec.encode t)
  obtain ⟨name, params, source⟩ := token
  simp only [ChainToken.map, ChainToken.mk.injEq] at htoken
  obtain ⟨hname, hparams, hsource⟩ := htoken
  simp only [invocation, ChainToken.map, Invocation.mk.injEq]
  refine ⟨?_, ?_, h.decode_exchange .escaped hsource⟩
  · rw [hρ.trim_map]
    exact h.decode_exchange .literal (by rw [← hμ.trim_map, hname])
  · cases params with
    | none => rfl
    | some params =>
      have hparts : (splitRaw codec.delimiter params).map (List.map (displace (codec.encode t))) =
          splitRaw codec.delimiter params := by
        rw [← hμ.splitRaw_map h.delimiter_public, Option.some.inj hparams]
      simp only [Option.map_some, Option.getD_some, splitParams_eq, h.delimiter,
        hρ.splitRaw_map h.delimiter_public, List.map_map]
      refine List.map_congr_left fun part hpart => h.decode_exchange .literal ?_
      exact List.map_inj_left.1 (hparts.trans (List.map_id _).symm) part hpart

end Interchange

/-! ## Expressions by themselves -/

/-- A text is an expression and nothing else; its place is the whole text. -/
def Recognises (codec : EscapeCodec) (m : Text) (e : Expression) : Prop :=
  ∃ r, Reading.Reads r (codec.encode m) ∧
    e = (codec.expressionOf 0 (codec.encode m) r).placed (Span.behind [] m)

/-- Both codecs recognise the same expressions in a text. -/
theorem Interchange.recognises {codec codec' : EscapeCodec} {m : Text} {e : Expression}
    (h : Interchange codec codec' m) (he : codec.Recognises m e) : codec'.Recognises m e := by
  obtain ⟨r, hr, rfl⟩ := he
  have hencode := h.encode_map (List.Subset.refl m)
  refine ⟨r.map (exchange codec codec'), ?_, ?_⟩
  · rw [Reading.Reads, hencode, h.exchange_renames.read?_map, hr]
    rfl
  · have hfixed := map_displace_of_read? hr
    simp only [Reading.map, Reading.mk.injEq, true_and] at hfixed
    obtain ⟨hseed, htokens, -⟩ := hfixed
    simp only [Expression.placed, expressionOf, Reading.map, hencode, Expression.mk.injEq,
      List.map_map, true_and, and_true]
    refine ⟨(h.decode_exchange .escaped hseed).symm, List.map_congr_left fun token htoken => ?_,
      (h.decode_exchange .escaped (map_displace_iff.2 fun c hc => .inr hc)).symm⟩
    refine (h.invocation_exchange ?_).symm
    exact List.map_inj_left.1 (htokens.trans (List.map_id _).symm) token htoken

theorem placeholder?_bracket {delimiter : Char} (h : delimiter ≠ '[') (t : Text) :
    (avoiding delimiter t).placeholder? '[' = none := by
  rw [placeholder?_eq_none_iff]
  intro hmem
  obtain ⟨entry, hentry, hkey⟩ := List.mem_map.1 hmem
  have hescapable : '[' ∈ escapable delimiter := hkey ▸ (List.of_mem_zip hentry).1
  unfold escapable at hescapable
  split at hescapable
  · exact absurd hescapable (by decide)
  · simp [structural, h.symm] at hescapable

/-- The codec for a text and the codec for a part of it can be interchanged in the part. -/
theorem interchange_of_subset {delimiter : Char} {m t : Text}
    (hd : isPrivateUse delimiter = false) (hfree : LeavesFree 5 t) (hm : m ⊆ t) :
    Interchange (avoiding delimiter t) (avoiding delimiter m) m where
  avoids := (avoiding_avoids delimiter t).of_subset hm
  avoids' := avoiding_avoids delimiter m
  delimiter := rfl
  delimiter_public := hd
  escapable := (avoiding_complete (hfree.of_subset hm)).trans (avoiding_complete hfree).symm

/-- What a codec finds in a text, in resolution order, with the places where it stands in the text
itself. -/
def findPlaced (codec : EscapeCodec) (t : Text) : List Expression :=
  (codec.findAll (codec.encode t)).map fun e => e.placed (codec.spanIn (codec.encode t) e)

theorem Avoids.findPlaced_pairwise {codec : EscapeCodec} {t : Text} (ha : codec.Avoids t) :
    (codec.findPlaced t).Pairwise Expression.Precedes := by
  refine List.pairwise_map.2 ((findAll_pairwise _ _).imp_of_mem fun {e f} he hf hef => ?_)
  obtain ⟨_, _, he⟩ := exists_stands ha he
  obtain ⟨_, _, hf⟩ := exists_stands ha hf
  have hef' := he.offsets_le_iff hf ha
  have hfe' := hf.offsets_le_iff he ha
  unfold Expression.Precedes at *
  simp only [Expression.placed_span] at hef' hfe' ⊢
  omega

end EscapeCodec

/-- The text is an expression, whatever stands around it. -/
def IsExpression (delimiter : Char) (m : Text) (e : Expression) : Prop :=
  (EscapeCodec.avoiding delimiter m).Recognises m e

open EscapeCodec

theorem IsExpression.bracketed {delimiter : Char} {m : Text} {e : Expression}
    (h : IsExpression delimiter m e) : ∃ inner, m = '[' :: inner ++ [']'] := by
  obtain ⟨r, hr, -⟩ := h
  exact (avoiding_avoids delimiter m).bracketed hr

theorem IsExpression.matched_eq {delimiter : Char} {m : Text} {e : Expression}
    (h : IsExpression delimiter m e) : e.matched = m := by
  obtain ⟨r, -, rfl⟩ := h
  exact (avoiding_avoids delimiter m).decode_encode

/-! ## Expressions of a text -/

/-- The expressions of a text in resolution order, with the places where they stand in it. -/
def expressionsAt (delimiter : Char) (t : Text) : List Expression :=
  (expressions delimiter t).map fun e => e.placed (placeOf delimiter t e)

variable {delimiter : Char} {t : Text} {e : Expression}

theorem expressionsAt_pairwise (delimiter : Char) (t : Text) :
    (expressionsAt delimiter t).Pairwise Expression.Precedes :=
  (avoiding_avoids delimiter t).findPlaced_pairwise

theorem stop_le_of_mem_expressionsAt (h : e ∈ expressionsAt delimiter t) :
    e.span.stop ≤ Text.byteLength t := by
  obtain ⟨f, hf, rfl⟩ := List.mem_map.1 h
  exact (placeOf_covers hf).1.stop_le

/-- The expressions of a text are those parts of it that are an expression by themselves. -/
theorem mem_expressionsAt (hbracket : delimiter ≠ '[') (hd : isPrivateUse delimiter = false)
    (hfree : LeavesFree 5 t) : e ∈ expressionsAt delimiter t ↔
      ∃ before m after f, t = before ++ m ++ after ∧ IsExpression delimiter m f ∧
        e = f.placed (Span.behind before m) := by
  have ha := avoiding_avoids delimiter t
  have hsub : ∀ {before m after : Text}, t = before ++ m ++ after → m ⊆ t := by
    rintro before m after rfl c hc
    simp [hc]
  constructor
  · intro he
    obtain ⟨f, hf, rfl⟩ := List.mem_map.1 he
    obtain ⟨before, after, hstands⟩ := exists_stands ha hf
    obtain ⟨r, hr, hfr⟩ := hstands.read
    have hplace : placeOf delimiter t f = Span.behind before f.matched := hstands.spanIn_eq ha
    refine ⟨before, f.matched, after, _, hstands.text_eq,
      (interchange_of_subset hd hfree (hsub hstands.text_eq)).recognises ⟨r, hr, rfl⟩, ?_⟩
    rw [hplace]
    exact congrArg (·.placed (Span.behind before f.matched)) hfr
  · rintro ⟨before, m, after, f, ht, hm, rfl⟩
    obtain ⟨r, hr, rfl⟩ := (interchange_of_subset hd hfree (hsub ht)).symm.recognises hm
    obtain ⟨hmatched, hfound, hstands⟩ := stands_of_reads ha
      (placeholder?_bracket hbracket t) ht hr
    refine List.mem_map.2 ⟨_, hfound, ?_⟩
    have hplace := hstands.spanIn_eq ha
    rw [hmatched] at hplace
    rw [show placeOf delimiter t _ = Span.behind before m from hplace]
    rfl

/-- An expression of a text is found in another one wherever it stands there. -/
theorem exists_expression_of_covers {t' : Text} {s : Span} (hbracket : delimiter ≠ '[')
    (hd : isPrivateUse delimiter = false) (hfree : LeavesFree 5 t) (hfree' : LeavesFree 5 t')
    (he : e ∈ expressions delimiter t) (hs : s.Covers t' e.matched) :
    ∃ f ∈ expressions delimiter t', placeOf delimiter t' f = s ∧ ∀ s', f.placed s' = e.placed s' := by
  have hplaced : e.placed (placeOf delimiter t e) ∈ expressionsAt delimiter t :=
    List.mem_map.2 ⟨e, he, rfl⟩
  obtain ⟨_, m, _, g, -, hm, heg⟩ := (mem_expressionsAt hbracket hd hfree).1 hplaced
  have hmatched : e.matched = m := (congrArg Expression.matched heg).trans hm.matched_eq
  obtain ⟨before, after, ht', rfl⟩ := hs
  rw [hmatched] at ht' ⊢
  have hthere := (mem_expressionsAt hbracket hd hfree').2 ⟨before, m, after, g, ht', hm, rfl⟩
  obtain ⟨f, hf, hfg⟩ := List.mem_map.1 hthere
  refine ⟨f, hf, congrArg Expression.span hfg, fun s' => ?_⟩
  calc f.placed s' = g.placed s' := congrArg (·.placed s') hfg
    _ = e.placed s' := congrArg (·.placed s') heg.symm

/-! ## Expressions of a part -/

/-- The span in a text that has so many more bytes in front. -/
def Span.moved (n : Nat) (s : Span) : Span := ⟨n + s.start, n + s.stop⟩

theorem Span.moved_behind (pre before part : Text) :
    (behind before part).moved (Text.byteLength pre) = behind (pre ++ before) part := by
  simp [moved, behind, Nat.add_assoc]

/-- The expression in such a text. -/
def Expression.moved (n : Nat) (e : Expression) : Expression := e.placed (e.span.moved n)

/-- Of an ordered list those that end up to an offset come first. -/
theorem Expression.exists_append_of_pairwise {es : List Expression}
    (h : es.Pairwise Expression.Precedes) (n : Nat) :
    ∃ rest, es = es.filter (fun e => e.span.stop ≤ n) ++ rest ∧ ∀ e ∈ rest, n < e.span.stop := by
  induction es with
  | nil => exact ⟨[], rfl, by simp⟩
  | cons e es ih =>
    obtain ⟨hfirst, hes⟩ := List.pairwise_cons.1 h
    by_cases he : e.span.stop ≤ n
    · obtain ⟨rest, hrest, hbehind⟩ := ih hes
      refine ⟨rest, ?_, hbehind⟩
      rw [List.filter_cons_of_pos (by simpa using he), List.cons_append, ← hrest]
    · -- behind one that ends later all others do
      have hall : ∀ f ∈ e :: es, n < f.span.stop := by
        intro f hf
        rcases List.mem_cons.1 hf with rfl | hf
        · omega
        · have := hfirst f hf
          unfold Expression.Precedes at this
          omega
      refine ⟨e :: es, ?_, hall⟩
      rw [List.filter_eq_nil_iff.2 fun f hf => by simpa using hall f hf, List.nil_append]

instance : Std.Irrefl Expression.Precedes where
  irrefl e h := by unfold Expression.Precedes at h; omega

instance : Std.Antisymm Expression.Precedes where
  antisymm e f h h' := by unfold Expression.Precedes at h h'; omega

/-- A text keeps its expressions behind a text without opening bracket and before any other text, and
they come first in resolution order. -/
theorem expressionsAt_append {pre post : Text} (hbracket : delimiter ≠ '[')
    (hd : isPrivateUse delimiter = false) (hpre : '[' ∉ pre)
    (hfree : LeavesFree 5 (pre ++ t ++ post)) :
    ∃ extra, expressionsAt delimiter (pre ++ t ++ post) =
        (expressionsAt delimiter t).map (Expression.moved (Text.byteLength pre)) ++ extra ∧
      ∀ e ∈ extra, Text.byteLength (pre ++ t) < e.span.stop := by
  have hsorted := expressionsAt_pairwise delimiter (pre ++ t ++ post)
  obtain ⟨extra, hextra, hbehind⟩ :=
    Expression.exists_append_of_pairwise hsorted (Text.byteLength (pre ++ t))
  refine ⟨extra, ?_, hbehind⟩
  conv_lhs => rw [hextra]
  congr 1
  have hmoved : ((expressionsAt delimiter t).map (Expression.moved (Text.byteLength pre))).Pairwise
      Expression.Precedes := by
    refine List.pairwise_map.2 ((expressionsAt_pairwise delimiter t).imp fun {e f} h => ?_)
    unfold Expression.Precedes at *
    simp only [Expression.moved, Expression.placed_span, Span.moved]
    omega
  -- lists in strict order are the same if they have the same members
  refine (hsorted.filter _).eq_of_mem_iff hmoved fun e => ?_
  have hfree' : LeavesFree 5 t := hfree.of_subset fun c hc => by simp [hc]
  rw [List.mem_filter, mem_expressionsAt hbracket hd hfree, List.mem_map]
  constructor
  · rintro ⟨⟨before, m, after, f, ht, hm, rfl⟩, hle⟩
    obtain ⟨w, hw, -⟩ := Text.exists_eq_append_of_byteLength_le ht.symm
      (by simpa [Span.behind] using hle)
    obtain ⟨before', rfl, rfl⟩ : ∃ before', before = pre ++ before' ∧ t = before' ++ m ++ w := by
      rw [List.append_assoc] at hw
      rcases List.append_eq_append_iff.1 hw with ⟨x, hb, htx⟩ | ⟨x, hp, hx⟩
      · exact ⟨x, hb, by rw [htx, List.append_assoc]⟩
      · -- the opening bracket would stand in `pre`
        obtain ⟨inner, hinner⟩ := hm.bracketed
        cases x with
        | nil => exact ⟨[], by simpa using hp.symm, by simpa using hx.symm⟩
        | cons c x =>
          rw [hinner] at hx
          obtain rfl : '[' = c := List.head_eq_of_cons_eq hx
          exact absurd (by simp [hp]) hpre
    refine ⟨f.placed (Span.behind before' m),
      (mem_expressionsAt hbracket hd hfree').2 ⟨before', m, w, f, rfl, hm, rfl⟩, ?_⟩
    rw [Expression.moved, Expression.placed_placed, Expression.placed_span, Span.moved_behind]
  · rintro ⟨_, he, rfl⟩
    obtain ⟨before, m, after, f, rfl, hm, rfl⟩ := (mem_expressionsAt hbracket hd hfree').1 he
    refine ⟨⟨pre ++ before, m, after ++ post, f, by simp, hm, ?_⟩, ?_⟩
    · rw [Expression.moved, Expression.placed_placed, Expression.placed_span, Span.moved_behind]
    · simp [Expression.moved, Span.moved, Span.behind]

end SeedChain
