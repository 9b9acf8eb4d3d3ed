import SeedChain.Proofs.Pieces
import SeedChain.Proofs.Placeholders
/-!
# Writing a text with escapes

A text becomes data inside an expression when a backslash is put before each of its characters that
carries structure (`escape`). Its encoding has a placeholder there and nothing else changed
(`encode_escape`), so no structure is left in it (`not_mem_shield`), and decoding gives the text back
(`decode_shield`, `unescape_escape`). The encoding of texts with a mark between neighbours can be
taken piece by piece (`encode_join_append`).
-/

namespace SeedChain

namespace EscapeCodec

/-! ## Escaped texts -/

/-- The text with a backslash before each character that can be escaped. -/
def escape (delimiter : Char) (t : Text) : Text :=
  t.flatMap fun c => if c ∈ escapable delimiter then ['\\', c] else [c]

/-- The text with a placeholder for each character that can be escaped. -/
def shield (codec : EscapeCodec) (t : Text) : Text :=
  t.map fun c => (codec.placeholder? c).getD c

variable {codec : EscapeCodec} {delimiter : Char} {s t : Text}

theorem mem_escapable_iff {c : Char} :
    c ∈ escapable delimiter ↔ c ∈ structural ∨ c = delimiter := by
  unfold escapable
  split
  · rename_i h
    exact ⟨.inl, fun hc => hc.elim id fun hc => hc ▸ h⟩
  · simp

theorem escape_cons (c : Char) (t : Text) : escape delimiter (c :: t) =
    (if c ∈ escapable delimiter then ['\\', c] else [c]) ++ escape delimiter t := by
  simp [escape]

theorem escape_append (s t : Text) :
    escape delimiter (s ++ t) = escape delimiter s ++ escape delimiter t := by
  simp [escape]

theorem escape_eq_self (h : ∀ c ∈ t, c ∉ escapable delimiter) :
    escape delimiter t = t := by
  induction t with
  | nil => rfl
  | cons c t ih =>
    rw [escape_cons, if_neg (h c List.mem_cons_self), ih fun d hd => h d (List.mem_cons_of_mem c hd)]
    rfl

theorem getLast?_escape (t : Text) : (escape delimiter t).getLast? = t.getLast? := by
  rcases List.eq_nil_or_concat t with rfl | ⟨s, c, rfl⟩
  · rfl
  · rw [List.concat_eq_append, escape_append, escape_cons]
    split <;> simp [escape]

/-! ## Encoding -/

theorem encode_eq_self (h : '\\' ∉ t) : codec.encode t = t := by
  fun_induction encode codec t with
  | case1 => rfl
  | case2 => rfl
  | case3 => simp at h
  | case4 => simp at h
  | case5 c d t hc ih => rw [ih fun hmem => h (List.mem_cons_of_mem _ hmem)]

/-- A backslash stands before every escaped character, and the codec knows the pair. -/
theorem encode_escape (hcodec : codec.Complete) (hslash : codec.delimiter ≠ '\\') (t : Text) :
    codec.encode (escape codec.delimiter t) = codec.shield t := by
  have hback : codec.placeholder? '\\' = none := by
    rw [hcodec.placeholder?_eq_none_iff, mem_escapable_iff]
    rintro (h | h)
    · exact absurd h (by decide)
    · exact hslash h.symm
  induction t with
  | nil => rfl
  | cons c t ih =>
    rw [escape_cons, shield, List.map_cons, ← shield, ← ih]
    split
    · rename_i hc
      obtain ⟨p, hp⟩ : ∃ p, codec.placeholder? c = some p := by
        rw [← Option.ne_none_iff_exists', Ne, hcodec.placeholder?_eq_none_iff]
        exact not_not_intro hc
      rw [List.cons_append, List.singleton_append, encode, if_pos rfl, hp]
      rfl
    · rename_i hc
      rw [hcodec.placeholder?_eq_none_iff.2 hc, encode_append]
      · rfl
      · -- what is written for the next character begins with a backslash or is not escaped
        refine .inr fun a ha => ?_
        cases t with
        | nil => cases ha
        | cons b t =>
          rw [escape_cons] at ha
          split at ha
          · rw [← Option.some.inj ha, hback]
          · rename_i hb
            rw [← Option.some.inj ha, hcodec.placeholder?_eq_none_iff.2 hb]

theorem encode_plain_append (codec : EscapeCodec) (h : '\\' ∉ s) (t : Text) :
    codec.encode (s ++ t) = s ++ codec.encode t := by
  rw [encode_append (.inl fun hlast => h (List.mem_of_getLast? hlast)), encode_eq_self h]

theorem encode_escape_append (hcodec : codec.Complete) (hslash : codec.delimiter ≠ '\\')
    (hlast : s.getLast? ≠ some '\\') (t : Text) :
    codec.encode (escape codec.delimiter s ++ t) = codec.shield s ++ codec.encode t := by
  rw [encode_append (.inl (getLast?_escape s ▸ hlast)), encode_escape hcodec hslash]

/-- Texts that are encoded by themselves, whatever follows, can be joined. -/
theorem encode_join_append {separator : Text} (hseparator : '\\' ∉ separator) {pieces : List Text}
    (hpieces : ∀ p ∈ pieces, ∀ u, codec.encode (p ++ u) = codec.encode p ++ codec.encode u)
    (t : Text) :
    codec.encode (Text.join separator pieces ++ t) =
      Text.join separator (pieces.map codec.encode) ++ codec.encode t := by
  induction pieces with
  | nil => rfl
  | cons p pieces ih =>
    rw [List.map_cons, Text.join_cons, Text.join_cons, List.append_assoc, hpieces p (by simp)]
    cases pieces with
    | nil => simp
    | cons q pieces =>
      have hrest := ih fun q hq => hpieces q (List.mem_cons_of_mem _ hq)
      rw [if_neg (by simp), if_neg (by simp), List.append_assoc, encode_plain_append codec hseparator,
        hrest]
      simp only [List.append_assoc]

/-! ## Shielded texts -/

theorem mem_shield {c : Char} (h : c ∈ codec.shield t) :
    (∃ a ∈ t, codec.placeholder? a = some c) ∨ (c ∈ t ∧ codec.placeholder? c = none) := by
  obtain ⟨a, ha, hc⟩ := List.mem_map.1 h
  cases hp : codec.placeholder? a with
  | none =>
    obtain rfl : a = c := by simpa [hp] using hc
    exact .inr ⟨ha, hp⟩
  | some p =>
    obtain rfl : p = c := by simpa [hp] using hc
    exact .inl ⟨a, ha, hp⟩

/-- A public character that can be escaped is no longer in the text. -/
theorem not_mem_shield (ha : codec.Avoids s) (hcodec : codec.Complete) {c : Char}
    (hpublic : isPrivateUse c = false) (hc : c ∈ escapable codec.delimiter ∨ c ∉ t) :
    c ∉ codec.shield t := by
  intro h
  rcases mem_shield h with ⟨a, -, hp⟩ | ⟨hmem, hp⟩
  · rw [isPrivateUse_of_placeholder? ha hp] at hpublic
    cases hpublic
  · rw [hcodec.placeholder?_eq_none_iff] at hp
    exact hc.elim hp fun hnot => hnot hmem

theorem decode_shield (ha : codec.Avoids t) : codec.decode .literal (codec.shield t) = t := by
  induction t with
  | nil => rfl
  | cons c t ih =>
    have ht := ih (ha.of_subset fun a h => List.mem_cons_of_mem _ h)
    rw [shield, List.map_cons, ← shield, ← List.singleton_append, decode_append, ht]
    cases hp : codec.placeholder? c with
    | none => rw [Option.getD_none, ha.decode_singleton _ (.inr (by simp))]; rfl
    | some p => simp [decode, decodeChar, ha.original?_of_placeholder? hp]

theorem subset_escape (t : Text) : t ⊆ escape delimiter t := by
  intro c hc
  refine List.mem_flatMap.2 ⟨c, hc, ?_⟩
  split <;> simp

theorem unescape_escape (hslash : delimiter ≠ '\\') (hfree : LeavesFree 5 (escape delimiter t)) :
    unescape delimiter (escape delimiter t) = t := by
  have hencode := encode_escape (avoiding_complete hfree) hslash t
  have ha := (avoiding_avoids delimiter (escape delimiter t)).of_subset (subset_escape t)
  calc unescape delimiter (escape delimiter t)
      = (avoiding delimiter (escape delimiter t)).decode .literal
          ((avoiding delimiter (escape delimiter t)).shield t) :=
            congrArg (decode _ .literal) hencode
    _ = t := decode_shield ha

end EscapeCodec

end SeedChain
