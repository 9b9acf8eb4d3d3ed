import SeedChain.Proofs.Placeholders
import SeedChain.Proofs.Spans
/-!
# What the scanners read

A candidate is read in three parts: its opening, its seed and its chain. Each scanner takes a leading
part of the text and decides on it alone, whatever follows, so the same holds of a whole expression
(`read?_eq`, `Reading.Reads`). Turning placeholders back comes after that (`expressionAt?_eq`).

Main result: an expression is what is read from a leading part of the text, which begins and ends with
a bracket and reads the same by itself (`expressionAt?_eq_some_iff`).
-/

namespace SeedChain

namespace Text

theorem exists_trimStart (t : Text) : ∃ blanks, isBlank blanks = true ∧ t = blanks ++ trimStart t :=
  ⟨t.takeWhile isWhite, by simp [isBlank], (List.takeWhile_append_dropWhile ..).symm⟩

theorem trimStart_append {blanks : Text} (h : isBlank blanks = true) (t : Text) :
    trimStart (blanks ++ t) = trimStart t := by
  induction blanks with
  | nil => rfl
  | cons c blanks ih =>
    simp only [isBlank, List.all_cons, Bool.and_eq_true] at h
    simpa [trimStart, h.1] using ih h.2

theorem trimStart_cons {c : Char} (h : isWhite c = false) (t : Text) :
    trimStart (c :: t) = c :: t := by
  simp [trimStart, h]

/-- A character behind two parts of a text stands in one of them. -/
theorem append_eq_append_cons {x y w z : Text} {c : Char} (h : x ++ y = w ++ c :: z) :
    (∃ s, x = w ++ c :: s ∧ z = s ++ y) ∨ ∃ s, w = x ++ s ∧ y = s ++ c :: z := by
  rcases List.append_eq_append_iff.1 h with ⟨s, hw, hy⟩ | ⟨s, hx, hz⟩
  · exact .inr ⟨s, hw, hy⟩
  · cases s with
    | nil => exact .inr ⟨[], by simpa using hx.symm, by simpa using hz.symm⟩
    | cons d s =>
      obtain ⟨rfl, rfl⟩ := List.cons.inj hz
      exact .inl ⟨s, hx, rfl⟩

theorem append_eq_append_cons_of_not_mem {x y w z : Text} {c : Char} (h : x ++ y = w ++ c :: z)
    (hc : c ∉ x) :
    ∃ s, w = x ++ s ∧ y = s ++ c :: z := by
  rcases append_eq_append_cons h with ⟨s, rfl, -⟩ | h
  · exact absurd (by simp) hc
  · exact h

end Text

namespace Keyword

theorem exists_cons_letters (k : Keyword) :
    ∃ c t, k.letters = c :: t ∧ Text.isWhite c = false := by
  cases k <;> exact ⟨_, _, rfl, by decide⟩

theorem readPrefix?_letters (k : Keyword) (rest : Text) :
    readPrefix? (k.letters ++ rest) = some (k, rest) := by
  cases k <;> rfl

theorem readPrefix?_eq {k : Keyword} {t rest : Text} (h : readPrefix? t = some (k, rest)) :
    t = k.letters ++ rest := by
  obtain ⟨k', -, hk⟩ := List.exists_of_findSome?_eq_some h
  obtain ⟨r, hr, heq⟩ := Option.map_eq_some_iff.1 hk
  obtain ⟨rfl, rfl⟩ := Prod.mk.inj heq
  exact Text.eq_of_isPrefixOf? hr

end Keyword

namespace EscapeCodec

/-! ## Each scanner decides on what it takes -/

theorem readOpening?_eq_some_iff {k : Keyword} {t rest : Text} :
    readOpening? t = some (k, rest) ↔ ∃ blanks gap, Text.isBlank blanks = true ∧
      Text.isBlank gap = true ∧ t = blanks ++ k.letters ++ gap ++ '(' :: rest := by
  constructor
  · intro h
    simp only [readOpening?, Option.bind_eq_bind, Option.bind_eq_some_iff] at h
    obtain ⟨⟨k', behind⟩, hprefix, hopen⟩ := h
    obtain ⟨blanks, hblanks, ht⟩ := Text.exists_trimStart t
    obtain ⟨gap, hgap, hbehind⟩ := Text.exists_trimStart behind
    simp only at hopen
    split at hopen
    · rename_i seed hseed
      cases hopen
      refine ⟨blanks, gap, hblanks, hgap, ?_⟩
      rw [ht, Keyword.readPrefix?_eq hprefix, hbehind, hseed]
      simp
    · cases hopen
  · rintro ⟨blanks, gap, hblanks, hgap, rfl⟩
    obtain ⟨c, l, hk, hc⟩ := k.exists_cons_letters
    have htrim : Text.trimStart (blanks ++ k.letters ++ gap ++ '(' :: rest) =
        k.letters ++ (gap ++ '(' :: rest) := by
      rw [List.append_assoc, List.append_assoc, Text.trimStart_append hblanks, hk, List.cons_append,
        Text.trimStart_cons hc]
    simp only [readOpening?, htrim, Keyword.readPrefix?_letters, Option.bind_eq_bind,
      Option.bind_some, Text.trimStart_append hgap]
    rw [Text.trimStart_cons (by decide)]
    rfl

theorem readOpening?_eq {k : Keyword} {t rest : Text} (h : readOpening? t = some (k, rest)) :
    ∃ taken, t = taken ++ rest ∧ ∀ rest', readOpening? (taken ++ rest') = some (k, rest') := by
  obtain ⟨blanks, gap, hblanks, hgap, rfl⟩ := readOpening?_eq_some_iff.1 h
  exact ⟨blanks ++ k.letters ++ gap ++ ['('], by simp, fun rest' =>
    readOpening?_eq_some_iff.2 ⟨blanks, gap, hblanks, hgap, by simp⟩⟩

theorem endsSeed_cons (c : Char) (t : Text) :
    endsSeed (c :: t) = (c == ']' || (c == '=' && t.head? == some '>')) := by
  unfold endsSeed
  split
  · simp_all
  · simp_all
  · rename_i hclose harrow
    cases t <;> simp_all

theorem endsSeed_append {t : Text} (h : endsSeed t = true) (u : Text) : endsSeed (t ++ u) = true := by
  unfold endsSeed at h
  split at h
  · rfl
  · rfl
  · cases h

/-- What ends a seed stands behind the blanks. -/
theorem trimStart_of_endsSeed {gap close : Text} (hgap : Text.isBlank gap = true)
    (hclose : endsSeed close = true) : Text.trimStart (gap ++ close) = close := by
  rw [Text.trimStart_append hgap]
  unfold endsSeed at hclose
  split at hclose
  · exact Text.trimStart_cons (by decide) _
  · exact Text.trimStart_cons (by decide) _
  · cases hclose

/-- What ends a seed is decided before the parenthesis that ends it. -/
theorem endsSeed_trimStart_append (s u v : Text) :
    endsSeed (Text.trimStart (s ++ ')' :: u)) = endsSeed (Text.trimStart (s ++ ')' :: v)) := by
  induction s with
  | nil => rw [List.nil_append, List.nil_append, Text.trimStart_cons (by decide),
      Text.trimStart_cons (by decide)]; rfl
  | cons c s ih =>
    cases hc : Text.isWhite c with
    | true => simpa [Text.trimStart, hc] using ih
    | false =>
      rw [List.cons_append, List.cons_append, Text.trimStart_cons hc, Text.trimStart_cons hc]
      cases s <;> simp [endsSeed_cons]

/-- Where a seed ends does not depend on the blanks behind its parenthesis, nor on which of the two
ends follows them. -/
theorem cutSeed?_eq {depth : Nat} {t seed close : Text}
    (h : cutSeed? depth t = some (seed, close)) :
    ∃ gap, Text.isBlank gap = true ∧ t = seed ++ ')' :: gap ++ close ∧
      ∀ gap' close', Text.isBlank gap' = true → endsSeed close' = true →
        cutSeed? depth (seed ++ ')' :: gap' ++ close') = some (seed, close') := by
  induction t generalizing depth seed with
  | nil => cases h
  | cons c t ih =>
    rw [cutSeed?] at h
    split at h
    · rename_i hend
      cases h
      obtain ⟨rfl, rfl, hclose⟩ := hend
      obtain ⟨gap, hgap, ht⟩ := Text.exists_trimStart t
      refine ⟨gap, hgap, by simp [← ht], fun gap' close' hgap' hclose' => ?_⟩
      simp [cutSeed?, trimStart_of_endsSeed hgap' hclose', hclose']
    · rename_i hend
      obtain ⟨⟨s, r⟩, hs, heq⟩ := Option.map_eq_some_iff.1 h
      cases heq
      obtain ⟨gap, hgap, ht, hcut⟩ := ih hs
      refine ⟨gap, hgap, by simp [ht], fun gap' close' hgap' hclose' => ?_⟩
      -- whether a parenthesis ends the seed is seen before the one that does
      have hsame : endsSeed (Text.trimStart (s ++ ')' :: gap' ++ close')) =
          endsSeed (Text.trimStart t) := by
        rw [ht, List.append_assoc, List.append_assoc]
        exact endsSeed_trimStart_append s _ _
      rw [List.cons_append, List.cons_append, cutSeed?, hsame, if_neg hend]
      simp only [hcut gap' close' hgap' hclose', Option.map_some]

theorem cutChain?_eq {depth : Nat} {t chain rest : Text}
    (h : cutChain? depth t = some (chain, rest)) :
    t = chain ++ ']' :: rest ∧
      ∀ rest', cutChain? depth (chain ++ ']' :: rest') = some (chain, rest') := by
  induction t generalizing depth chain with
  | nil => cases h
  | cons c t ih =>
    rw [cutChain?] at h
    split at h
    · rename_i hend
      cases h
      obtain ⟨rfl, rfl⟩ := hend
      exact ⟨rfl, fun rest' => by simp [cutChain?]⟩
    · rename_i hend
      obtain ⟨⟨s, r⟩, hs, heq⟩ := Option.map_eq_some_iff.1 h
      cases heq
      obtain ⟨ht, hcut⟩ := ih hs
      refine ⟨by simp [ht], fun rest' => ?_⟩
      rw [List.cons_append, cutChain?, if_neg hend]
      simp only [hcut rest', Option.map_some]

/-! ## A whole expression -/

/-- What is read from an opening bracket on, placeholders in place. -/
structure Reading where
  keyword : Keyword
  seed : Text
  tokens : List ChainToken
  /-- The text behind the expression. -/
  rest : Text

/-- The tokens of a chain, from the `]` or `=>` behind the seed on, and the text behind them. -/
def readTokens? : Text → Option (List ChainToken × Text)
  | ']' :: rest => some ([], rest)
  | '=' :: '>' :: t => do
    let (chain, rest) ← cutChain? 0 t
    let tokens ← (Lexer.tokenize chain).toOption
    return (tokens, rest)
  | _ => none

/-- The expression that begins with the first character of an encoded text. -/
def read? : Text → Option Reading
  | '[' :: inner => do
    let (keyword, behind) ← readOpening? inner
    let (seed, close) ← cutSeed? 0 behind
    let (tokens, rest) ← readTokens? close
    return ⟨keyword, seed, tokens, rest⟩
  | _ => none

/-- The expression that a reading stands for, `matched` being what has been read. -/
def expressionOf (codec : EscapeCodec) (offset : Nat) (matched : Text) (r : Reading) : Expression where
  keyword := r.keyword
  seed := codec.decode .escaped r.seed
  invocations := r.tokens.map codec.invocation
  matched := codec.decode .escaped matched
  span := ⟨offset, offset + Text.byteLength matched⟩

theorem readCalls?_eq (codec : EscapeCodec) (t : Text) :
    codec.readCalls? t = (readTokens? t).map fun r => (r.1.map codec.invocation, r.2) := by
  unfold readCalls? readTokens?
  split
  · rfl
  · rename_i t
    simp only [readChain, Option.bind_eq_bind]
    rcases cutChain? 0 t with _ | ⟨chain, rest⟩
    · rfl
    · simp only [Option.bind_some]
      cases Lexer.tokenize chain <;> rfl
  · simp

theorem expressionAt?_eq (codec : EscapeCodec) (offset : Nat) (t : Text) :
    codec.expressionAt? offset t = (read? t).map fun r =>
      codec.expressionOf offset (t.take (t.length - r.rest.length)) r := by
  unfold expressionAt? read?
  split
  · rename_i inner
    simp only [readCalls?_eq, Option.bind_eq_bind]
    rcases readOpening? inner with _ | ⟨k, behind⟩
    · rfl
    · simp only [Option.bind_some]
      rcases cutSeed? 0 behind with _ | ⟨seed, close⟩
      · rfl
      · simp only [Option.bind_some]
        rcases readTokens? close with _ | ⟨tokens, rest⟩ <;> rfl
  · simp

theorem readTokens?_eq_none {t : Text} (h : endsSeed t = false) : readTokens? t = none := by
  unfold readTokens?
  split
  · cases h
  · cases h
  · rfl

theorem readTokens?_eq {t rest : Text} {tokens : List ChainToken}
    (h : readTokens? t = some (tokens, rest)) :
    ∃ taken, t = taken ++ rest ∧ taken.getLast? = some ']' ∧ endsSeed taken = true ∧
      ∀ rest', readTokens? (taken ++ rest') = some (tokens, rest') := by
  unfold readTokens? at h
  split at h
  · cases h
    exact ⟨[']'], rfl, rfl, rfl, fun _ => rfl⟩
  · rename_i t
    simp only [Option.bind_eq_bind, Option.bind_eq_some_iff] at h
    obtain ⟨⟨chain, rest'⟩, hcut, tokens', htokens, heq⟩ := h
    cases heq
    obtain ⟨rfl, hcut'⟩ := cutChain?_eq hcut
    refine ⟨'=' :: '>' :: chain ++ [']'], by simp, List.getLast?_concat, rfl, fun rest' => ?_⟩
    have h := hcut' rest'
    simp only [readTokens?, List.cons_append, List.append_assoc, List.nil_append, h,
      Option.bind_eq_bind, Option.bind_some, htokens]
    rfl
  · cases h

/-- The text is one expression and nothing else, which is read as this. -/
def Reading.Reads (r : Reading) (t : Text) : Prop := read? t = some { r with rest := [] }

theorem read?_eq {t : Text} {r : Reading} (h : read? t = some r) :
    ∃ inner, t = '[' :: inner ++ ']' :: r.rest ∧
      ∀ rest', read? ('[' :: inner ++ ']' :: rest') = some { r with rest := rest' } := by
  unfold read? at h
  split at h
  · rename_i t
    simp only [Option.bind_eq_bind, Option.bind_eq_some_iff] at h
    obtain ⟨⟨k, behind⟩, hopen, ⟨seed, close⟩, hseed, ⟨tokens, rest⟩, htokens, heq⟩ := h
    cases heq
    -- each scanner has read what the one before it left
    obtain ⟨opening, rfl, hopen'⟩ := readOpening?_eq hopen
    obtain ⟨gap, hgap, rfl, hseed'⟩ := cutSeed?_eq hseed
    obtain ⟨taken, rfl, hlast, hends, htokens'⟩ := readTokens?_eq htokens
    obtain ⟨init, rfl⟩ := List.getLast?_eq_some_iff.1 hlast
    refine ⟨opening ++ seed ++ ')' :: gap ++ init, by simp, fun rest' => ?_⟩
    have ho := hopen' (seed ++ ')' :: gap ++ (init ++ [']'] ++ rest'))
    have hs := hseed' gap (init ++ [']'] ++ rest') hgap (endsSeed_append hends rest')
    simp only [List.append_assoc, List.cons_append, List.nil_append] at ho hs
    have ht := htokens' rest'
    simp only [List.append_assoc, List.cons_append, List.nil_append] at ht
    simp [read?, ho, hs, ht]
  · cases h

/-- A reading depends on what has been read alone. -/
theorem read?_iff_reads {t : Text} {r : Reading} :
    read? t = some r ↔ ∃ matched, t = matched ++ r.rest ∧ r.Reads matched := by
  constructor
  · intro h
    obtain ⟨inner, ht, hread⟩ := read?_eq h
    exact ⟨'[' :: inner ++ [']'], by simpa using ht, hread []⟩
  · rintro ⟨matched, rfl, hreads⟩
    obtain ⟨inner, hm, hread⟩ := read?_eq hreads
    simpa [hm] using hread r.rest

theorem Reading.Reads.bracketed {r : Reading} {t : Text} (h : r.Reads t) :
    ∃ inner, t = '[' :: inner ++ [']'] := by
  obtain ⟨inner, ht, -⟩ := read?_eq h
  exact ⟨inner, ht⟩

/-! ## The parts of an expression -/

/-- What stands behind a seed is read as calls only if it begins with what ends a seed. -/
theorem endsSeed_of_readTokens? {t : Text} {found : List ChainToken × Text}
    (h : readTokens? t = some found) : endsSeed t = true := by
  by_contra hends
  rw [readTokens?_eq_none (Bool.eq_false_iff.2 hends)] at h
  cases h

/-- An expression goes on behind its seed with the bracket, or with the arrow and a chain. -/
theorem readTokens?_eq_some_iff {t rest : Text} {tokens : List ChainToken} :
    readTokens? t = some (tokens, rest) ↔ (t = ']' :: rest ∧ tokens = []) ∨
      ∃ chain, t = '=' :: '>' :: chain ++ ']' :: rest ∧
        cutChain? 0 (chain ++ ']' :: rest) = some (chain, rest) ∧
        Lexer.tokenize chain = .ok tokens := by
  constructor
  · intro h
    unfold readTokens? at h
    split at h
    · cases h
      exact .inl ⟨rfl, rfl⟩
    · rename_i t
      simp only [Option.bind_eq_bind, Option.bind_eq_some_iff] at h
      obtain ⟨⟨chain, rest'⟩, hcut, tokens', htokens, heq⟩ := h
      cases heq
      obtain ⟨rfl, hcut'⟩ := cutChain?_eq hcut
      refine .inr ⟨chain, rfl, hcut' _, ?_⟩
      cases hlexed : Lexer.tokenize chain with
      | error e => simp [hlexed, Except.toOption] at htokens
      | ok tokens' => simpa [hlexed, Except.toOption] using htokens
    · cases h
  · rintro (⟨rfl, rfl⟩ | ⟨chain, rfl, hcut, htokens⟩)
    · rfl
    · simp only [readTokens?, List.cons_append, hcut, htokens, Except.toOption, Option.bind_eq_bind,
        Option.bind_some]
      rfl

/-- The ways to write an expression: an opening up to its parenthesis, the seed, the parenthesis that
ends the seed with blanks behind it, and the closing bracket or a chain. -/
structure Reading.Written (r : Reading) (opening gap close : Text) : Prop where
  opening_eq : ∃ blanks gap, Text.isBlank blanks = true ∧ Text.isBlank gap = true ∧
    opening = '[' :: blanks ++ r.keyword.letters ++ gap ++ ['(']
  gap_blank : Text.isBlank gap = true
  /-- The seed ends at its parenthesis, whatever blanks and whichever end follow. -/
  seed_cut : ∀ gap' close', Text.isBlank gap' = true → endsSeed close' = true →
    cutSeed? 0 (r.seed ++ ')' :: gap' ++ close') = some (r.seed, close')
  tokens_read : readTokens? close = some (r.tokens, [])

theorem Reading.reads_iff {r : Reading} {t : Text} : r.Reads t ↔
    ∃ opening gap close, r.Written opening gap close ∧
      t = opening ++ r.seed ++ ')' :: gap ++ close := by
  unfold Reading.Reads
  constructor
  · intro h
    unfold read? at h
    split at h
    · simp only [Option.bind_eq_bind, Option.bind_eq_some_iff] at h
      obtain ⟨⟨k, behind⟩, hopen, ⟨seed, close⟩, hseed, ⟨tokens, rest⟩, htokens, heq⟩ := h
      cases heq
      obtain ⟨blanks, gap, hblanks, hgap, rfl⟩ := readOpening?_eq_some_iff.1 hopen
      obtain ⟨gap', hgap', rfl, hcut⟩ := cutSeed?_eq hseed
      exact ⟨'[' :: blanks ++ r.keyword.letters ++ gap ++ ['('], gap', close,
        ⟨⟨blanks, gap, hblanks, hgap, rfl⟩, hgap', hcut, htokens⟩, by simp⟩
    · cases h
  · rintro ⟨_, gap, close, ⟨⟨blanks, gap', hblanks, hgap', rfl⟩, hgap, hcut, htokens⟩, rfl⟩
    have hopen : readOpening? (blanks ++ r.keyword.letters ++ gap' ++ '(' ::
        (r.seed ++ ')' :: gap ++ close)) = some (r.keyword, r.seed ++ ')' :: gap ++ close) :=
      readOpening?_eq_some_iff.2 ⟨blanks, gap', hblanks, hgap', rfl⟩
    have hseed := hcut gap close hgap (endsSeed_of_readTokens? htokens)
    simp only [List.append_assoc, List.cons_append, List.nil_append] at hopen hseed ⊢
    simp only [read?, hopen, hseed, htokens, Option.bind_eq_bind, Option.bind_some]
    rfl

theorem Reading.Reads.seed_infix {r : Reading} {t : Text} (h : r.Reads t) : r.seed <:+: t := by
  obtain ⟨opening, gap, close, -, rfl⟩ := Reading.reads_iff.1 h
  exact ⟨opening, ')' :: gap ++ close, by simp⟩

theorem expressionAt?_eq_some_iff {codec : EscapeCodec} {offset : Nat} {t : Text} {e : Expression} :
    codec.expressionAt? offset t = some e ↔
      ∃ matched after r, t = matched ++ after ∧ Reading.Reads r matched ∧
        e = codec.expressionOf offset matched r := by
  rw [expressionAt?_eq, Option.map_eq_some_iff]
  constructor
  · rintro ⟨r, hread, rfl⟩
    obtain ⟨matched, rfl, hreads⟩ := read?_iff_reads.1 hread
    exact ⟨matched, r.rest, r, rfl, hreads, by simp⟩
  · rintro ⟨matched, after, r, rfl, hreads, rfl⟩
    exact ⟨{ r with rest := after }, read?_iff_reads.2 ⟨matched, rfl, hreads⟩,
      by simp [expressionOf]⟩

end EscapeCodec

end SeedChain
