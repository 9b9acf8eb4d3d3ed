import SeedChain.Proofs.Lexing
import SeedChain.Proofs.Recognition
/-!
# Renaming private-use characters

No scanner looks at a private-use character for itself: they are neither blank nor structure nor part
of a keyword. So a scanner that reads a text with such characters exchanged for others reads the same,
with the same exchange (`read?_map`, `splitRaw_map`). From this follows that a scanner never makes up
a private-use character (`map_displace_of_read?`).
-/

namespace SeedChain

open EscapeCodec

/-- Exchanges private-use characters for private-use characters, and changes no other one. -/
structure Renames (ρ : Char → Char) : Prop where
  fixed : ∀ c, isPrivateUse c = false → ρ c = c
  privateUse : ∀ c, isPrivateUse c = true → isPrivateUse (ρ c) = true

/-- A token with its characters renamed. -/
def ChainToken.map (ρ : Char → Char) (token : ChainToken) : ChainToken :=
  ⟨token.name.map ρ, token.params.map (List.map ρ), token.source.map ρ⟩

/-- A lexer with the characters that are left renamed. -/
def Lexer.map (ρ : Char → Char) (l : Lexer) : Lexer := ⟨l.position, l.remainder.map ρ⟩

/-- A reading with its characters renamed. -/
def EscapeCodec.Reading.map (ρ : Char → Char) (r : Reading) : Reading :=
  ⟨r.keyword, r.seed.map ρ, r.tokens.map (·.map ρ), r.rest.map ρ⟩

/-- The arguments of an encoded parameter list, placeholders in place. -/
def EscapeCodec.splitRaw (delimiter : Char) (params : Text) : List Text :=
  if params.isBlank then []
  else if Text.hasInfix separator params then Text.splitAround separator params
  else Text.split delimiter params

theorem EscapeCodec.splitParams_eq (codec : EscapeCodec) (params : Text) :
    codec.splitParams params = (splitRaw codec.delimiter params).map (codec.decode .literal) := by
  unfold splitParams splitRaw
  split
  · rfl
  · split <;> rfl

/-- Two parts of a text with their characters renamed. -/
def Text.mapParts (ρ : Char → Char) (parts : Text × Text) : Text × Text :=
  (parts.1.map ρ, parts.2.map ρ)

namespace Text

variable {ρ : Char → Char} {p : Char → Bool}

theorem dropWhile_map_of (h : ∀ c, p (ρ c) = p c) (t : Text) :
    (t.map ρ).dropWhile p = (t.dropWhile p).map ρ := by
  rw [List.dropWhile_map, show p ∘ ρ = p from funext h]

theorem takeWhile_map_of (h : ∀ c, p (ρ c) = p c) (t : Text) :
    (t.map ρ).takeWhile p = (t.takeWhile p).map ρ := by
  rw [List.takeWhile_map, show p ∘ ρ = p from funext h]

theorem splitAround_eq {marker : Text} (hm : marker ≠ []) (t : Text) : splitAround marker t =
    match cut? marker t with
    | none => [t]
    | some (before, after) => before :: splitAround marker after := by
  rw [splitAround, dif_neg hm]
  split <;> simp_all

end Text

namespace Lexer

theorem moveTo_map (ρ : Char → Char) (l : Lexer) (rest : Text) :
    (l.map ρ).moveTo (rest.map ρ) = (l.moveTo rest).map ρ := by
  simp [Lexer.moveTo, Lexer.map]

end Lexer

namespace Renames

variable {ρ : Char → Char} (hρ : Renames ρ)

include hρ

theorem eq_iff {c s : Char} (hs : isPrivateUse s = false) : ρ c = s ↔ c = s := by
  cases hc : isPrivateUse c with
  | false => rw [hρ.fixed c hc]
  | true =>
    constructor
    · intro h
      have := hρ.privateUse c hc
      rw [h, hs] at this
      cases this
    · rintro rfl
      rw [hc] at hs
      cases hs

theorem eq_iff_of_lt {s : Char} (hs : s.toNat < 0xE000) (c : Char) : ρ c = s ↔ c = s :=
  hρ.eq_iff (not_isPrivateUse_of_lt hs)

theorem beq_eq {c s : Char} (hs : isPrivateUse s = false) : (ρ c == s) = (c == s) := by
  rw [Bool.eq_iff_iff, beq_iff_eq, beq_iff_eq, hρ.eq_iff hs]

theorem isWhite_eq (c : Char) : Text.isWhite (ρ c) = Text.isWhite c := by
  cases hc : isPrivateUse c with
  | false => rw [hρ.fixed c hc]
  | true =>
    have hnot : ∀ d, isPrivateUse d = true → Text.isWhite d = false := fun d hd => by
      rw [Bool.eq_false_iff]
      intro hw
      rw [not_isPrivateUse_of_isWhite hw] at hd
      cases hd
    rw [hnot c hc, hnot _ (hρ.privateUse c hc)]

/-! ## Texts -/

theorem trimStart_map (t : Text) : Text.trimStart (t.map ρ) = (Text.trimStart t).map ρ :=
  Text.dropWhile_map_of hρ.isWhite_eq t

theorem trim_map (t : Text) : Text.trim (t.map ρ) = (Text.trim t).map ρ := by
  rw [Text.trim, Text.trim, hρ.trimStart_map, Text.trimEnd, Text.dropEndWhile, ← List.map_reverse,
    Text.dropWhile_map_of hρ.isWhite_eq, ← List.map_reverse]
  rfl

theorem isBlank_map (t : Text) : Text.isBlank (t.map ρ) = Text.isBlank t := by
  rw [Text.isBlank, List.all_map, show Text.isWhite ∘ ρ = Text.isWhite from funext hρ.isWhite_eq]
  rfl

theorem isPrefixOf?_map {p : Text} (hp : ∀ c ∈ p, isPrivateUse c = false) (t : Text) :
    p.isPrefixOf? (t.map ρ) = (p.isPrefixOf? t).map (List.map ρ) := by
  induction p generalizing t with
  | nil => cases t <;> rfl
  | cons c p ih =>
    cases t with
    | nil => rfl
    | cons d t =>
      have hc : (c == ρ d) = (c == d) := by
        rw [BEq.comm, hρ.beq_eq (hp c (by simp)), BEq.comm]
      rw [List.map_cons, List.isPrefixOf?, List.isPrefixOf?, hc, ih fun e he => hp e (by simp [he])]
      split <;> rfl

theorem cut?_map {marker : Text} (hm : ∀ c ∈ marker, isPrivateUse c = false) (t : Text) :
    Text.cut? marker (t.map ρ) = (Text.cut? marker t).map (Text.mapParts ρ) := by
  induction t with
  | nil =>
    rw [List.map_nil, Text.cut?]
    cases h : marker.isPrefixOf? ([] : Text) with
    | none => rfl
    | some rest =>
      obtain ⟨-, rfl⟩ := List.append_eq_nil_iff.1 (Text.eq_of_isPrefixOf? h).symm
      rfl
  | cons c t ih =>
    rw [Text.cut?.eq_def marker (c :: t), Text.cut?.eq_def, hρ.isPrefixOf?_map hm]
    cases marker.isPrefixOf? (c :: t) with
    | some rest => rfl
    | none =>
      simp only [Option.map_none, List.map_cons, ih]
      cases Text.cut? marker t <;> rfl

theorem splitAround_map {marker : Text} (hm : ∀ c ∈ marker, isPrivateUse c = false) (t : Text) :
    Text.splitAround marker (t.map ρ) = (Text.splitAround marker t).map (List.map ρ) := by
  fun_induction Text.splitAround marker t with
  | case1 t hnil =>
    rw [Text.splitAround, dif_pos hnil]
    rfl
  | case2 t hne hnone =>
    rw [Text.splitAround_eq hne, hρ.cut?_map hm, hnone]
    rfl
  | case3 t hne before after hcut _ ih =>
    rw [Text.splitAround_eq hne, hρ.cut?_map hm, hcut]
    simp only [Option.map_some, Text.mapParts, ih, List.map_cons]

theorem split_map {d : Char} (hd : isPrivateUse d = false) (t : Text) :
    Text.split d (t.map ρ) = (Text.split d t).map (List.map ρ) := by
  unfold Text.split
  induction t with
  | nil => rfl
  | cons c t ih =>
    rw [List.map_cons, Text.splitWhen, Text.splitWhen, ih]
    simp only [hρ.beq_eq hd]
    split
    · rfl
    · cases Text.splitWhen (· == d) t <;> rfl

/-! ## Chains -/

theorem closeParams_map (depth : Nat) (t : Text) :
    Lexer.closeParams depth (t.map ρ) = (Lexer.closeParams depth t).map (Text.mapParts ρ) := by
  have hopen := hρ.eq_iff_of_lt (s := '(') (by decide)
  have hclose := hρ.eq_iff_of_lt (s := ')') (by decide)
  induction t generalizing depth with
  | nil => rfl
  | cons c t ih =>
    simp only [List.map_cons, Lexer.closeParams, hopen, hclose, ih]
    split
    · simp only [Option.map_map]
      rfl
    · split
      · cases depth
        · rfl
        · simp only [Option.map_map]
          rfl
      · simp only [Option.map_map]
        rfl

theorem nextNamed_map (l : Lexer) (c : Char) (t : Text) :
    ((l.map ρ).nextNamed (ρ c) (t.map ρ)).1.toOption =
        (l.nextNamed c t).1.toOption.map (Option.map (ChainToken.map ρ)) ∧
      ((l.map ρ).nextNamed (ρ c) (t.map ρ)).2 = (l.nextNamed c t).2.map ρ := by
  have hopen := hρ.eq_iff_of_lt (s := '(') (by decide)
  have hclose (c : Char) : (ρ c == ')') = (c == ')') :=
    hρ.beq_eq (not_isPrivateUse_of_lt (by decide))
  have hname (c : Char) : Lexer.isNameChar (ρ c) = Lexer.isNameChar c := by
    simp only [Lexer.isNameChar, hρ.isWhite_eq, bne,
      hρ.beq_eq (s := '(') (not_isPrivateUse_of_lt (by decide))]
  have hfind : (ρ c :: (t.takeWhile Lexer.isNameChar).map ρ).findIdx? (· == ')') =
      (c :: t.takeWhile Lexer.isNameChar).findIdx? (· == ')') := by
    rw [← List.map_cons, List.findIdx?_map]
    exact congrArg (List.findIdx? · _) (funext hclose)
  have hmoved : (l.map ρ).moveTo ((t.dropWhile Lexer.isNameChar).map ρ) =
      (l.moveTo (t.dropWhile Lexer.isNameChar)).map ρ := Lexer.moveTo_map ρ l _
  simp only [Lexer.nextNamed, Text.takeWhile_map_of hname, Text.dropWhile_map_of hname, hfind, hmoved]
  generalize l.moveTo (t.dropWhile Lexer.isNameChar) = named
  cases (c :: t.takeWhile Lexer.isNameChar).findIdx? (· == ')') with
  | some offset => exact ⟨rfl, rfl⟩
  | none =>
    have hgap : (named.map ρ).remainder.takeWhile Text.isWhite =
        (named.remainder.takeWhile Text.isWhite).map ρ := Text.takeWhile_map_of hρ.isWhite_eq _
    have hbehind : (named.map ρ).remainder.dropWhile Text.isWhite =
        (named.remainder.dropWhile Text.isWhite).map ρ := Text.dropWhile_map_of hρ.isWhite_eq _
    simp only [hgap, hbehind]
    -- a parenthesis behind the blanks opens the parameters; anything else begins the next group
    rcases named.remainder.dropWhile Text.isWhite with _ | ⟨d, inner⟩
    · exact ⟨rfl, rfl⟩
    · by_cases hd : d = '('
      · have hρd : ρ d = '(' := (hopen d).2 hd
        subst hd
        simp only [List.map_cons, hρd, hρ.closeParams_map]
        cases Lexer.closeParams 0 inner with
        | none => exact ⟨rfl, Lexer.moveTo_map ρ named []⟩
        | some parts =>
          have hend : ρ ')' = ')' := hρ.fixed _ (not_isPrivateUse_of_lt (by decide))
          refine ⟨?_, Lexer.moveTo_map ρ named parts.2⟩
          simp [Text.mapParts, Except.toOption, ChainToken.map, hρd, hend]
      · have hρd : ρ d ≠ '(' := fun h => hd ((hopen d).1 h)
        simp only [List.map_cons]
        split
        · rename_i heq
          exact absurd (List.head_eq_of_cons_eq heq) hρd
        · split
          · rename_i heq
            exact absurd (List.head_eq_of_cons_eq heq) hd
          · exact ⟨rfl, rfl⟩

/-- A group is read alike, and as much is left behind it. -/
theorem next_map (l : Lexer) :
    (l.map ρ).next.1.toOption = l.next.1.toOption.map (Option.map (ChainToken.map ρ)) ∧
      (l.map ρ).next.2 = l.next.2.map ρ := by
  have htrim : Text.trimStart (l.map ρ).remainder = (Text.trimStart l.remainder).map ρ :=
    hρ.trimStart_map l.remainder
  rw [Lexer.next_eq, Lexer.next_eq, htrim]
  cases Text.trimStart l.remainder with
  | nil => exact ⟨rfl, Lexer.moveTo_map ρ l []⟩
  | cons c t =>
    have hopen := hρ.eq_iff_of_lt (s := '(') (by decide) c
    have hmoved := Lexer.moveTo_map ρ l (c :: t)
    rw [List.map_cons] at hmoved
    simp only [List.map_cons, hopen, hmoved]
    split
    · exact ⟨rfl, rfl⟩
    · exact hρ.nextNamed_map _ c t

theorem tokensFrom_map (l : Lexer) :
    (l.map ρ).tokensFrom.toOption = l.tokensFrom.toOption.map (List.map (ChainToken.map ρ)) := by
  rw [Lexer.tokensFrom_eq (l.map ρ)]
  fun_induction Lexer.tokensFrom l with
  | case1 l e after h =>
    obtain ⟨htoken, -⟩ := hρ.next_map l
    rw [h] at htoken
    generalize (l.map ρ).next = found at htoken
    rcases found with ⟨_ | _ | token', after'⟩
    · rfl
    · cases htoken
    · cases htoken
  | case2 l after h =>
    obtain ⟨htoken, -⟩ := hρ.next_map l
    rw [h] at htoken
    generalize (l.map ρ).next = found at htoken
    rcases found with ⟨_ | _ | token', after'⟩
    · cases htoken
    · rfl
    · cases htoken
  | case3 l token after h _ ih =>
    obtain ⟨htoken, hafter⟩ := hρ.next_map l
    rw [h] at htoken hafter
    generalize (l.map ρ).next = found at htoken hafter
    rcases found with ⟨_ | _ | token', after'⟩
    · cases htoken
    · cases htoken
    · cases htoken
      obtain rfl : after' = after.map ρ := hafter
      rw [← Lexer.tokensFrom_eq] at ih
      simp only
      generalize (after.map ρ).tokensFrom = tokens' at ih
      generalize after.tokensFrom = tokens at ih
      cases tokens <;> cases tokens' <;> cases ih <;> rfl

theorem tokenize_map (t : Text) : (Lexer.tokenize (t.map ρ)).toOption =
    (Lexer.tokenize t).toOption.map (List.map (ChainToken.map ρ)) :=
  hρ.tokensFrom_map (.start t)

/-! ## Expressions -/

theorem readPrefix?_map (t : Text) : Keyword.readPrefix? (t.map ρ) =
    (Keyword.readPrefix? t).map fun r => (r.1, r.2.map ρ) := by
  have hletters (k : Keyword) : ∀ c ∈ k.letters, isPrivateUse c = false :=
    not_isPrivateUse_of_all (by cases k <;> decide)
  unfold Keyword.readPrefix?
  rw [List.map_findSome?]
  congr 1
  funext k
  simp [hρ.isPrefixOf?_map (hletters k), Function.comp_def]

theorem readOpening?_map (t : Text) : readOpening? (t.map ρ) =
    (readOpening? t).map fun r => (r.1, r.2.map ρ) := by
  unfold readOpening?
  rw [hρ.trimStart_map, hρ.readPrefix?_map]
  rcases Keyword.readPrefix? (Text.trimStart t) with _ | ⟨k, rest⟩
  · rfl
  · simp only [Option.map_some, Option.bind_eq_bind, Option.bind_some, hρ.trimStart_map]
    rcases Text.trimStart rest with _ | ⟨c, seed⟩
    · rfl
    · have hopen := hρ.eq_iff_of_lt (s := '(') (by decide) c
      by_cases hc : c = '('
      · have hρc : ρ c = '(' := hopen.2 hc
        subst hc
        simp [hρc]
      · simp [hc, hopen]

theorem endsSeed_map (t : Text) : endsSeed (t.map ρ) = endsSeed t := by
  cases t with
  | nil => rfl
  | cons c t =>
    rw [List.map_cons, endsSeed_cons, endsSeed_cons,
      hρ.beq_eq (not_isPrivateUse_of_lt (by decide)), hρ.beq_eq (not_isPrivateUse_of_lt (by decide))]
    cases t with
    | nil => rfl
    | cons d t =>
      have hd : (ρ d == '>') = (d == '>') := hρ.beq_eq (not_isPrivateUse_of_lt (by decide))
      simpa using congrArg (fun b => (c == ']' || c == '=' && b)) hd

theorem cutSeed?_map (depth : Nat) (t : Text) :
    cutSeed? depth (t.map ρ) =
      (cutSeed? depth t).map (Text.mapParts ρ) := by
  induction t generalizing depth with
  | nil => rfl
  | cons c t ih =>
    simp only [List.map_cons, cutSeed?, hρ.trimStart_map, hρ.endsSeed_map, ih,
      hρ.eq_iff_of_lt (s := ')') (by decide), hρ.eq_iff_of_lt (s := '[') (by decide),
      hρ.eq_iff_of_lt (s := ']') (by decide)]
    split
    · rfl
    · simp only [Option.map_map]
      rfl

theorem cutChain?_map (depth : Nat) (t : Text) :
    cutChain? depth (t.map ρ) =
      (cutChain? depth t).map (Text.mapParts ρ) := by
  induction t generalizing depth with
  | nil => rfl
  | cons c t ih =>
    simp only [List.map_cons, cutChain?, ih,
      hρ.eq_iff_of_lt (s := ')') (by decide), hρ.eq_iff_of_lt (s := '(') (by decide),
      hρ.eq_iff_of_lt (s := ']') (by decide)]
    split
    · rfl
    · simp only [Option.map_map]
      rfl

theorem readTokens?_map (t : Text) : readTokens? (t.map ρ) =
    (readTokens? t).map fun r => (r.1.map (ChainToken.map ρ), r.2.map ρ) := by
  have hfixed {c : Char} (hc : c.toNat < 0xE000) : ρ c = c :=
    hρ.fixed c (not_isPrivateUse_of_lt hc)
  cases hends : endsSeed t with
  | false =>
    rw [readTokens?_eq_none hends,
      readTokens?_eq_none ((hρ.endsSeed_map t).trans hends)]
    rfl
  | true =>
    unfold endsSeed at hends
    split at hends
    · rw [List.map_cons, hfixed (c := ']') (by decide)]
      rfl
    · simp only [List.map_cons, hfixed (c := '=') (by decide), hfixed (c := '>') (by decide),
        readTokens?, Option.bind_eq_bind, hρ.cutChain?_map]
      rename_i u
      rcases cutChain? 0 u with _ | ⟨chain, rest⟩
      · rfl
      · simp only [Option.map_some, Option.bind_some, Text.mapParts, hρ.tokenize_map]
        cases (Lexer.tokenize chain).toOption <;> rfl
    · cases hends

/-- An expression is read alike. -/
theorem read?_map (t : Text) :
    read? (t.map ρ) = (read? t).map (Reading.map ρ) := by
  have hopen := hρ.eq_iff_of_lt (s := '[') (by decide)
  rcases t with _ | ⟨c, t⟩
  · rfl
  · by_cases hc : c = '['
    · have hρc : ρ c = '[' := (hopen c).2 hc
      subst hc
      simp only [List.map_cons, hρc, read?, Option.bind_eq_bind, hρ.readOpening?_map]
      rcases readOpening? t with _ | ⟨k, behind⟩
      · rfl
      · simp only [Option.map_some, Option.bind_some, hρ.cutSeed?_map]
        rcases cutSeed? 0 behind with _ | ⟨seed, close⟩
        · rfl
        · simp only [Option.map_some, Option.bind_some, Text.mapParts, hρ.readTokens?_map]
          rcases readTokens? close with _ | ⟨tokens, rest⟩ <;> rfl
    · simp [read?, hc, hopen]

/-! ## Arguments -/

theorem hasInfix_map {marker : Text} (hm : ∀ c ∈ marker, isPrivateUse c = false) (t : Text) :
    Text.hasInfix marker (t.map ρ) = Text.hasInfix marker t := by
  rw [Text.hasInfix, Text.hasInfix, hρ.cut?_map hm, Option.isSome_map]

/-- Arguments are split alike. -/
theorem splitRaw_map {delimiter : Char} (hd : isPrivateUse delimiter = false) (t : Text) :
    splitRaw delimiter (t.map ρ) = (splitRaw delimiter t).map (List.map ρ) := by
  have hseparator : ∀ c ∈ separator, isPrivateUse c = false := not_isPrivateUse_of_all (by decide)
  unfold splitRaw
  rw [hρ.isBlank_map, hρ.hasInfix_map hseparator]
  split
  · rfl
  · split
    · exact hρ.splitAround_map hseparator t
    · exact hρ.split_map hd t

end Renames

/-! ## Private-use characters come from the text -/

/-- The private-use characters of the second text are characters of the first one. -/
def OnlyOf (t x : Text) : Prop := ∀ c ∈ x, isPrivateUse c = false ∨ c ∈ t

/-- Moves every private-use character that is not in the text. -/
def displace (t : Text) (c : Char) : Char :=
  if isPrivateUse c = true ∧ c ∉ t then if c = '\uE000' then '\uE001' else '\uE000' else c

theorem displace_renames (t : Text) : Renames (displace t) where
  fixed c hc := by simp [displace, hc]
  privateUse c hc := by
    unfold displace
    split
    · split <;> decide
    · exact hc

theorem displace_eq_iff {t : Text} {c : Char} :
    displace t c = c ↔ isPrivateUse c = false ∨ c ∈ t := by
  unfold displace
  split
  · rename_i h
    constructor
    · intro heq
      split at heq
      · rename_i hc
        rw [hc] at heq
        exact absurd heq (by decide)
      · rename_i hc
        exact absurd heq.symm hc
    · rintro (hc | hc)
      · rw [hc] at h
        cases h.1
      · exact absurd hc h.2
  · rename_i h
    have : isPrivateUse c = false ∨ c ∈ t := by
      by_contra hnot
      rw [not_or, Bool.not_eq_false] at hnot
      exact h hnot
    simp [this]

theorem map_displace_iff {t x : Text} : x.map (displace t) = x ↔ OnlyOf t x := by
  constructor
  · intro h c hc
    exact displace_eq_iff.1 (List.map_inj_left.1 (h.trans (List.map_id x).symm) c hc)
  · intro h
    exact (List.map_congr_left fun c hc => displace_eq_iff.2 (h c hc)).trans (List.map_id x)

/-- No scanner makes up a private-use character. -/
theorem EscapeCodec.map_displace_of_read? {t : Text} {r : Reading}
    (h : read? t = some r) : r.map (displace t) = r := by
  have hread := (displace_renames t).read?_map t
  rw [map_displace_iff.2 fun c hc => .inr hc, h] at hread
  exact (Option.some.inj hread).symm

end SeedChain
