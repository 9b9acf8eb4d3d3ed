import SeedChain.Proofs.Boundaries
import SeedChain.Proofs.Stepping
/-!
# What an accepted chain is made of

A lexer that accepts a chain has read groups, and nothing but blanks stands before, between and behind
them (`Lexer.laid_of_tokenize`), and a group closes the parentheses that it opens. A chain that ends at
the first bracket outside parentheses has no bracket in the names of its groups
(`ChainToken.Laid.not_mem_name`). So the groups of an accepted chain can be written one after the other,
with a single blank between neighbours, and so can a whole expression from the parts that were read: it
is read back (`EscapeCodec.Reading.reads_spelling`).
-/

namespace SeedChain

/-! ## Chains -/

/-- The text is the groups in order, with blanks before, between and behind them. -/
inductive ChainToken.Laid : List ChainToken → Text → Prop
  | blank {t : Text} : Text.isBlank t = true → Laid [] t
  | group {blanks rest : Text} {token : ChainToken} {tokens : List ChainToken} :
    Text.isBlank blanks = true → token.IsGroup → Laid tokens rest →
    Laid (token :: tokens) (blanks ++ token.source ++ rest)

open ChainToken

/-- An accepted chain is made of the groups that are read from it. -/
theorem Lexer.laid_of_tokensFrom {l : Lexer} {tokens : List ChainToken}
    (h : l.tokensFrom = .ok tokens) : Laid tokens l.remainder := by
  fun_induction tokensFrom l generalizing tokens with
  | case1 => cases h
  | case2 l after hnext =>
    cases h
    exact .blank (isBlank_of_next hnext)
  | case3 l token after hnext _ ih =>
    cases hafter : after.tokensFrom with
    | error e =>
      rw [hafter] at h
      cases h
    | ok tokens' =>
      rw [hafter] at h
      cases h
      obtain ⟨hgroup, blanks, hblanks, hl⟩ := isGroup_of_next hnext
      rw [hl]
      exact .group hblanks hgroup (ih hafter)

theorem Lexer.laid_of_tokenize {chain : Text} {tokens : List ChainToken}
    (h : tokenize chain = .ok tokens) : Laid tokens chain :=
  laid_of_tokensFrom h

namespace ChainToken.Laid

variable {chain : Text} {tokens : List ChainToken} {token : ChainToken}

theorem isGroup (h : Laid tokens chain) : ∀ token ∈ tokens, token.IsGroup := by
  induction h with
  | blank => simp
  | group _ hgroup _ ih => exact List.forall_mem_cons.2 ⟨hgroup, ih⟩

theorem source_infix (h : Laid tokens chain) : ∀ token ∈ tokens, token.source <:+: chain := by
  induction h with
  | blank => simp
  | @group blanks rest token _ _ _ _ ih =>
    refine List.forall_mem_cons.2 ⟨⟨blanks, rest, rfl⟩, fun other hother => ?_⟩
    exact (ih other hother).trans (List.suffix_append _ _).isInfix

end ChainToken.Laid

/-! ## Marks of a chain -/

namespace ChainToken

variable {token : ChainToken} {tokens : List ChainToken} {chain : Text}

theorem openMarks?_isName {name : Text} (h : Lexer.IsName name) (depth : Nat) :
    openMarks? '(' ')' depth name = some depth :=
  openMarks?_plain h.plain depth

theorem openMarks?_isBlank {gap : Text} (h : Text.isBlank gap = true) (depth : Nat) :
    openMarks? '(' ')' depth gap = some depth := by
  refine openMarks?_plain (fun c hc => ?_) depth
  have hplain := EscapeCodec.plain_of_isBlank h c hc
  simp only [List.mem_cons, not_or] at hplain
  exact ⟨hplain.1, hplain.2.1⟩

/-- A group closes what it opens. -/
theorem IsGroup.openMarks?_source (h : token.IsGroup) (depth : Nat) :
    openMarks? '(' ')' depth token.source = some depth := by
  cases h with
  | bare hname => exact openMarks?_isName hname depth
  | call hname hgap hclosed =>
    have hparams := openMarks?_add (openMarks?_of_closeParams (hclosed [])) (depth + 1)
    simp only [List.append_assoc, openMarks?_append, openMarks?_isName hname,
      openMarks?_isBlank hgap, Option.bind_some]
    simp only [openMarks?, if_true, Nat.add_zero] at hparams ⊢
    rw [hparams]
    simp

/-- Inside the parentheses of a group some are open. -/
theorem openMarks?_inside {name gap params w z : Text} {c : Char} (hname : Lexer.IsName name)
    (hgap : Text.isBlank gap = true) (hclosed : Lexer.Closed params)
    (hparams : params ++ [')'] = w ++ c :: z) (hc : c ≠ ')') :
    openMarks? '(' ')' 0 (name ++ gap ++ ['('] ++ w) ≠ some 0 := by
  have hopened : openMarks? '(' ')' 0 (name ++ gap ++ ['(']) = some 1 := by
    simp only [openMarks?_append, openMarks?_isName hname, Option.bind_some, openMarks?_isBlank hgap]
    rfl
  rcases Text.append_eq_append_cons hparams with ⟨s, hs, -⟩ | ⟨s, -, hs⟩
  · have hclose := openMarks?_of_closeParams (hclosed [])
    rw [hs] at hclose
    obtain ⟨k, hk⟩ := isSome_openMarks?_prefix hclose
    rw [openMarks?_append, hopened, Option.bind_some, openMarks?_add hk 1]
    simp
  · have hmem : c ∈ [')'] := by rw [hs]; simp
    exact absurd (List.mem_singleton.1 hmem) hc

/-- So does an accepted chain. -/
theorem Laid.openMarks?_eq (h : Laid tokens chain) : openMarks? '(' ')' 0 chain = some 0 := by
  induction h with
  | blank hblank => exact openMarks?_isBlank hblank 0
  | group hblanks hgroup _ ih =>
    simp only [openMarks?_append, openMarks?_isBlank hblanks, hgroup.openMarks?_source,
      Option.bind_some, ih]

/-- A character of an accepted chain that is not blank stands in a group, and no parentheses are open before
this group. -/
theorem Laid.exists_source_eq {before behind : Text} {c : Char} (h : Laid tokens chain)
    (hc : Text.isWhite c = false) (hchain : chain = before ++ c :: behind) :
    ∃ token ∈ tokens, ∃ start w z, before = start ++ w ∧ openMarks? '(' ')' 0 start = some 0 ∧
      token.source = w ++ c :: z := by
  have hnot {blanks : Text} (hblanks : Text.isBlank blanks = true) : c ∉ blanks := by
    intro hmem
    rw [List.all_eq_true.1 hblanks c hmem] at hc
    cases hc
  induction h generalizing before with
  | blank hblank => exact absurd (by simp [hchain]) (hnot hblank)
  | @group blanks rest token _ hblanks hgroup _ ih =>
    rw [List.append_assoc] at hchain
    obtain ⟨u, rfl, hbehind⟩ := Text.append_eq_append_cons_of_not_mem hchain (hnot hblanks)
    have hopen := openMarks?_isBlank hblanks 0
    rcases Text.append_eq_append_cons hbehind with ⟨z, hsource, -⟩ | ⟨v, rfl, hrest⟩
    · exact ⟨token, List.mem_cons_self, blanks, u, z, rfl, hopen, hsource⟩
    · obtain ⟨other, hother, start, w, z, rfl, hstart, hsource⟩ := ih hrest
      refine ⟨other, List.mem_cons_of_mem _ hother, blanks ++ token.source ++ start, w, z, by simp, ?_,
        hsource⟩
      simp only [openMarks?_append, hopen, hgroup.openMarks?_source, Option.bind_some, hstart]

end ChainToken

namespace EscapeCodec

/-! ## Names of a chain that ends at its bracket -/

/-- A chain goes on behind a balanced text as if it began there. -/
theorem Balanced.cutChain?_eq {s u rest t : Text} (hs : Balanced s)
    (h : cutChain? 0 (s ++ t) = some (s ++ u, rest)) : cutChain? 0 t = some (u, rest) := by
  rw [hs] at h
  obtain ⟨⟨u', r⟩, hcut, heq⟩ := Option.map_eq_some_iff.1 h
  simp only [Prod.mk.injEq, List.append_cancel_left_eq] at heq
  obtain ⟨rfl, rfl⟩ := heq
  exact hcut

/-- The text that a chain goes on through has no bracket outside parentheses. -/
theorem bracket_not_mem_of_cutChain? {s u rest t : Text} (hs : ∀ c ∈ s, c ≠ '(' ∧ c ≠ ')')
    (h : cutChain? 0 (s ++ t) = some (s ++ u, rest)) : ']' ∉ s := by
  induction s with
  | nil => exact List.not_mem_nil
  | cons c s ih =>
    obtain ⟨hopen, hclose⟩ := hs c (by simp)
    rw [List.cons_append, cutChain?] at h
    split at h
    · cases h
    · rename_i hbracket
      obtain ⟨⟨u', r⟩, hcut, heq⟩ := Option.map_eq_some_iff.1 h
      simp only [List.cons_append, Prod.mk.injEq, List.cons.injEq, true_and] at heq
      obtain ⟨rfl, rfl⟩ := heq
      rw [List.mem_cons, not_or]
      exact ⟨fun hc => hbracket ⟨hc.symm, rfl⟩, ih (fun d hd => hs d (List.mem_cons_of_mem _ hd)) hcut⟩

end EscapeCodec

open EscapeCodec

/-- No name of an accepted chain holds a bracket, since the chain would end there. -/
theorem ChainToken.Laid.not_mem_name {chain rest : Text} {tokens : List ChainToken}
    (h : Laid tokens chain) (hcut : cutChain? 0 (chain ++ ']' :: rest) = some (chain, rest)) :
    ∀ token ∈ tokens, ']' ∉ token.name := by
  induction h with
  | blank => simp
  | @group blanks behind token tokens hblanks hgroup _ ih =>
    simp only [List.append_assoc] at hcut
    have hfirst := (balanced_of_isBlank hblanks).cutChain?_eq hcut
    have hname : ']' ∉ token.name := by
      obtain ⟨params, hsource⟩ := hgroup.exists_source_eq
      rw [hsource, List.append_assoc, List.append_assoc] at hfirst
      exact bracket_not_mem_of_cutChain? hgroup.isName.plain hfirst
    refine List.forall_mem_cons.2 ⟨hname, ih ?_⟩
    exact (balanced_source hgroup hname).cutChain?_eq hfirst

/-! ## An expression from its parts -/

/-- A reading written down, with a single blank between neighbours. -/
def EscapeCodec.Reading.spelling (r : Reading) : Text :=
  '[' :: r.keyword.letters ++ '(' :: r.seed ++ ')' ::
    if r.tokens = [] then [']']
    else " => ".toList ++ Text.join [' '] (r.tokens.map (·.source)) ++ [']']

namespace EscapeCodec

/-- Groups behind an arrow, with single blanks between them, are read back. -/
theorem readTokens?_join {tokens : List ChainToken} (h : ∀ token ∈ tokens, token.IsGroup)
    (hbracket : ∀ token ∈ tokens, ']' ∉ token.name) (rest : Text) :
    readTokens? ("=> ".toList ++ Text.join [' '] (tokens.map (·.source)) ++ ']' :: rest) =
      some (tokens, rest) := by
  have hcut := cutChain?_join h hbracket rest
  exact readTokens?_eq_some_iff.2 (.inr ⟨_, rfl, hcut, Lexer.tokenize_join h⟩)

/-- What has been written down is read back, if the seed ends at its parenthesis and no name holds a
bracket. -/
theorem Reading.reads_spelling {r : Reading}
    (hseed : ∀ gap close, Text.isBlank gap = true → endsSeed close = true →
      cutSeed? 0 (r.seed ++ ')' :: gap ++ close) = some (r.seed, close))
    (h : ∀ token ∈ r.tokens, token.IsGroup) (hbracket : ∀ token ∈ r.tokens, ']' ∉ token.name) :
    r.Reads r.spelling := by
  have hopening : ∃ blanks gap, Text.isBlank blanks = true ∧ Text.isBlank gap = true ∧
      '[' :: r.keyword.letters ++ ['('] = '[' :: blanks ++ r.keyword.letters ++ gap ++ ['('] :=
    ⟨[], [], rfl, rfl, by simp⟩
  refine Reading.reads_iff.2 ?_
  by_cases htokens : r.tokens = []
  · refine ⟨_, [], [']'], ⟨hopening, rfl, hseed, by rw [htokens]; rfl⟩, ?_⟩
    simp [spelling, htokens]
  · refine ⟨_, [' '], _, ⟨hopening, rfl, hseed, readTokens?_join h hbracket []⟩, ?_⟩
    simp [spelling, htokens]

variable {r : Reading} {t opening gap close : Text}

/-- The calls of an expression are groups of its chain. -/
theorem Reading.Written.tokens_laid (h : r.Written opening gap close) :
    (∀ token ∈ r.tokens, token.source <:+: close) ∧ (∀ token ∈ r.tokens, token.IsGroup) ∧
      ∀ token ∈ r.tokens, ']' ∉ token.name := by
  rcases readTokens?_eq_some_iff.1 h.tokens_read with ⟨-, hnil⟩ | ⟨chain, hclose, hcut, htokens⟩
  · simp [hnil]
  · have hlaid := Lexer.laid_of_tokenize htokens
    refine ⟨fun token htoken => ?_, hlaid.isGroup, hlaid.not_mem_name hcut⟩
    rw [hclose]
    exact (hlaid.source_infix token htoken).trans ⟨['=', '>'], [']'], rfl⟩

/-- What has been read can be written down and is read again. -/
theorem Reading.Reads.spelling (h : r.Reads t) : r.Reads r.spelling := by
  obtain ⟨_, _, _, hwritten, -⟩ := Reading.reads_iff.1 h
  obtain ⟨-, hgroup, hbracket⟩ := hwritten.tokens_laid
  exact Reading.reads_spelling hwritten.seed_cut hgroup hbracket

end EscapeCodec

end SeedChain
