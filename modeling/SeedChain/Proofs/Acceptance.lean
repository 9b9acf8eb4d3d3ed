import SeedChain.Proofs.Tokenizing
/-!
# Which chains are accepted

A chain is accepted when its parentheses pair up and each one that opens outside parentheses stands behind
a name (`Lexer.IsChain`). One direction reads this off the groups of an accepted chain. The other goes
along the calls: none of them fails on such a text (`Lexer.IsChain.next_ne_error`), and what stands behind
a group is such a text again (`Lexer.IsChain.rest`).

Main result: `Lexer.tokenize_accepts_iff`, with what the position of an error points at.
-/

namespace SeedChain

variable {l after : Lexer} {token : ChainToken} {tokens : List ChainToken} {e : LexError}
  {chain before behind name gap blanks t : Text}

/-- The position of an error is that of a parenthesis of the text. -/
def LexError.PointsInto (t : Text) : LexError → Prop
  | .unbalancedParen _ position => t[position]? = some ')'
  | .unterminated _ position => t[position]? = some '('
  | .missingName position => t[position]? = some '('

namespace Lexer

/-- A parenthesis can open behind the text: blanks aside, it ends with a character, and this one closes no
parameters. -/
def EndsInName (t : Text) : Prop :=
  ∃ start c gap, t = start ++ c :: gap ∧ Text.isWhite c = false ∧ c ≠ ')' ∧ Text.isBlank gap = true

/-- The grammar of chains. -/
structure IsChain (t : Text) : Prop where
  closes_opened : ∀ before, before <+: t → before.count ')' ≤ before.count '('
  closes_all : t.count ')' = t.count '('
  opens_named : ∀ before behind, t = before ++ '(' :: behind → before.count '(' = before.count ')' →
    EndsInName before

/-- The grammar in terms of the parentheses that are open. -/
theorem isChain_iff : IsChain t ↔ openMarks? '(' ')' 0 t = some 0 ∧
    ∀ before behind, t = before ++ '(' :: behind → openMarks? '(' ')' 0 before = some 0 →
      EndsInName before := by
  have hmarks (x : Text) : openMarks? '(' ')' 0 x = some 0 ↔
      (∀ part, part <+: x → part.count ')' ≤ part.count '(') ∧ x.count '(' = x.count ')' :=
    openMarks?_eq_some_iff (by decide)
  constructor
  · intro h
    refine ⟨(hmarks t).2 ⟨h.closes_opened, h.closes_all.symm⟩, fun before behind ht hbefore => ?_⟩
    exact h.opens_named before behind ht ((hmarks before).1 hbefore).2
  · rintro ⟨hopen, hnamed⟩
    obtain ⟨hparts, hall⟩ := (hmarks t).1 hopen
    refine ⟨hparts, hall.symm, fun before behind ht hcount => hnamed before behind ht ?_⟩
    have hbefore : before <+: t := ⟨_, ht.symm⟩
    exact (hmarks before).2 ⟨fun part hpart => hparts part (hpart.trans hbefore), hcount⟩

/-! ## What accepted chains are like -/

theorem EndsInName.append (h : EndsInName t) (before : Text) : EndsInName (before ++ t) := by
  obtain ⟨start, c, gap, rfl, hc⟩ := h
  exact ⟨before ++ start, c, gap, (List.append_assoc ..).symm, hc⟩

theorem IsName.endsInName (h : IsName name) (hgap : Text.isBlank gap = true) :
    EndsInName (name ++ gap) := by
  obtain ⟨start, c, rfl⟩ := (List.eq_nil_or_concat' name).resolve_left h.1
  obtain ⟨hname, hclose⟩ := h.2 c (by simp)
  exact ⟨start, c, gap, by simp, (isNameChar_iff.1 hname).1, hclose, hgap⟩

/-- The character that a text ends in stands in its second part, or this part is blank. -/
theorem EndsInName.of_append (h : EndsInName (t ++ before)) :
    EndsInName before ∨ EndsInName t ∧ Text.isBlank before = true := by
  obtain ⟨start, c, gap, hsplit, hwhite, hclose, hgap⟩ := h
  rcases Text.append_eq_append_cons hsplit with ⟨s, rfl, rfl⟩ | ⟨start, -, hbefore⟩
  · rw [Text.isBlank, List.all_append, Bool.and_eq_true] at hgap
    exact .inr ⟨⟨start, c, s, rfl, hwhite, hclose, hgap.1⟩, hgap.2⟩
  · exact .inl ⟨start, c, gap, hbefore, hwhite, hclose, hgap⟩

theorem not_endsInName_close (t : Text) : ¬ EndsInName (t ++ [')']) := by
  intro h
  rcases h.of_append with ⟨start, c, gap, hlast, -, hclose, -⟩ | ⟨-, hblank⟩
  · have hmem : c ∈ [')'] := by rw [hlast]; simp
    exact hclose (List.mem_singleton.1 hmem)
  · exact absurd hblank (by decide)

end Lexer

open Lexer

namespace ChainToken

/-- Where a group opens a parenthesis outside parentheses, a name stands before it. -/
theorem IsGroup.opens_named (h : token.IsGroup) (hsource : token.source = before ++ '(' :: behind)
    (hbefore : openMarks? '(' ')' 0 before = some 0) : EndsInName before := by
  cases h with
  | @bare name hname =>
    have hmem : '(' ∈ name := by
      rw [show name = before ++ '(' :: behind from hsource]
      simp
    exact absurd rfl (hname.plain _ hmem).1
  | @call name gap params hname hgap hclosed =>
    have hopening : '(' ∉ name ++ gap := by
      intro hmem
      rcases List.mem_append.1 hmem with hmem | hmem
      · exact absurd rfl (hname.plain _ hmem).1
      · exact absurd (List.all_eq_true.1 hgap _ hmem) (by decide)
    have hsplit : name ++ gap ++ ('(' :: (params ++ [')'])) = before ++ '(' :: behind := by
      simpa using hsource
    obtain ⟨w, rfl, hparams⟩ := Text.append_eq_append_cons_of_not_mem hsplit hopening
    cases w with
    | nil =>
      rw [List.append_nil]
      exact hname.endsInName hgap
    | cons c w =>
      obtain ⟨rfl, hinside⟩ := List.cons.inj hparams
      refine absurd ?_ (openMarks?_inside hname hgap hclosed hinside (by decide))
      simpa using hbefore

/-- So does an accepted chain. -/
theorem Laid.opens_named (h : Laid tokens chain) (hchain : chain = before ++ '(' :: behind)
    (hbefore : openMarks? '(' ')' 0 before = some 0) : EndsInName before := by
  obtain ⟨token, htoken, start, w, z, rfl, hstart, hsource⟩ := h.exists_source_eq (by decide) hchain
  rw [openMarks?_append, hstart, Option.bind_some] at hbefore
  exact ((h.isGroup token htoken).opens_named hsource hbefore).append start

end ChainToken

namespace Lexer

theorem isChain_of_laid (h : ChainToken.Laid tokens chain) : IsChain chain :=
  isChain_iff.2 ⟨h.openMarks?_eq, fun _ _ => h.opens_named⟩

/-! ## Such chains are accepted -/

namespace IsChain

theorem next_ne_error (h : IsChain l.remainder) : l.next.1 ≠ .error e := by
  intro herror
  have hstep := step_next l
  rw [herror] at hstep
  obtain ⟨hopen, hnamed⟩ := isChain_iff.1 h
  generalize l.next.2 = after at hstep
  cases hstep with
  | nameless hblanks hl =>
    -- blanks do not end in a name
    obtain ⟨start, c, gap, rfl, hwhite, -⟩ := hnamed _ _ hl (ChainToken.openMarks?_isBlank hblanks 0)
    have hblank := List.all_eq_true.1 hblanks c (by simp)
    rw [hwhite] at hblank
    cases hblank
  | unbalanced hblanks hplain hl =>
    rw [hl] at hopen
    simp only [openMarks?_append, ChainToken.openMarks?_isBlank hblanks, openMarks?_plain hplain,
      Option.bind_some] at hopen
    simp [openMarks?] at hopen
  | unterminated hblanks hname hgap hclose hl =>
    obtain ⟨n, hn⟩ := openMarks?_of_closeParams_eq_none hclose
    rw [hl] at hopen
    simp only [openMarks?_append, ChainToken.openMarks?_isBlank hblanks,
      ChainToken.openMarks?_isName hname, ChainToken.openMarks?_isBlank hgap, Option.bind_some] at hopen
    simp [openMarks?, hn] at hopen

/-- Behind a group the grammar holds again. -/
theorem rest (h : IsChain l.remainder) (hnext : l.next = (.ok (some token), after)) :
    IsChain after.remainder := by
  have hstep := step_next l
  rw [hnext] at hstep
  obtain ⟨hopen, hnamed⟩ := isChain_iff.1 h
  cases hstep with
  | @group blanks rest _ hblanks hgroup hbare hl =>
    have hread (x : Text) : openMarks? '(' ')' 0 (blanks ++ token.source ++ x) =
        openMarks? '(' ')' 0 x := by
      simp [openMarks?_append, ChainToken.openMarks?_isBlank hblanks, hgroup.openMarks?_source]
    refine isChain_iff.2 ⟨by rwa [hl, hread] at hopen, fun before behind hrest hbefore => ?_⟩
    change rest = before ++ '(' :: behind at hrest
    have hends := hnamed (blanks ++ token.source ++ before) behind (by rw [hl, hrest]; simp)
      (by rwa [hread])
    rcases hends.of_append with hends | ⟨hends, hgap⟩
    · exact hends
    · -- only blanks stand between the group and the parenthesis
      have htrim : Text.trimStart rest = '(' :: behind := by
        rw [hrest, Text.trimStart_append hgap, Text.trimStart_cons (by decide)]
      cases hgroup with
      | bare => exact absurd htrim (hbare rfl behind)
      | call =>
        rw [← List.append_assoc] at hends
        exact absurd hends (not_endsInName_close _)

/-- No call fails, so the end is reached. -/
theorem exists_tokensFrom (h : IsChain l.remainder) : ∃ tokens, l.tokensFrom = .ok tokens := by
  fun_induction tokensFrom l with
  | case1 l e after hnext => exact absurd (by rw [hnext]) (h.next_ne_error (e := e))
  | case2 => exact ⟨[], rfl⟩
  | case3 l token after hnext _ ih =>
    obtain ⟨tokens, htokens⟩ := ih (h.rest hnext)
    exact ⟨token :: tokens, by rw [htokens]; rfl⟩

end IsChain

/-! ## What an error points at -/

/-- Wherever a call fails, the position is that of the parenthesis at fault. -/
theorem pointsInto_of_next (hl : l.StandsIn chain) (h : l.next.1 = .error e) : e.PointsInto chain := by
  obtain ⟨read, rfl, hposition⟩ := hl
  have hstep := step_next l
  rw [h] at hstep
  generalize l.next.2 = after at hstep
  cases hstep with
  | nameless _ hrest | unbalanced _ _ hrest | unterminated _ _ _ _ hrest =>
    simp [LexError.PointsInto, hposition, hrest]

theorem pointsInto_of_tokenize (h : tokenize chain = .error e) : e.PointsInto chain := by
  obtain ⟨tokens, after, hreads, hends⟩ := exists_reads (start chain)
  rw [← tokenize, h] at hends
  rcases hends with ⟨hok, -⟩ | ⟨e', herror, hnext⟩
  · cases hok
  · cases herror
    exact pointsInto_of_next (hreads.standsIn (standsIn_start chain)) hnext

/-! ## Parentheses of a list of parameters -/

/-- What is read of a list of parameters, from its own parenthesis on: up to the one that closes it, or
everything. -/
def listRead (inner : Text) : Text :=
  match closeParams 0 inner with
  | some (params, _) => '(' :: params ++ [')']
  | none => '(' :: inner

/-- Wherever reading stands in a list, no more parentheses have been closed than opened. -/
theorem exists_openMarks?_listRead {inner part : Text} (h : part <+: listRead inner) :
    ∃ depth, openMarks? '(' ')' 0 part = some depth := by
  have hall : ∃ depth, openMarks? '(' ')' 0 (listRead inner) = some depth := by
    unfold listRead
    split
    · rename_i params rest hclose
      have hparams := openMarks?_add (openMarks?_of_closeParams hclose) 1
      refine ⟨0, ?_⟩
      rw [List.cons_append, openMarks?, if_pos rfl, openMarks?_append, hparams]
      rfl
    · rename_i hclose
      obtain ⟨n, hn⟩ := openMarks?_of_closeParams_eq_none hclose
      exact ⟨n + 1, hn⟩
  obtain ⟨depth, hdepth⟩ := hall
  obtain ⟨behind, hbehind⟩ := h
  rw [← hbehind] at hdepth
  exact isSome_openMarks?_prefix hdepth

/-- A chain is accepted if and only if no part at its beginning closes more parentheses than it opens, it
closes all of them, and each one that opens outside parentheses stands behind a name. The position of an
error is that of a closing parenthesis in a name, or of one that opens a list without a name or without an
end. While a list is read, the number of open parentheses never goes below zero. -/
theorem tokenize_accepts_iff (chain : Text) :
    ((∃ tokens, tokenize chain = .ok tokens) ↔ IsChain chain) ∧
    (∀ e, tokenize chain = .error e → e.PointsInto chain) ∧
    ∀ inner, '(' :: inner <:+ chain → ∀ part, part <+: listRead inner →
      ∃ depth, openMarks? '(' ')' 0 part = some depth := by
  refine ⟨⟨?_, fun h => ?_⟩, fun e => pointsInto_of_tokenize,
    fun inner _ part => exists_openMarks?_listRead⟩
  · rintro ⟨tokens, htokens⟩
    exact isChain_of_laid (laid_of_tokenize htokens)
  · exact h.exists_tokensFrom (l := start chain)

/-- A list that is never closed, behind one with parentheses inside. -/
theorem tokenize_accepts_iff_unterminated :
    let chain : Text := "f (x(y)) g(z".toList
    let inner : Text := "x(y)) g(z".toList
    let e : LexError := .unterminated ['g'] 10
    tokenize chain = .error e ∧ '(' :: inner <:+ chain ∧ "(x(y".toList <+: listRead inner ∧
    ((∃ tokens, tokenize chain = .ok tokens) ↔ IsChain chain) ∧ e.PointsInto chain ∧
    ∃ depth, openMarks? '(' ')' 0 "(x(y".toList = some depth := by
  intro chain inner e
  have htokens : tokenize chain = .error e := by decide +kernel
  have hinner : '(' :: inner <:+ chain := ⟨"f ".toList, rfl⟩
  have hpart : "(x(y".toList <+: listRead inner := ⟨"))".toList, by decide⟩
  obtain ⟨haccepts, hpoints, hopen⟩ := tokenize_accepts_iff chain
  exact ⟨htokens, hinner, hpart, haccepts, hpoints e htokens, hopen inner hinner _ hpart⟩

end Lexer

end SeedChain
