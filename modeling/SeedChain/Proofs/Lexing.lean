import Mathlib.Tactic.Common
import SeedChain.Chain.Lexer
/-!
# Groups of a chain

What a lexer reads next depends on the text behind the blanks alone (`Lexer.next_eq`). A group is a
name, or a name with a list of parameters that the next parenthesis closes; it is read whole as long
as what follows cannot belong to it (`ChainToken.IsGroup.exists_next_eq`). So groups written one after
the other, with a blank between neighbours, are read back (`Lexer.tokensFrom_join`).
-/

namespace SeedChain

namespace Lexer

/-- Reads the group that begins with `c`, which is no parenthesis. -/
def nextNamed (l : Lexer) (c : Char) (t : Text) : Except LexError (Option ChainToken) × Lexer :=
  let name := c :: t.takeWhile isNameChar
  let named := l.moveTo (t.dropWhile isNameChar)
  match name.findIdx? (· == ')') with
  | some offset => (.error (.unbalancedParen name (l.position + offset)), named)
  | none =>
    let gap := named.remainder.takeWhile Text.isWhite
    match named.remainder.dropWhile Text.isWhite with
    | '(' :: inner =>
      match closeParams 0 inner with
      | some (params, rest) =>
        let source := name ++ gap ++ '(' :: params ++ [')']
        (.ok (some ⟨name, some params, source⟩), named.moveTo rest)
      | none =>
        (.error (.unterminated name (named.position + gap.length)), named.moveTo [])
    | _ => (.ok (some (.bare name)), named)

theorem next_eq (l : Lexer) : l.next =
    match Text.trimStart l.remainder with
    | [] => (.ok none, l.moveTo [])
    | c :: t =>
      if c = '(' then
        (.error (.missingName (l.moveTo (c :: t)).position), l.moveTo (c :: t))
      else (l.moveTo (c :: t)).nextNamed c t := by
  unfold next
  cases h : Text.trimStart l.remainder with
  | nil => rfl
  | cons c t =>
    by_cases hc : c = '('
    · subst hc
      rfl
    · simp only [hc, if_false]
      split
      · rename_i heq
        cases heq
      · rename_i heq
        cases heq
        exact absurd rfl hc
      · rename_i heq
        cases heq
        rfl

theorem tokensFrom_eq (l : Lexer) : l.tokensFrom =
    match l.next with
    | (.error e, _) => .error e
    | (.ok none, _) => .ok []
    | (.ok (some token), after) => (token :: ·) <$> after.tokensFrom := by
  rw [tokensFrom]
  split <;> simp_all

/-! ## Names and parameter lists -/

/-- A name is not empty, and no blank or parenthesis is in it. -/
def IsName (name : Text) : Prop := name ≠ [] ∧ ∀ c ∈ name, isNameChar c = true ∧ c ≠ ')'

/-- The parenthesis behind the parameters is the one that closes them. -/
def Closed (params : Text) : Prop :=
  ∀ rest, closeParams 0 (params ++ ')' :: rest) = some (params, rest)

theorem isNameChar_iff {c : Char} : isNameChar c = true ↔ Text.isWhite c = false ∧ c ≠ '(' := by
  simp [isNameChar]

theorem IsName.plain {name : Text} (h : IsName name) : ∀ c ∈ name, c ≠ '(' ∧ c ≠ ')' := by
  intro c hc
  obtain ⟨hname, hclose⟩ := h.2 c hc
  exact ⟨(isNameChar_iff.1 hname).2, hclose⟩

theorem closed_of_no_parens {params : Text} (h : ∀ c ∈ params, c ≠ '(' ∧ c ≠ ')') :
    Closed params := by
  intro rest
  induction params with
  | nil => rfl
  | cons c params ih =>
    obtain ⟨hopen, hclose⟩ := h c (by simp)
    rw [List.cons_append, closeParams, if_neg hopen, if_neg hclose,
      ih fun d hd => h d (List.mem_cons_of_mem _ hd)]
    rfl

/-- Behind a name the text goes on with something that neither continues it nor opens parameters. -/
def EndsName (rest : Text) : Prop :=
  rest.takeWhile isNameChar = [] ∧ ∀ inner, Text.trimStart rest ≠ '(' :: inner

theorem endsName_nil : EndsName [] := ⟨rfl, fun _ => nofun⟩

@[simp]
theorem remainder_moveTo (l : Lexer) (rest : Text) : (l.moveTo rest).remainder = rest := rfl

variable {l : Lexer} {c : Char} {t gap params rest : Text}

theorem span_isNameChar (hname : ∀ c ∈ t, isNameChar c = true) (hrest : rest.takeWhile isNameChar = []) :
    (t ++ rest).takeWhile isNameChar = t ∧ (t ++ rest).dropWhile isNameChar = rest := by
  have hdrop : rest.dropWhile isNameChar = rest := by
    simpa [hrest] using List.takeWhile_append_dropWhile (p := isNameChar) (l := rest)
  rw [List.takeWhile_append_of_pos hname, List.dropWhile_append_of_pos hname, hrest, hdrop,
    List.append_nil]
  exact ⟨rfl, rfl⟩

theorem IsName.findIdx?_eq_none (h : IsName t) : t.findIdx? (· == ')') = none := by
  rw [List.findIdx?_eq_none_iff]
  intro c hc
  simpa using (h.2 c hc).2

theorem nextNamed_bare (hname : IsName (c :: t)) (hrest : EndsName rest) :
    l.nextNamed c (t ++ rest) = (.ok (some (.bare (c :: t))), l.moveTo rest) := by
  obtain ⟨htake, hdrop⟩ :=
    span_isNameChar (fun d hd => (hname.2 d (List.mem_cons_of_mem _ hd)).1) hrest.1
  simp only [nextNamed, htake, hdrop, hname.findIdx?_eq_none]
  split
  · rename_i inner hinner
    exact absurd hinner (hrest.2 inner)
  · rfl

theorem nextNamed_call (hname : IsName (c :: t)) (hgap : Text.isBlank gap = true)
    (hparams : Closed params) :
    l.nextNamed c (t ++ (gap ++ '(' :: params ++ [')'] ++ rest)) =
      (.ok (some ⟨c :: t, some params, c :: t ++ gap ++ '(' :: params ++ [')']⟩),
        (l.moveTo (gap ++ '(' :: params ++ [')'] ++ rest)).moveTo rest) := by
  have hwhite : ∀ d ∈ gap, Text.isWhite d = true := by simpa [Text.isBlank] using hgap
  have hend : (gap ++ '(' :: params ++ [')'] ++ rest).takeWhile isNameChar = [] := by
    cases gap with
    | nil => rfl
    | cons d gap =>
      have hd : isNameChar d = false := by simp [isNameChar, hwhite d (by simp)]
      exact List.takeWhile_cons_of_neg (by simp [hd])
  obtain ⟨htake, hdrop⟩ :=
    span_isNameChar (fun d hd => (hname.2 d (List.mem_cons_of_mem _ hd)).1) hend
  have hbehind : gap ++ '(' :: params ++ [')'] ++ rest = gap ++ '(' :: (params ++ ')' :: rest) := by
    simp
  have hgapTake : (gap ++ '(' :: (params ++ ')' :: rest)).takeWhile Text.isWhite = gap := by
    rw [List.takeWhile_append_of_pos hwhite, List.takeWhile_cons_of_neg (by decide), List.append_nil]
  have hgapDrop : (gap ++ '(' :: (params ++ ')' :: rest)).dropWhile Text.isWhite =
      '(' :: (params ++ ')' :: rest) := by
    rw [List.dropWhile_append_of_pos hwhite, List.dropWhile_cons_of_neg (by decide)]
  simp only [nextNamed, htake, hdrop, hname.findIdx?_eq_none, remainder_moveTo]
  simp only [hbehind, hgapTake, hgapDrop, hparams rest]

end Lexer

open Lexer

/-- The ways to write one call. -/
inductive ChainToken.IsGroup : ChainToken → Prop where
  | bare {name : Text} : IsName name → IsGroup (.bare name)
  | call {name gap params : Text} : IsName name → Text.isBlank gap = true → Closed params →
      IsGroup ⟨name, some params, name ++ gap ++ '(' :: params ++ [')']⟩

namespace ChainToken.IsGroup

variable {token : ChainToken}

theorem isName (h : token.IsGroup) : IsName token.name := by
  cases h <;> assumption

theorem exists_source_eq (h : token.IsGroup) : ∃ behind, token.source = token.name ++ behind := by
  cases h with
  | bare => exact ⟨[], (List.append_nil _).symm⟩
  | call => exact ⟨_, by rw [List.append_assoc, List.append_assoc]⟩

/-- A group begins with a character of its name. -/
theorem exists_cons (h : token.IsGroup) :
    ∃ c t, token.source = c :: t ∧ Text.isWhite c = false ∧ c ≠ '(' := by
  obtain ⟨behind, hsource⟩ := h.exists_source_eq
  obtain ⟨hne, hname⟩ := h.isName
  obtain ⟨c, t, ht⟩ := List.exists_cons_of_ne_nil hne
  rw [ht] at hsource hname
  obtain ⟨hwhite, hopen⟩ := isNameChar_iff.1 (hname c (by simp)).1
  exact ⟨c, t ++ behind, hsource, hwhite, hopen⟩

theorem trimStart_append (h : token.IsGroup) (rest : Text) :
    Text.trimStart (token.source ++ rest) = token.source ++ rest := by
  obtain ⟨c, t, hsource, hc, -⟩ := h.exists_cons
  rw [hsource, List.cons_append, Text.trimStart, List.dropWhile_cons_of_neg (by simp [hc])]

/-- A group is read whole, as long as what follows does not belong to it. -/
theorem exists_next_eq (h : token.IsGroup) {l : Lexer} {rest : Text} (hrest : EndsName rest)
    (hl : Text.trimStart l.remainder = token.source ++ rest) :
    ∃ after, l.next = (.ok (some token), after) ∧ after.remainder = rest := by
  obtain ⟨c, t, hsource, -, hopen⟩ := h.exists_cons
  rw [next_eq, hl, hsource, List.cons_append]
  simp only [if_neg hopen]
  cases h with
  | bare hname =>
    obtain rfl : _ = c :: t := hsource
    exact ⟨_, nextNamed_bare hname hrest, rfl⟩
  | @call name gap params hname hgap hparams =>
    obtain ⟨d, u, rfl⟩ := List.exists_cons_of_ne_nil hname.1
    simp only [List.cons_append] at hsource
    obtain ⟨rfl, ht⟩ := List.cons.inj hsource
    have hrest : t ++ rest = u ++ (gap ++ '(' :: params ++ [')'] ++ rest) := by simp [← ht]
    rw [hrest]
    exact ⟨_, nextNamed_call hname hgap hparams, rfl⟩

end ChainToken.IsGroup

/-! ## Groups one after the other -/

theorem ChainToken.trimStart_join {tokens : List ChainToken} (h : ∀ token ∈ tokens, token.IsGroup) :
    Text.trimStart (Text.join [' '] (tokens.map (·.source))) =
      Text.join [' '] (tokens.map (·.source)) := by
  cases tokens with
  | nil => rfl
  | cons token tokens =>
    rw [List.map_cons, Text.join_cons]
    exact (h token (by simp)).trimStart_append _

/-- What stands behind the first group does not belong to it, and the others are read from there. -/
theorem ChainToken.exists_behind_join (token : ChainToken) {tokens : List ChainToken}
    (h : ∀ token ∈ tokens, token.IsGroup) :
    ∃ rest, Text.join [' '] ((token :: tokens).map (·.source)) = token.source ++ rest ∧
      EndsName rest ∧ Text.trimStart rest = Text.join [' '] (tokens.map (·.source)) := by
  rw [List.map_cons, Text.join_cons]
  cases tokens with
  | nil => exact ⟨[], rfl, endsName_nil, rfl⟩
  | cons next tokens =>
    have hnext := h next (by simp)
    obtain ⟨c, t, hsource, -, hopen⟩ := hnext.exists_cons
    have htrim : Text.trimStart (' ' :: Text.join [' '] ((next :: tokens).map (·.source))) =
        Text.join [' '] ((next :: tokens).map (·.source)) := trimStart_join h
    refine ⟨_, rfl, ⟨rfl, fun inner hinner => ?_⟩, htrim⟩
    -- the next group begins with a character of its name
    have hbegins := htrim.symm.trans hinner
    rw [List.map_cons, Text.join_cons, hsource] at hbegins
    exact hopen (List.cons.inj hbegins).1

/-- Groups with a blank between neighbours are read back. -/
theorem Lexer.tokensFrom_join {tokens : List ChainToken} (h : ∀ token ∈ tokens, token.IsGroup)
    {l : Lexer} (hl : Text.trimStart l.remainder = Text.join [' '] (tokens.map (·.source))) :
    l.tokensFrom = .ok tokens := by
  induction tokens generalizing l with
  | nil =>
    rw [tokensFrom_eq, next_eq, hl]
    rfl
  | cons token tokens ih =>
    have htokens : ∀ token ∈ tokens, token.IsGroup := fun t ht => h t (List.mem_cons_of_mem _ ht)
    obtain ⟨rest, hjoin, hends, hrest⟩ := ChainToken.exists_behind_join token htokens
    obtain ⟨after, hnext, rfl⟩ :=
      (h token (by simp)).exists_next_eq hends (hl.trans hjoin)
    rw [tokensFrom_eq, hnext]
    simp only [ih htokens hrest]
    rfl

theorem Lexer.tokenize_join {tokens : List ChainToken} (h : ∀ token ∈ tokens, token.IsGroup) :
    tokenize (' ' :: Text.join [' '] (tokens.map (·.source))) = .ok tokens :=
  tokensFrom_join h (ChainToken.trimStart_join h)

end SeedChain
