import SeedChain.Chain.Token
/-!
# Splitting a chain into tokens

A chain is a sequence of groups. A bare word not followed by a parenthesis is a call without
parameters; blanks between a name and its parenthesis are allowed; a parameter list ends at the
parenthesis that brings the depth back to zero. The text is encoded, so escaped parentheses are
placeholders and do not count.

Main fact: a group takes at least one character (`Lexer.length_next_lt`), so tokenizing ends.
-/

namespace SeedChain

/-- A place in a chain: what is left, and how many characters have been read. -/
structure Lexer where
  position : Nat
  remainder : Text
  deriving DecidableEq, Repr

namespace Lexer

/-- At the beginning of a chain. -/
def start (chain : Text) : Lexer := ⟨0, chain⟩

/-- A place further on, where `rest` is left. -/
def moveTo (l : Lexer) (rest : Text) : Lexer :=
  ⟨l.position + (l.remainder.length - rest.length), rest⟩

/-- The characters a name can hold. -/
def isNameChar (c : Char) : Bool := !Text.isWhite c && c != '('

/-- Splits the text behind an opening parenthesis at the one that closes it, `depth` being the
number of parentheses open inside. -/
def closeParams (depth : Nat) : Text → Option (Text × Text)
  | [] => none
  | c :: t =>
    let extend (parts : Text × Text) := (c :: parts.1, parts.2)
    if c = '(' then (closeParams (depth + 1) t).map extend
    else if c = ')' then
      match depth with
      | 0 => some ([], t)
      | depth + 1 => (closeParams depth t).map extend
    else (closeParams depth t).map extend

/-- Reads the next group; `none` at the end of the chain. The first character behind the blanks
belongs to the name, unless it is a parenthesis. After an error the lexer stands behind the
offending name, at the end of an unterminated list, or before a nameless parenthesis. -/
def next (l : Lexer) : Except LexError (Option ChainToken) × Lexer :=
  let l := l.moveTo (Text.trimStart l.remainder)
  match l.remainder with
  | [] => (.ok none, l)
  | '(' :: _ => (.error (.missingName l.position), l)
  | c :: t =>
    let name := c :: t.takeWhile isNameChar
    let named := l.moveTo (t.dropWhile isNameChar)
    match name.findIdx? (· == ')') with
    | some offset => (.error (.unbalancedParen name (l.position + offset)), named)
    | none =>
      let gap := named.remainder.takeWhile Text.isWhite
      match named.remainder.dropWhile Text.isWhite with
      | '(' :: inner =>
        match closeParams 0 inner with
        | some (params, rest) =>
          let source := name ++ gap ++ '(' :: params ++ [')']
          (.ok (some ⟨name, some params, source⟩), named.moveTo rest)
        | none =>
          (.error (.unterminated name (named.position + gap.length)), named.moveTo [])
      | _ => (.ok (some (.bare name)), named)

theorem eq_of_closeParams {depth : Nat} {t params rest : Text}
    (h : closeParams depth t = some (params, rest)) : t = params ++ ')' :: rest := by
  induction t generalizing depth params with
  | nil => simp [closeParams] at h
  | cons c t ih =>
    simp only [closeParams] at h
    split at h
    · obtain ⟨⟨p, r⟩, hp, heq⟩ := Option.map_eq_some_iff.1 h
      obtain ⟨rfl, rfl⟩ := Prod.mk.inj heq
      simp [ih hp]
    · split at h
      · split at h
        · obtain ⟨rfl, rfl⟩ := Prod.mk.inj (Option.some.inj h)
          simp_all
        · obtain ⟨⟨p, r⟩, hp, heq⟩ := Option.map_eq_some_iff.1 h
          obtain ⟨rfl, rfl⟩ := Prod.mk.inj heq
          simp [ih hp]
      · obtain ⟨⟨p, r⟩, hp, heq⟩ := Option.map_eq_some_iff.1 h
        obtain ⟨rfl, rfl⟩ := Prod.mk.inj heq
        simp [ih hp]

/-- A group takes at least one character of the text. -/
theorem length_next_lt {l after : Lexer} {token : ChainToken}
    (h : l.next = (.ok (some token), after)) : after.remainder.length < l.remainder.length := by
  have htrim := Text.length_trimStart_le l.remainder
  simp only [next, moveTo] at h
  split at h
  · simp at h
  · simp at h
  · rename_i c t hopen heq
    have hlen : t.length < l.remainder.length := by
      have := congrArg List.length heq
      simp only [List.length_cons] at this
      omega
    have hname := (List.dropWhile_sublist isNameChar (l := t)).length_le
    have hgap := (List.dropWhile_sublist Text.isWhite (l := t.dropWhile isNameChar)).length_le
    split at h
    · simp at h
    · split at h
      · rename_i inner hinner
        split at h
        · rename_i params rest hclose
          simp only [Prod.mk.injEq] at h
          have := congrArg List.length (eq_of_closeParams hclose)
          have := congrArg List.length hinner
          simp only [List.length_append, List.length_cons] at *
          rw [← h.2]
          simp only
          omega
        · simp at h
      · simp only [Prod.mk.injEq] at h
        rw [← h.2]
        simp only
        omega

/-- All groups from a place on. -/
def tokensFrom (l : Lexer) : Except LexError (List ChainToken) :=
  match h : l.next with
  | (.error e, _) => .error e
  | (.ok none, _) => .ok []
  | (.ok (some token), after) =>
    have := length_next_lt h
    (token :: ·) <$> tokensFrom after
termination_by l.remainder.length

/-- Splits a whole chain into groups. -/
def tokenize (chain : Text) : Except LexError (List ChainToken) := tokensFrom (start chain)

end Lexer

end SeedChain
