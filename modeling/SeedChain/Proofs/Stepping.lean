import SeedChain.Proofs.Marks
/-!
# Reading one group after the other

`Lexer.Step` lists all that the next call of a lexer can come to: the end of the chain, one of three
errors with its position, or a group behind blanks (`Lexer.step_next`). So a lexer never skips or repeats
a character: what it has read and what is left are the text (`Lexer.StandsIn`), whatever the calls before
came to. Calls that return groups one after the other are a run (`Lexer.Reads`), and tokenizing is a run
with the end or the error behind it (`Lexer.exists_reads`).
-/

namespace SeedChain

theorem Text.isWhite_of_trimStart {t u : Text} {c : Char} (h : trimStart t = c :: u) :
    isWhite c = false := by
  have hhead := List.head?_dropWhile_not isWhite t
  rw [show t.dropWhile isWhite = c :: u from h] at hhead
  simpa using hhead

namespace Lexer

variable {l middle after : Lexer} {token : ChainToken} {tokens : List ChainToken} {c : Char}
  {t blanks read rest chain : Text}

/-! ## Names and parameters that have been read -/

/-- Where a list of parameters is closed is decided by the list alone. -/
theorem closeParams_eq {depth : Nat} {params rest : Text}
    (h : closeParams depth t = some (params, rest)) (rest' : Text) :
    closeParams depth (params ++ ')' :: rest') = some (params, rest') := by
  induction t generalizing depth params with
  | nil => cases h
  | cons c t ih =>
    -- a character that closes nothing is part of the list, and so is what is read behind it
    have hcons {depth' : Nat} (hc : (closeParams depth' t).map
        (fun parts => (c :: parts.1, parts.2)) = some (params, rest)) :
        ∃ params', params = c :: params' ∧
          closeParams depth' (params' ++ ')' :: rest') = some (params', rest') := by
      obtain ⟨⟨p, r⟩, hp, heq⟩ := Option.map_eq_some_iff.1 hc
      cases heq
      exact ⟨p, rfl, ih hp⟩
    simp only [closeParams] at h
    by_cases hopen : c = '('
    · rw [if_pos hopen] at h
      obtain ⟨params', rfl, hread⟩ := hcons h
      simp only [List.cons_append, closeParams, if_pos hopen, hread, Option.map_some]
    · rw [if_neg hopen] at h
      by_cases hclose : c = ')'
      · rw [if_pos hclose] at h
        cases depth with
        | zero =>
          cases h
          simp [closeParams]
        | succ depth =>
          obtain ⟨params', rfl, hread⟩ := hcons h
          simp only [List.cons_append, closeParams, if_neg hopen, if_pos hclose, hread,
            Option.map_some]
      · rw [if_neg hclose] at h
        obtain ⟨params', rfl, hread⟩ := hcons h
        simp only [List.cons_append, closeParams, if_neg hopen, if_neg hclose, hread,
          Option.map_some]

theorem closed_of_closeParams {params rest : Text}
    (h : closeParams 0 t = some (params, rest)) : Closed params :=
  closeParams_eq h

theorem isName_of_findIdx? (hwhite : Text.isWhite c = false) (hopen : c ≠ '(')
    (hname : ∀ d ∈ t, isNameChar d = true) (h : (c :: t).findIdx? (· == ')') = none) :
    IsName (c :: t) := by
  refine ⟨List.cons_ne_nil _ _, fun d hd => ⟨?_, ?_⟩⟩
  · rcases List.mem_cons.1 hd with rfl | hd
    · exact isNameChar_iff.2 ⟨hwhite, hopen⟩
    · exact hname d hd
  · simpa using List.findIdx?_eq_none_iff.1 h d hd

/-- The offset of a closing parenthesis is the length of what stands before it. -/
theorem exists_of_findIdx? {name : Text} {offset : Nat} (h : name.findIdx? (· == ')') = some offset) :
    ∃ before behind, name = before ++ ')' :: behind ∧ before.length = offset ∧ ')' ∉ before := by
  induction name generalizing offset with
  | nil => simp at h
  | cons c name ih =>
    rw [List.findIdx?_cons] at h
    by_cases hc : c = ')'
    · subst hc
      simp only [beq_self_eq_true, if_true, Option.some.injEq] at h
      exact ⟨[], name, rfl, h, List.not_mem_nil⟩
    · simp only [beq_iff_eq, hc, if_false] at h
      obtain ⟨i, hi, rfl⟩ := Option.map_eq_some_iff.1 h
      obtain ⟨before, behind, rfl, rfl, hbefore⟩ := ih hi
      exact ⟨c :: before, behind, rfl, rfl, by simp [hbefore, Ne.symm hc]⟩

/-! ## One step -/

/-- The place behind what has been read. -/
def past (l : Lexer) (read rest : Text) : Lexer := ⟨l.position + read.length, rest⟩

@[simp]
theorem remainder_past (l : Lexer) (read rest : Text) : (l.past read rest).remainder = rest := rfl

@[simp]
theorem past_past (l : Lexer) (read rest read' rest' : Text) :
    (l.past read rest).past read' rest' = l.past (read ++ read') rest' := by
  simp [past, Nat.add_assoc]

theorem moveTo_eq_past (read : Text) (h : l.remainder = read ++ rest) :
    l.moveTo rest = l.past read rest := by
  simp [moveTo, past, h]

/-- All that the next call can come to. An error points at the parenthesis at fault, and a name without
parameters has no list of parameters behind it. -/
inductive Step (l : Lexer) : Except LexError (Option ChainToken) → Lexer → Prop
  | ended : Text.isBlank l.remainder = true → Step l (.ok none) (l.past l.remainder [])
  | nameless {blanks t : Text} : Text.isBlank blanks = true → l.remainder = blanks ++ '(' :: t →
      Step l (.error (.missingName (l.position + blanks.length))) (l.past blanks ('(' :: t))
  | unbalanced {blanks before behind rest : Text} : Text.isBlank blanks = true →
      (∀ c ∈ before, c ≠ '(' ∧ c ≠ ')') →
      l.remainder = blanks ++ (before ++ ')' :: behind) ++ rest →
      Step l
        (.error (.unbalancedParen (before ++ ')' :: behind) (l.position + (blanks ++ before).length)))
        (l.past (blanks ++ (before ++ ')' :: behind)) rest)
  | unterminated {blanks name gap inner : Text} : Text.isBlank blanks = true → IsName name →
      Text.isBlank gap = true → closeParams 0 inner = none →
      l.remainder = blanks ++ name ++ gap ++ '(' :: inner →
      Step l (.error (.unterminated name (l.position + (blanks ++ name ++ gap).length)))
        (l.past l.remainder [])
  | group {blanks rest : Text} {token : ChainToken} : Text.isBlank blanks = true → token.IsGroup →
      (token.params = none → ∀ inner, Text.trimStart rest ≠ '(' :: inner) →
      l.remainder = blanks ++ token.source ++ rest →
      Step l (.ok (some token)) (l.past (blanks ++ token.source) rest)

theorem step_nextNamed (hblanks : Text.isBlank blanks = true) (hl : l.remainder = blanks ++ c :: t)
    (hwhite : Text.isWhite c = false) (hopen : c ≠ '(') :
    l.Step ((l.past blanks (c :: t)).nextNamed c t).1 ((l.past blanks (c :: t)).nextNamed c t).2 := by
  have ht : t.takeWhile isNameChar ++ t.dropWhile isNameChar = t := List.takeWhile_append_dropWhile
  have hchars : ∀ d ∈ t.takeWhile isNameChar, isNameChar d = true :=
    List.all_eq_true.1 List.all_takeWhile
  unfold nextNamed
  generalize t.takeWhile isNameChar = name at *
  generalize t.dropWhile isNameChar = behind at *
  have hgap : behind.takeWhile Text.isWhite ++ behind.dropWhile Text.isWhite = behind :=
    List.takeWhile_append_dropWhile
  have hblank : Text.isBlank (behind.takeWhile Text.isWhite) = true := by simp [Text.isBlank]
  subst ht
  have hnamed : (l.past blanks (c :: (name ++ behind))).moveTo behind =
      l.past (blanks ++ c :: name) behind := by
    rw [moveTo_eq_past (c :: name) rfl, past_past]
  simp only [hnamed, remainder_past]
  generalize behind.takeWhile Text.isWhite = gap at *
  split
  · rename_i offset hfind
    obtain ⟨before, rest, hname, rfl, hbefore⟩ := exists_of_findIdx? hfind
    have hplain : ∀ d ∈ before, d ≠ '(' ∧ d ≠ ')' := by
      intro d hd
      have hmem : d ∈ c :: name := by simp [hname, hd]
      refine ⟨?_, fun heq => hbefore (heq ▸ hd)⟩
      rcases List.mem_cons.1 hmem with rfl | hmem
      · exact hopen
      · exact (isNameChar_iff.1 (hchars d hmem)).2
    have hsplit : l.remainder = blanks ++ (before ++ ')' :: rest) ++ behind := by
      rw [← hname, hl]
      simp
    have hstep := Step.unbalanced hblanks hplain hsplit
    simpa [← hname, past, Nat.add_assoc] using hstep
  · rename_i hfind
    have hname := isName_of_findIdx? hwhite hopen hchars hfind
    split
    · rename_i inner hinner
      rw [hinner] at hgap
      subst hgap
      split
      · rename_i params rest hclose
        have hgroup := ChainToken.IsGroup.call hname hblank (closed_of_closeParams hclose)
        have hlist : gap ++ '(' :: inner = gap ++ '(' :: params ++ [')'] ++ rest := by
          simp [eq_of_closeParams hclose]
        have hsplit : l.remainder =
            blanks ++ (c :: name ++ gap ++ '(' :: params ++ [')']) ++ rest := by
          rw [hl, hlist]
          simp
        have hstep := Step.group hblanks hgroup (absurd · (Option.some_ne_none params)) hsplit
        rw [moveTo_eq_past (gap ++ '(' :: params ++ [')']) hlist, past_past]
        simpa using hstep
      · rename_i hclose
        have hsplit : l.remainder = blanks ++ (c :: name) ++ gap ++ '(' :: inner := by
          rw [hl]
          simp
        have hstep := Step.unterminated hblanks hname hblank hclose hsplit
        rw [moveTo_eq_past _ (List.append_nil _).symm, past_past]
        simpa [past, hl, Nat.add_assoc, Nat.add_comm 1] using hstep
    · rename_i hbare
      refine .group hblanks (.bare hname) (fun _ inner heq => hbare inner heq) ?_
      simpa [ChainToken.bare] using hl

theorem step_next (l : Lexer) : l.Step l.next.1 l.next.2 := by
  obtain ⟨blanks, hblanks, hl⟩ := Text.exists_trimStart l.remainder
  rw [next_eq]
  cases htrim : Text.trimStart l.remainder with
  | nil =>
    rw [htrim, List.append_nil] at hl
    rw [moveTo_eq_past _ (List.append_nil _).symm]
    exact .ended (hl ▸ hblanks)
  | cons c t =>
    rw [htrim] at hl
    simp only [moveTo_eq_past _ hl]
    by_cases hopen : c = '('
    · subst hopen
      exact .nameless hblanks hl
    · rw [if_neg hopen]
      exact step_nextNamed hblanks hl (Text.isWhite_of_trimStart htrim) hopen

/-- What a lexer reads is a group, with blanks before it. -/
theorem isGroup_of_next (h : l.next = (.ok (some token), after)) :
    token.IsGroup ∧ ∃ blanks, Text.isBlank blanks = true ∧
      l.remainder = blanks ++ token.source ++ after.remainder := by
  have hstep := step_next l
  rw [h] at hstep
  cases hstep with
  | group hblanks hgroup _ hl => exact ⟨hgroup, _, hblanks, hl⟩

theorem isBlank_of_next (h : l.next = (.ok none, after)) : Text.isBlank l.remainder = true := by
  have hstep := step_next l
  rw [h] at hstep
  cases hstep with
  | ended hblank => exact hblank

/-! ## Where a lexer stands -/

/-- What has been read and what is left are the text, and the position counts what has been read. -/
def StandsIn (chain : Text) (l : Lexer) : Prop :=
  ∃ read, chain = read ++ l.remainder ∧ l.position = read.length

theorem standsIn_start (chain : Text) : (start chain).StandsIn chain := ⟨[], rfl, rfl⟩

theorem StandsIn.past (h : l.StandsIn chain) (hl : l.remainder = read ++ rest) :
    (l.past read rest).StandsIn chain := by
  obtain ⟨before, rfl, hposition⟩ := h
  exact ⟨before ++ read, by simp [hl], by simp [Lexer.past, hposition]⟩

/-- Every call leaves the lexer in the text, also one that fails. -/
theorem StandsIn.next (h : l.StandsIn chain) : l.next.2.StandsIn chain := by
  have hstep := step_next l
  generalize l.next.1 = result, l.next.2 = after at hstep ⊢
  cases hstep with
  | ended | unterminated => exact h.past (List.append_nil _).symm
  | nameless _ hl | unbalanced _ _ hl | group _ _ _ hl => exact h.past hl

/-! ## Runs -/

/-- Calls that return groups, one after the other. -/
inductive Reads : Lexer → List ChainToken → Lexer → Prop
  | nil (l : Lexer) : Reads l [] l
  | cons {l middle after : Lexer} {token : ChainToken} {tokens : List ChainToken} :
      l.next = (.ok (some token), middle) → Reads middle tokens after → Reads l (token :: tokens) after

theorem Reads.standsIn (h : Reads l tokens after) (hl : l.StandsIn chain) : after.StandsIn chain := by
  induction h with
  | nil => exact hl
  | cons hnext _ ih =>
    have hmiddle := hl.next
    rw [hnext] at hmiddle
    exact ih hmiddle

/-- Each group takes a character at least. -/
theorem Reads.length_le (h : Reads l tokens after) :
    tokens.length + after.remainder.length ≤ l.remainder.length := by
  induction h with
  | nil => simp
  | cons hnext _ ih =>
    have := length_next_lt hnext
    simp only [List.length_cons]
    omega

/-- Tokenizing reads groups until a call comes to the end of the chain, or fails. -/
theorem exists_reads (l : Lexer) : ∃ tokens after, Reads l tokens after ∧
    (l.tokensFrom = .ok tokens ∧ after.next.1 = .ok none ∨
      ∃ e, l.tokensFrom = .error e ∧ after.next.1 = .error e) := by
  fun_induction tokensFrom l with
  | case1 l e after hnext => exact ⟨[], l, .nil l, .inr ⟨e, rfl, by rw [hnext]⟩⟩
  | case2 l after hnext => exact ⟨[], l, .nil l, .inl ⟨rfl, by rw [hnext]⟩⟩
  | case3 l token middle hnext _ ih =>
    obtain ⟨tokens, after, hreads, hends⟩ := ih
    refine ⟨token :: tokens, after, .cons hnext hreads, ?_⟩
    rcases hends with ⟨htokens, hend⟩ | ⟨e, htokens, hend⟩
    · exact .inl ⟨by rw [htokens]; rfl, hend⟩
    · exact .inr ⟨e, by rw [htokens]; rfl, hend⟩

end Lexer

end SeedChain
