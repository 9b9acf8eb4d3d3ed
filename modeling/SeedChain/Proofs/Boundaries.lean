import SeedChain.Proofs.Marks
import SeedChain.Proofs.Occurrences
/-!
# Where the scanners stop

A seed goes on as long as no parenthesis closes and no bracket opens (`cutSeed?_append`). A chain goes
on through every text whose brackets stand inside parentheses (`Balanced`), so through its groups, and
ends at the bracket behind them (`cutChain?_join`). A text none of whose brackets opens an expression
holds no expression (`expressionsFrom_of_unopened`); a bracket opens none where a parenthesis closes
before the next one opens (`unopened_closed`).
-/

namespace SeedChain.EscapeCodec

/-! ## The end of the seed -/

/-- A text without closing parenthesis or opening bracket is part of the seed. -/
theorem cutSeed?_append {s : Text} (h : ')' ∉ s ∧ '[' ∉ s) (t : Text) :
    cutSeed? 0 (s ++ t) = (cutSeed? 0 t).map fun parts => (s ++ parts.1, parts.2) := by
  induction s with
  | nil => simp
  | cons c s ih =>
    simp only [List.mem_cons, not_or] at h
    obtain ⟨⟨hclose, hs⟩, hopen, hs'⟩ := h
    rw [List.cons_append, cutSeed?, if_neg fun hc => hclose hc.1.symm, if_neg (Ne.symm hopen)]
    simp only [Nat.zero_sub, ite_self, ih ⟨hs, hs'⟩, Option.map_map]
    rfl

/-! ## The end of the chain -/

/-- No bracket stands outside the parentheses, so a chain does not end inside. -/
def Balanced (s : Text) : Prop :=
  ∀ t, cutChain? 0 (s ++ t) = (cutChain? 0 t).map fun parts => (s ++ parts.1, parts.2)

theorem balanced_nil : Balanced [] := fun t => by simp

theorem Balanced.append {s t : Text} (hs : Balanced s) (ht : Balanced t) : Balanced (s ++ t) := by
  intro u
  rw [List.append_assoc, hs, ht, Option.map_map]
  congr 1
  funext parts
  simp

/-- A text without parentheses and closing bracket is part of the chain. -/
theorem cutChain?_plain {s : Text} (h : ∀ c ∈ s, c ∉ ['(', ')', ']']) (depth : Nat) (t : Text) :
    cutChain? depth (s ++ t) = (cutChain? depth t).map fun parts => (s ++ parts.1, parts.2) := by
  induction s with
  | nil => simp
  | cons c s ih =>
    have hc := h c (by simp)
    simp only [List.mem_cons, List.not_mem_nil, or_false, not_or] at hc
    obtain ⟨hopen, hclose, hbracket⟩ := hc
    have hs := ih fun d hd => h d (List.mem_cons_of_mem _ hd)
    rw [List.cons_append, cutChain?, if_neg fun hc => hbracket hc.1, if_neg hopen, if_neg hclose]
    simp only [hs, Option.map_map]
    rfl

theorem balanced_of_plain {s : Text} (h : ∀ c ∈ s, c ∉ ['(', ')', ']']) : Balanced s :=
  cutChain?_plain h 0

theorem plain_of_isBlank {gap : Text} (h : Text.isBlank gap = true) :
    ∀ c ∈ gap, c ∉ ['(', ')', ']'] := by
  intro c hc hmem
  have hwhite := List.all_eq_true.1 h c hc
  simp only [List.mem_cons, List.not_mem_nil, or_false] at hmem
  rcases hmem with rfl | rfl | rfl
  all_goals exact absurd hwhite (by decide)

/-- The chain scanner goes on behind the parenthesis that closes the parameters. -/
theorem cutChain?_of_closeParams {depth : Nat} {t params rest : Text}
    (h : Lexer.closeParams depth t = some (params, rest)) :
    cutChain? (depth + 1) t =
      (cutChain? 0 rest).map fun parts => (params ++ ')' :: parts.1, parts.2) := by
  have hthrough := cutChain?_of_openMarks? (openMarks?_of_closeParams h) Nat.one_pos (')' :: rest)
  have hclosed : cutChain? 1 (')' :: rest) =
      (cutChain? 0 rest).map fun parts => (')' :: parts.1, parts.2) := rfl
  rw [Nat.add_comm, Lexer.eq_of_closeParams h, hthrough, hclosed, Option.map_map]
  rfl

theorem balanced_of_isBlank {gap : Text} (h : Text.isBlank gap = true) : Balanced gap :=
  balanced_of_plain (plain_of_isBlank h)

theorem balanced_of_isName {name : Text} (h : Lexer.IsName name) (hbracket : ']' ∉ name) :
    Balanced name := by
  refine balanced_of_plain fun c hc => ?_
  obtain ⟨hopen, hclose⟩ := h.plain c hc
  have hne : c ≠ ']' := fun heq => hbracket (heq ▸ hc)
  simp [hopen, hclose, hne]

theorem balanced_of_closed {params : Text} (h : Lexer.Closed params) :
    Balanced ('(' :: params ++ [')']) := by
  intro t
  have hcut := cutChain?_of_closeParams (h t)
  simp [cutChain?, hcut, Function.comp_def]

theorem balanced_source {token : ChainToken} (h : token.IsGroup) (hbracket : ']' ∉ token.name) :
    Balanced token.source := by
  cases h with
  | bare hname => exact balanced_of_isName hname hbracket
  | call hname hgap hparams =>
    have hnamed := balanced_of_isName hname hbracket
    simpa using (hnamed.append (balanced_of_isBlank hgap)).append (balanced_of_closed hparams)

theorem balanced_blank : Balanced [' '] := balanced_of_isBlank rfl

theorem balanced_join {pieces : List Text} (h : ∀ p ∈ pieces, Balanced p) :
    Balanced (Text.join [' '] pieces) := by
  induction pieces with
  | nil => exact balanced_nil
  | cons p pieces ih =>
    have hrest := ih fun q hq => h q (List.mem_cons_of_mem _ hq)
    rw [Text.join_cons]
    refine (h p (by simp)).append ?_
    split
    · exact balanced_nil
    · exact balanced_blank.append hrest

/-- A chain of groups ends at the bracket behind it. -/
theorem cutChain?_join {tokens : List ChainToken} (h : ∀ token ∈ tokens, token.IsGroup)
    (hbracket : ∀ token ∈ tokens, ']' ∉ token.name) (rest : Text) :
    let chain := ' ' :: Text.join [' '] (tokens.map (·.source))
    cutChain? 0 (chain ++ ']' :: rest) = some (chain, rest) := by
  intro chain
  have hsources : ∀ p ∈ tokens.map (·.source), Balanced p := by
    intro p hp
    obtain ⟨token, htoken, rfl⟩ := List.mem_map.1 hp
    exact balanced_source (h token htoken) (hbracket token htoken)
  have hchain : Balanced chain := balanced_blank.append (balanced_join hsources)
  rw [hchain]
  simp [cutChain?]

/-! ## No other opening -/

/-- No bracket of the text opens an expression. -/
def Unopened : Text → Prop
  | [] => True
  | c :: t => (c = '[' → readOpening? t = none) ∧ Unopened t

theorem expressionsFrom_of_unopened (codec : EscapeCodec) (offset : Nat) {t : Text} (h : Unopened t) :
    codec.expressionsFrom offset t = [] := by
  induction t generalizing offset with
  | nil => rfl
  | cons c t ih =>
    have hnone : codec.expressionAt? offset (c :: t) = none := by
      rw [expressionAt?_eq]
      by_cases hc : c = '['
      · rw [hc, read?, h.1 hc]
        rfl
      · simp [read?, hc]
    rw [expressionsFrom, hnone, ih _ h.2]
    rfl

theorem unopened_append {s t : Text} (hs : '[' ∉ s) (ht : Unopened t) : Unopened (s ++ t) := by
  induction s with
  | nil => exact ht
  | cons c s ih =>
    simp only [List.mem_cons, not_or] at hs
    exact ⟨fun hc => absurd hc.symm hs.1, ih hs.2⟩

/-- A parenthesis that closes comes before the next one that opens. -/
theorem readOpening?_eq_none {s : Text} (hs : '(' ∉ s) (t : Text) :
    readOpening? (s ++ ')' :: t) = none := by
  rw [Option.eq_none_iff_forall_ne_some]
  rintro ⟨k, rest⟩ h
  obtain ⟨blanks, gap, hblanks, hgap, heq⟩ := readOpening?_eq_some_iff.1 h
  have hopening : ')' ∉ blanks ++ k.letters ++ gap := by
    simp only [List.mem_append, not_or]
    refine ⟨⟨fun hc => ?_, ?_⟩, fun hc => ?_⟩
    · exact absurd (List.all_eq_true.1 hblanks _ hc) (by decide)
    · cases k <;> decide
    · exact absurd (List.all_eq_true.1 hgap _ hc) (by decide)
  rcases List.append_eq_append_iff.1 heq with ⟨u, hu, htail⟩ | ⟨u, hu, htail⟩
  · cases u with
    | nil => cases htail
    | cons c u =>
      obtain ⟨rfl, -⟩ := List.cons.inj htail
      exact hopening (by simp [hu])
  · cases u with
    | nil => cases htail
    | cons c u =>
      obtain ⟨rfl, -⟩ := List.cons.inj htail
      exact hs (by simp [hu])

theorem unopened_closed {s t : Text} (hs : '(' ∉ s) (ht : Unopened t) :
    Unopened (s ++ ')' :: t) := by
  induction s with
  | nil => exact ⟨fun hc => absurd hc (by decide), ht⟩
  | cons c s ih =>
    simp only [List.mem_cons, not_or] at hs
    exact ⟨fun _ => readOpening?_eq_none hs.2 t, ih hs.2⟩

theorem unopened_join {pieces : List Text} {t : Text} (ht : Unopened t)
    (h : ∀ p ∈ pieces, ∀ u, Unopened u → Unopened (p ++ u)) :
    Unopened (Text.join [' '] pieces ++ t) := by
  induction pieces with
  | nil => exact ht
  | cons p pieces ih =>
    have hrest := ih fun q hq => h q (List.mem_cons_of_mem _ hq)
    rw [Text.join_cons, List.append_assoc]
    refine h p (by simp) _ ?_
    split
    · exact ht
    · rw [List.append_assoc]
      exact unopened_append (by decide) hrest

end SeedChain.EscapeCodec
