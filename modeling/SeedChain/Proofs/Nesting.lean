import Mathlib.Data.List.Pairwise
import SeedChain.Proofs.Canonical
import SeedChain.Proofs.Marks
/-!
# How expressions lie to each other

Expressions come in the order of their ends, which counts on every inner one to close before the one around
it. But the seed scanner counts brackets, the chain scanner counts parentheses, and each takes a closing
mark that nothing has opened for nothing. So an expression that begins inside another one need not end
inside it, and both can end with the same bracket (`spans_shared_and_crossed`). It does end inside where it
closes only what it opens (`Expression.ClosesOwn`), since each scanner passes through such a text: an
expression that begins inside a seed or a chain is then part of it (`exists_eq_of_cutSeed?`,
`exists_eq_of_cutChain?`).

Main result: expressions come in the order of their ends, and one that begins inside another one and
closes only what it opens lies inside it; only where the name of a call holds a bracket can the two share
the closing one (`nested_of_closesOwn`).
-/

namespace SeedChain

variable {depth n : Nat} {x y w z p q : Text}

/-! ## Marks of a chain -/

namespace ChainToken

variable {token : ChainToken} {tokens : List ChainToken} {chain : Text}

/-- A bracket of a group stands in its name, or inside its parentheses. -/
theorem IsGroup.openMarks?_ne_zero (h : token.IsGroup) (hname : '[' ∉ token.name)
    (hsource : token.source = w ++ '[' :: z) : openMarks? '(' ')' 0 w ≠ some 0 := by
  cases h with
  | bare =>
    obtain rfl : _ = w ++ '[' :: z := hsource
    exact absurd (List.mem_append_right w List.mem_cons_self) hname
  | @call name gap params hgroup hgap hclosed =>
    have hopening : '[' ∉ name ++ gap ++ ['('] := by
      have hblank : '[' ∉ gap := fun hmem => absurd (List.all_eq_true.1 hgap _ hmem) (by decide)
      simpa [hblank] using hname
    have hsplit : name ++ gap ++ ['('] ++ (params ++ [')']) = w ++ '[' :: z := by simpa using hsource
    obtain ⟨w, rfl, hparams⟩ := Text.append_eq_append_cons_of_not_mem hsplit hopening
    exact openMarks?_inside hgroup hgap hclosed hparams (by decide)

/-- A bracket of an accepted chain stands in a name, or inside parentheses. -/
theorem Laid.openMarks?_ne_zero (h : Laid tokens chain) (hname : ∀ token ∈ tokens, '[' ∉ token.name)
    (hchain : chain = w ++ '[' :: z) : openMarks? '(' ')' 0 w ≠ some 0 := by
  obtain ⟨token, htoken, start, v, y, rfl, hstart, hsource⟩ := h.exists_source_eq (by decide) hchain
  rw [openMarks?_append, hstart, Option.bind_some]
  exact (h.isGroup token htoken).openMarks?_ne_zero (hname token htoken) hsource

end ChainToken

namespace EscapeCodec

/-! ## An expression inside another one -/

variable {r r' : Reading} {opening gap close opening' gap' close' : Text}

/-- An expression that begins inside a seed is part of the seed if it closes no bracket but those that it
opens. -/
theorem exists_eq_of_cutSeed? {inner a s : Text} (hinner : openMarks? '[' ']' 0 inner = some n)
    (h : cutSeed? depth (w ++ '[' :: inner ++ ']' :: a) = some (w ++ '[' :: s, q)) :
    ∃ s', s = inner ++ ']' :: s' := by
  rw [List.append_assoc] at h
  obtain ⟨k, hbehind⟩ := exists_cutSeed?_behind h
  rw [List.cons_append, cutSeed?, if_neg (by simp), if_pos rfl] at hbehind
  obtain ⟨⟨s₁, q₁⟩, hs₁, heq⟩ := Option.map_eq_some_iff.1 hbehind
  cases heq
  have hthrough := cutSeed?_of_openMarks? hinner (Nat.succ_pos k) (']' :: a)
  rw [Nat.add_zero, hs₁] at hthrough
  obtain ⟨⟨s₂, q₂⟩, hs₂, heq⟩ := Option.map_eq_some_iff.1 hthrough.symm
  cases heq
  rw [cutSeed?, if_neg (by simp)] at hs₂
  obtain ⟨⟨s₃, q₃⟩, -, heq⟩ := Option.map_eq_some_iff.1 hs₂
  cases heq
  exact ⟨s₃, rfl⟩

/-- Behind the seed of an expression, the chain around it ends at the closing bracket if no parentheses
are open, and goes on if some are. -/
theorem cutChain?_close (h : r.Written opening gap close) {a : Text}
    (hcut : cutChain? depth (close ++ a) = some (p, q)) :
    (depth = 0 → p ++ [']'] = close) ∧ (0 < depth → ∃ p', p = close ++ p') := by
  have hbracket {p : Text} (hdepth : 0 < depth) (hcut : cutChain? depth (']' :: a) = some (p, q)) :
      ∃ p', p = ']' :: p' := by
    rw [cutChain?, if_neg fun hc => by omega] at hcut
    obtain ⟨⟨p', r⟩, -, heq⟩ := Option.map_eq_some_iff.1 hcut
    cases heq
    exact ⟨p', rfl⟩
  rcases readTokens?_eq_some_iff.1 h.tokens_read with ⟨rfl, -⟩ | ⟨chain, rfl, hchain, htokens⟩
  · refine ⟨?_, fun hdepth => hbracket hdepth hcut⟩
    rintro rfl
    cases hcut
    rfl
  · have hplain : ∀ c ∈ ['=', '>'], c ∉ ['(', ')', ']'] := by simp
    have hsplit : '=' :: '>' :: chain ++ [']'] ++ a = ['=', '>'] ++ (chain ++ ']' :: a) := by simp
    rw [hsplit, cutChain?_plain hplain] at hcut
    obtain ⟨⟨p₁, q₁⟩, hcut₁, heq⟩ := Option.map_eq_some_iff.1 hcut
    cases heq
    constructor
    · rintro rfl
      rw [(cutChain?_eq hchain).2 a] at hcut₁
      cases hcut₁
      rfl
    · intro hdepth
      have hopened := (Lexer.laid_of_tokenize htokens).openMarks?_eq
      have hthrough := cutChain?_of_openMarks? hopened hdepth (']' :: a)
      rw [Nat.add_zero, hcut₁] at hthrough
      obtain ⟨⟨p₂, q₂⟩, hcut₂, heq⟩ := Option.map_eq_some_iff.1 hthrough.symm
      cases heq
      obtain ⟨p', rfl⟩ := hbracket hdepth hcut₂
      exact ⟨p', by simp⟩

/-- The chain around an expression goes on through its opening, a seed that closes no parenthesis but those
that it opens, and the parenthesis that ends it. -/
theorem cutChain?_seed (h : r.Written opening gap close)
    (hseed : openMarks? '(' ')' 0 r.seed = some n) (depth : Nat) (y : Text) :
    cutChain? depth (opening ++ r.seed ++ ')' :: gap ++ y) =
      (cutChain? (depth + n) y).map fun parts =>
        (opening ++ r.seed ++ ')' :: gap ++ parts.1, parts.2) := by
  obtain ⟨blanks, gap', hblanks, hgap', rfl⟩ := h.opening_eq
  have hletters : ∀ c ∈ '[' :: r.keyword.letters, c ∉ ['(', ')', ']'] := by
    cases r.keyword <;> simp [Keyword.letters, Keyword.name]
  have hplain : ∀ c ∈ '[' :: blanks ++ r.keyword.letters ++ gap', c ∉ ['(', ')', ']'] := by
    intro c hc
    simp only [List.cons_append, List.mem_cons, List.mem_append] at hc
    rcases hc with rfl | (hc | hc) | hc
    · exact hletters _ (by simp)
    · exact plain_of_isBlank hblanks c hc
    · exact hletters c (by simp [hc])
    · exact plain_of_isBlank hgap' c hc
  have hopened : cutChain? depth ('(' :: (r.seed ++ ')' :: (gap ++ y))) =
      (cutChain? (depth + n) y).map fun parts =>
        ('(' :: (r.seed ++ ')' :: (gap ++ parts.1)), parts.2) := by
    have hthrough := cutChain?_of_openMarks? hseed (Nat.succ_pos depth) (')' :: (gap ++ y))
    have hclosed : cutChain? (depth + 1 + n) (')' :: (gap ++ y)) =
        (cutChain? (depth + n) y).map fun parts => (')' :: (gap ++ parts.1), parts.2) := by
      rw [cutChain?, if_neg (by simp), if_neg (by decide), if_pos rfl,
        show depth + 1 + n - 1 = depth + n by omega]
      simp only [cutChain?_plain (plain_of_isBlank h.gap_blank), Option.map_map]
      rfl
    rw [cutChain?, if_neg (by simp), if_pos rfl]
    simp only [Nat.add_zero] at hthrough
    simp only [hthrough, hclosed, Option.map_map]
    rfl
  have hall := cutChain?_plain hplain depth ('(' :: (r.seed ++ ')' :: (gap ++ y)))
  rw [hopened, Option.map_map] at hall
  simpa [Function.comp_def] using hall

/-- An expression that begins inside a chain is part of the chain if its seed closes no parenthesis but
those that it opens; where no parentheses are open, the chain ends at the bracket that closes it. -/
theorem exists_eq_of_cutChain? (h : r.Written opening gap close)
    (hseed : openMarks? '(' ')' 0 r.seed = some n) {m a : Text}
    (hm : m = opening ++ r.seed ++ ')' :: gap ++ close)
    (hcut : cutChain? depth (m ++ a) = some (p, q)) :
    ∃ p', p ++ [']'] = m ++ p' ∧ (0 < depth → p' ≠ []) := by
  rw [hm, List.append_assoc, cutChain?_seed h hseed] at hcut
  obtain ⟨⟨p₁, q₁⟩, hcut₁, heq⟩ := Option.map_eq_some_iff.1 hcut
  cases heq
  obtain ⟨hends, hgoes⟩ := cutChain?_close h hcut₁
  rcases Nat.eq_zero_or_pos (depth + n) with hzero | hpos
  · refine ⟨[], ?_, fun hdepth => by omega⟩
    rw [List.append_nil, hm, ← hends hzero]
    simp
  · obtain ⟨p', rfl⟩ := hgoes hpos
    exact ⟨p' ++ [']'], by simp [hm], fun _ => by simp⟩

/-- Where a bracket stands inside an expression: in its seed, or in its chain. -/
theorem Reading.Written.bracket_in (h : r.Written opening gap close) (hw : w ≠ [])
    (heq : opening ++ r.seed ++ ')' :: gap ++ close = w ++ '[' :: z) :
    (∃ v s, w = opening ++ v ∧ r.seed = v ++ '[' :: s) ∨
      ∃ v s, w = opening ++ r.seed ++ ')' :: gap ++ '=' :: '>' :: v ∧
        close = '=' :: '>' :: (v ++ '[' :: s) ++ [']'] := by
  obtain ⟨blanks, gap', hblanks, hgap', rfl⟩ := h.opening_eq
  have hblank {t : Text} (ht : Text.isBlank t = true) : '[' ∉ t :=
    fun hmem => absurd (List.all_eq_true.1 ht _ hmem) (by decide)
  have hopening : '[' ∉ blanks ++ r.keyword.letters ++ gap' ++ ['('] := by
    have hletters : '[' ∉ r.keyword.letters := by cases r.keyword <;> decide
    simp [hblank hblanks, hblank hgap', hletters]
  have hend {t : Text} : [']'] ≠ t ++ '[' :: z := by
    intro h
    have hmem : '[' ∈ [']'] := by rw [h]; simp
    exact absurd hmem (by decide)
  obtain ⟨d, w, rfl⟩ := List.exists_cons_of_ne_nil hw
  have hsplit : d = '[' ∧ blanks ++ r.keyword.letters ++ gap' ++ ['('] ++
      (r.seed ++ (')' :: gap ++ close)) = w ++ '[' :: z := by
    simpa [eq_comm] using heq
  obtain ⟨rfl, hbehind⟩ := hsplit
  obtain ⟨v, rfl, hseed⟩ := Text.append_eq_append_cons_of_not_mem hbehind hopening
  rcases Text.append_eq_append_cons hseed with ⟨s, hs, -⟩ | ⟨v, rfl, hclose⟩
  · exact .inl ⟨v, s, by simp, hs⟩
  · obtain ⟨v, rfl, hinClose⟩ := Text.append_eq_append_cons_of_not_mem hclose
      (by simpa using hblank h.gap_blank)
    rcases readTokens?_eq_some_iff.1 h.tokens_read with ⟨rfl, -⟩ | ⟨chain, rfl, -, -⟩
    · exact absurd hinClose hend
    · have hchain : ['=', '>'] ++ (chain ++ [']']) = v ++ '[' :: z := by simpa using hinClose
      obtain ⟨v, rfl, hinChain⟩ := Text.append_eq_append_cons_of_not_mem hchain (by decide)
      rcases Text.append_eq_append_cons hinChain with ⟨s, rfl, -⟩ | ⟨s, -, hs⟩
      · exact .inr ⟨v, s, by simp, by simp⟩
      · exact absurd hs hend

/-- What begins inside an expression and closes only what it opens is part of it. -/
theorem Reading.Reads.exists_eq_append {m m' a a' inner : Text} {k : Nat} (h : r.Reads m)
    (h' : r'.Reads m') (hw : w ≠ []) (hall : m ++ a = w ++ m' ++ a') (hm : m = w ++ '[' :: z)
    (hm' : m' = '[' :: inner ++ [']']) (hbrackets : openMarks? '[' ']' 0 inner = some n)
    (hparens : openMarks? '(' ')' 0 r'.seed = some k) :
    ∃ rest, m = w ++ m' ++ rest ∧ ((∀ token ∈ r.tokens, '[' ∉ token.name) → rest ≠ []) := by
  obtain ⟨opening, gap, close, hwritten, heq⟩ := Reading.reads_iff.1 h
  rw [heq] at hall hm ⊢
  rcases hwritten.bracket_in hw hm with ⟨v, s, rfl, hseed⟩ | ⟨v, s, rfl, hclose⟩
  · have hends := endsSeed_append (endsSeed_of_readTokens? hwritten.tokens_read) a
    have hcut := hwritten.seed_cut gap (close ++ a) hwritten.gap_blank hends
    have htext : r.seed ++ ')' :: gap ++ (close ++ a) = v ++ '[' :: inner ++ ']' :: a' := by
      simpa [hm'] using hall
    rw [htext, hseed] at hcut
    obtain ⟨s', rfl⟩ := exists_eq_of_cutSeed? hbrackets hcut
    exact ⟨s' ++ ')' :: gap ++ close, by simp [hseed, hm'], fun _ => by simp⟩
  · obtain ⟨chain, hchain, hcut, htokens⟩ : ∃ chain, chain = v ++ '[' :: s ∧
        cutChain? 0 (chain ++ [']']) = some (chain, []) ∧ Lexer.tokenize chain = .ok r.tokens := by
      rcases readTokens?_eq_some_iff.1 hwritten.tokens_read with ⟨hnone, -⟩ | ⟨chain, hsome, hread⟩
      · simp [hclose] at hnone
      · rw [hclose] at hsome
        have hchain : chain ++ [']'] = (v ++ '[' :: s) ++ [']'] := by simpa using hsome.symm
        exact ⟨chain, List.append_cancel_right hchain, hread⟩
    have hlaid := Lexer.laid_of_tokenize htokens
    obtain ⟨d, hd⟩ := isSome_openMarks?_prefix (hchain ▸ hlaid.openMarks?_eq)
    have htext : chain ++ ']' :: a = v ++ (m' ++ a') := by
      simpa [hclose, hchain] using hall
    have hgoes := (cutChain?_eq hcut).2 a
    rw [htext, hchain] at hgoes
    obtain ⟨_, _, _, hwritten', heq'⟩ := Reading.reads_iff.1 h'
    obtain ⟨p', hp', hinside⟩ := exists_eq_of_cutChain? hwritten' hparens heq' (cutChain?_behind hd hgoes)
    refine ⟨p', ?_, fun hname => hinside (Nat.pos_of_ne_zero fun hzero => ?_)⟩
    · rw [hclose]
      simpa using hp'
    · exact hlaid.openMarks?_ne_zero hname hchain (hzero ▸ hd)

end EscapeCodec

open EscapeCodec

/-- The expression closes only what it opens: every bracket that is closed within its own ones, and every
parenthesis that is closed in its seed. What is escaped does not count. -/
structure Expression.ClosesOwn (codec : EscapeCodec) (e : Expression) : Prop where
  brackets : (openMarks? '[' ']' 0 (codec.encode e.matched).tail.dropLast).isSome
  parens : (openMarks? '(' ')' 0 (codec.encode e.seed)).isSome

variable {codec : EscapeCodec} {delimiter : Char} {t : Text} {e f : Expression}

/-- What is read of an expression that closes only what it opens does so. -/
theorem Expression.ClosesOwn.reads (h : e.ClosesOwn codec) (ha : codec.Avoids e.matched) {offset : Nat}
    (hr : r.Reads (codec.encode e.matched))
    (he : e = codec.expressionOf offset (codec.encode e.matched) r) :
    ∃ inner n k, codec.encode e.matched = '[' :: inner ++ [']'] ∧
      openMarks? '[' ']' 0 inner = some n ∧ openMarks? '(' ')' 0 r.seed = some k := by
  obtain ⟨inner, hinner⟩ := hr.bracketed
  have hbrackets := h.brackets
  rw [hinner] at hbrackets
  obtain ⟨n, hn⟩ := Option.isSome_iff_exists.1 hbrackets
  have hseed : codec.encode e.seed = r.seed := by
    rw [congrArg Expression.seed he]
    exact (ha.encode_decode hr.seed_infix).1
  obtain ⟨k, hk⟩ := Option.isSome_iff_exists.1 (hseed ▸ h.parens)
  exact ⟨inner, n, k, hinner, by simpa using hn, hk⟩

/-- An expression that begins inside another one and closes only what it opens lies inside it. -/
theorem within_of_closesOwn (ha : codec.Avoids t) (he : e ∈ codec.findAll (codec.encode t))
    (hf : f ∈ codec.findAll (codec.encode t)) (hstart : e.span.start < f.span.start)
    (hinside : f.span.start < e.span.stop) (hown : f.ClosesOwn codec) :
    f.span.within e.span = true ∧
      ((∀ i ∈ e.invocations, '[' ∉ i.name) → f.span.stop < e.span.stop) := by
  obtain ⟨before, after, hse⟩ := exists_stands ha he
  obtain ⟨before', after', hsf⟩ := exists_stands ha hf
  obtain ⟨r, hr, hre⟩ := hse.read
  obtain ⟨r', hr', hrf⟩ := hsf.read
  obtain ⟨inner, n, k, hinner, hn, hk⟩ := hown.reads (hsf.avoids_matched ha) hr' hrf
  -- the encoded text is cut at both expressions
  have hcuts := hse.encode_eq.symm.trans hsf.encode_eq
  rw [hse.span_eq, hsf.span_eq] at hstart hinside ⊢
  obtain ⟨w, z, hw, hz, hbefore, hm, hall⟩ :=
    Text.exists_eq_append_of_begins_inside hcuts hstart hinside
  obtain ⟨z, rfl⟩ : ∃ z', z = '[' :: z' := by
    obtain ⟨c, z', rfl⟩ := List.exists_cons_of_ne_nil hz
    rw [hinner] at hall
    exact ⟨z', by rw [(List.cons.inj hall).1]⟩
  have hbehind : codec.encode e.matched ++ codec.encode after =
      w ++ codec.encode f.matched ++ codec.encode after' := by
    rw [hm, List.append_assoc, List.append_assoc, ← hall]
  obtain ⟨rest, hrest, hname⟩ := hr.exists_eq_append hr' hw hbehind hm hinner hn hk
  simp only [Span.within_iff, Span.behind, hbefore, hrest, Text.byteLength_append]
  refine ⟨by omega, fun hnames => ?_⟩
  have hpos : 0 < Text.byteLength rest := by
    refine Text.byteLength_pos (hname fun token htoken => ?_)
    obtain ⟨_, _, _, hwritten, -⟩ := Reading.reads_iff.1 hr
    refine (hse.avoids_matched ha).not_mem_name (hwritten.tokens_laid.2.1 token htoken) (by decide)
      (hnames _ ?_)
    rw [congrArg Expression.invocations hre]
    exact List.mem_map_of_mem htoken
  omega

/-! ## Order -/

/-- Of two different members of an ordered list the first one stands first. -/
theorem pair_sublist_of_pairwise {α : Type} {R : α → α → Prop} {l : List α} {a b : α}
    (h : l.Pairwise R) (ha : a ∈ l) (hb : b ∈ l) (hne : a ≠ b) (hba : ¬ R b a) : [a, b].Sublist l := by
  induction l with
  | nil => cases ha
  | cons c l ih =>
    obtain ⟨hfirst, hl⟩ := List.pairwise_cons.1 h
    rcases List.mem_cons.1 ha with rfl | hal
    · have hbl : b ∈ l := (List.mem_cons.1 hb).resolve_left hne.symm
      exact (List.singleton_sublist.2 hbl).cons_cons a
    · rcases List.mem_cons.1 hb with rfl | hbl
      · exact absurd (hfirst a hal) hba
      · exact (ih hl hal hbl).cons c

theorem pair_sublist_of_precedes (he : e ∈ codec.findAll (codec.encode t))
    (hf : f ∈ codec.findAll (codec.encode t)) (h : e.Precedes f) :
    [e, f].Sublist (codec.findAll (codec.encode t)) := by
  have hne : e ≠ f := by
    rintro rfl
    exact Std.Irrefl.irrefl e h
  exact pair_sublist_of_pairwise (findAll_pairwise codec _) he hf hne
    fun hfe => hne (Std.Antisymm.antisymm e f h hfe)

/-- Different expressions begin at different places. Disjoint ones come in reading order, and one that
lies inside another one comes before it. One that begins inside another one and closes only what it opens
lies inside it, and closes before it unless the name of a call of the other one holds a bracket. -/
theorem nested_of_closesOwn (he : e ∈ expressions delimiter t) (hf : f ∈ expressions delimiter t)
    (hne : e ≠ f) :
    e.span.start ≠ f.span.start ∧
    (e.span.stop ≤ f.span.start → [e, f].Sublist (expressions delimiter t)) ∧
    (e.span.within f.span = true → [e, f].Sublist (expressions delimiter t)) ∧
    (e.span.start < f.span.start → f.span.start < e.span.stop →
      f.ClosesOwn (avoiding delimiter t) →
        f.span.within e.span = true ∧
          ((∀ i ∈ e.invocations, '[' ∉ i.name) → f.span.stop < e.span.stop)) := by
  have ha := avoiding_avoids delimiter t
  have hsymm : Std.Symm fun e f : Expression => e.span.start ≠ f.span.start := ⟨fun _ _ => Ne.symm⟩
  have hstart : e.span.start ≠ f.span.start := (findAll_starts _ _).forall he hf hne
  refine ⟨hstart, fun hle => ?_, fun hwithin => ?_, fun hafter hinside hown => ?_⟩
  · have hnonempty := start_lt_stop_of_mem_findAll hf
    exact pair_sublist_of_precedes he hf (.inl (by omega))
  · rw [Span.within_iff] at hwithin
    refine pair_sublist_of_precedes he hf ?_
    unfold Expression.Precedes
    omega
  · exact within_of_closesOwn ha he hf hafter hinside hown

/-- One expression in the seed and one in an argument, with an escaped bracket between them. -/
theorem nested_of_closesOwn_both :
    let t := "[TEXT(a [TEXT(b)]\\]) => f([TEXT(c)])]".toList
    let outer : Expression := ⟨.text, "a [TEXT(b)]\\]".toList,
      [⟨['f'], ["[TEXT(c)]".toList], "f([TEXT(c)])".toList⟩], t, ⟨0, 38⟩⟩
    let first : Expression := ⟨.text, ['b'], [], "[TEXT(b)]".toList, ⟨8, 17⟩⟩
    let second : Expression := ⟨.text, ['c'], [], "[TEXT(c)]".toList, ⟨27, 36⟩⟩
    outer ∈ expressions ',' t ∧ first ∈ expressions ',' t ∧ second ∈ expressions ',' t ∧
    [first, second].Sublist (expressions ',' t) ∧ [second, outer].Sublist (expressions ',' t) ∧
    second.ClosesOwn (avoiding ',' t) ∧ second.span.within outer.span = true ∧
      second.span.stop < outer.span.stop := by
  intro t outer first second
  have houter : outer ∈ expressions ',' t := List.mem_mergeSort.2 (by decide +kernel)
  have hfirst : first ∈ expressions ',' t := List.mem_mergeSort.2 (by decide +kernel)
  have hsecond : second ∈ expressions ',' t := List.mem_mergeSort.2 (by decide +kernel)
  have hown : second.ClosesOwn (avoiding ',' t) := ⟨by decide +kernel, by decide +kernel⟩
  obtain ⟨-, hdisjoint, -⟩ := nested_of_closesOwn hfirst hsecond (by decide)
  obtain ⟨-, -, hwithin, -⟩ := nested_of_closesOwn hsecond houter (by decide)
  obtain ⟨-, -, -, hinside⟩ := nested_of_closesOwn houter hsecond (by decide)
  obtain ⟨hin, hbefore⟩ := hinside (by decide) (by decide) hown
  exact ⟨houter, hfirst, hsecond, hdisjoint (by decide), hwithin hin, hown, hin, hbefore (by decide)⟩

/-- Inner expressions that do not close before the outer one. With a bracket in the name of a call, both end
with the same one; with a bracket or a parenthesis that is closed but not opened, the spans cross. -/
theorem spans_shared_and_crossed :
    (∃ e ∈ expressions ',' "[TEXT(a) => [TEXT(upper)]".toList,
      ∃ f ∈ expressions ',' "[TEXT(a) => [TEXT(upper)]".toList,
        e.span = ⟨0, 25⟩ ∧ f.span = ⟨12, 25⟩) ∧
    (∃ e ∈ expressions ',' "[TEXT(a [TEXT(b) => f(g(]) ] h)]".toList,
      ∃ f ∈ expressions ',' "[TEXT(a [TEXT(b) => f(g(]) ] h)]".toList,
        e.span = ⟨0, 28⟩ ∧ f.span = ⟨8, 32⟩) ∧
    ∃ e ∈ expressions ',' "[TEXT(a) => f [TEXT(b) c ] d)]".toList,
      ∃ f ∈ expressions ',' "[TEXT(a) => f [TEXT(b) c ] d)]".toList,
        e.span = ⟨0, 26⟩ ∧ f.span = ⟨14, 30⟩ := by
  have hfound {t : Text} {s : Span} (h : ((avoiding ',' t).expressionsFrom 0
      ((avoiding ',' t).encode t)).any (fun e => e.span == s) = true) :
      ∃ e ∈ expressions ',' t, e.span = s := by
    obtain ⟨e, he, hspan⟩ := List.any_eq_true.1 h
    exact ⟨e, List.mem_mergeSort.2 he, eq_of_beq hspan⟩
  have hboth {t : Text} {s s' : Span} (h : ∃ e ∈ expressions ',' t, e.span = s)
      (h' : ∃ f ∈ expressions ',' t, f.span = s') :
      ∃ e ∈ expressions ',' t, ∃ f ∈ expressions ',' t, e.span = s ∧ f.span = s' := by
    obtain ⟨⟨e, he, hs⟩, f, hf, hs'⟩ := And.intro h h'
    exact ⟨e, he, f, hf, hs, hs'⟩
  exact ⟨hboth (hfound (by decide +kernel)) (hfound (by decide +kernel)),
    hboth (hfound (by decide +kernel)) (hfound (by decide +kernel)),
    hboth (hfound (by decide +kernel)) (hfound (by decide +kernel))⟩

end SeedChain
