import SeedChain.Proofs.Grouping
/-!
# A chain and its groups

Tokenizing loses no character of a chain. After any number of calls, what has been read and what is left
are the chain (`Lexer.standsIn_behindCalls`), and a call that returns a group has read some blanks and the
text of the group, which is never empty. So there are at most as many groups as characters, an accepted
chain is its groups with blanks around them, and the groups with a single blank between neighbours are
tokenized to the same groups (`Lexer.tokenize_loses_nothing`).
-/

namespace SeedChain

theorem ChainToken.IsGroup.source_ne_nil {token : ChainToken} (h : token.IsGroup) : token.source ≠ [] := by
  obtain ⟨c, t, hsource, -⟩ := h.exists_cons
  simp [hsource]

namespace Lexer

variable {l after : Lexer} {token : ChainToken} {tokens : List ChainToken}

/-- The place behind a number of calls, whatever each of them came to. -/
def behindCalls (n : Nat) (chain : Text) : Lexer := n.repeat (fun l => l.next.2) (start chain)

theorem standsIn_behindCalls (n : Nat) (chain : Text) : (behindCalls n chain).StandsIn chain := by
  induction n with
  | zero => exact standsIn_start chain
  | succ n ih => exact ih.next

/-- A call that returns a group has read blanks and the text of the group. -/
theorem exists_read_of_next (h : l.next = (.ok (some token), after)) :
    ∃ blanks, Text.isBlank blanks = true ∧ token.source ≠ [] ∧
      l.remainder = blanks ++ token.source ++ after.remainder ∧
      after.position = l.position + (blanks ++ token.source).length := by
  have hstep := step_next l
  rw [h] at hstep
  cases hstep with
  | group hblanks hgroup _ hl => exact ⟨_, hblanks, hgroup.source_ne_nil, hl, rfl⟩

/-- Groups with a blank between neighbours are a chain of these groups. -/
theorem tokenize_sources (h : ∀ token ∈ tokens, token.IsGroup) :
    tokenize (Text.join [' '] (tokens.map (·.source))) = .ok tokens :=
  tokensFrom_join h (ChainToken.trimStart_join h)

/-- However often a lexer is called, what has been read and what is left are the chain; a call that
returns a group has read blanks and the text of the group, and no run of such calls has more groups than
the chain has characters. Tokenizing is such a run, with the end of the chain or the error behind it. The
groups of an accepted chain are the chain, with nothing but blanks around them, and they are its groups
also with a single blank between neighbours. -/
theorem tokenize_loses_nothing (chain : Text) :
    (∀ n, (behindCalls n chain).StandsIn chain) ∧
    (∀ (l : Lexer) (token : ChainToken) (after : Lexer), l.next = (.ok (some token), after) →
      ∃ blanks, Text.isBlank blanks = true ∧ token.source ≠ [] ∧
        l.remainder = blanks ++ token.source ++ after.remainder ∧
        after.position = l.position + (blanks ++ token.source).length) ∧
    (∀ tokens after, Reads (start chain) tokens after → tokens.length ≤ chain.length) ∧
    (∃ tokens after, Reads (start chain) tokens after ∧
      (tokenize chain = .ok tokens ∧ after.next.1 = .ok none ∨
        ∃ e, tokenize chain = .error e ∧ after.next.1 = .error e)) ∧
    ∀ tokens, tokenize chain = .ok tokens →
      ChainToken.Laid tokens chain ∧ (∀ token ∈ tokens, token.IsGroup) ∧
        tokenize (Text.join [' '] (tokens.map (·.source))) = .ok tokens := by
  refine ⟨fun n => standsIn_behindCalls n chain, fun _ _ _ => exists_read_of_next,
    fun tokens after hreads => ?_, exists_reads (start chain), fun tokens htokens => ?_⟩
  · have hlength : tokens.length + after.remainder.length ≤ chain.length := hreads.length_le
    omega
  · have hlaid := laid_of_tokenize htokens
    exact ⟨hlaid, hlaid.isGroup, tokenize_sources hlaid.isGroup⟩

/-- A name without parameters before a list that belongs to another name, parentheses within parameters,
and two groups without a blank between them. -/
theorem tokenize_loses_nothing_nested :
    let chain : Text := " a b\t(c(d) ) e(x)f ".toList
    let b : ChainToken := ⟨['b'], some "c(d) ".toList, "b\t(c(d) )".toList⟩
    let e : ChainToken := ⟨['e'], some ['x'], "e(x)".toList⟩
    let middle : Lexer := ⟨2, " b\t(c(d) ) e(x)f ".toList⟩
    let behind : Lexer := ⟨12, " e(x)f ".toList⟩
    middle.next = (.ok (some b), behind) ∧ Reads (start chain) [.bare ['a'], b] behind ∧
    tokenize chain = .ok [.bare ['a'], b, e, .bare ['f']] ∧
    (∃ blanks, Text.isBlank blanks = true ∧ b.source ≠ [] ∧
      middle.remainder = blanks ++ b.source ++ behind.remainder ∧
      behind.position = middle.position + (blanks ++ b.source).length) ∧
    [.bare ['a'], b].length ≤ chain.length ∧
    ChainToken.Laid [.bare ['a'], b, e, .bare ['f']] chain ∧
    tokenize "a b\t(c(d) ) e(x) f".toList = .ok [.bare ['a'], b, e, .bare ['f']] := by
  intro chain b e middle behind
  have hfirst : (start chain).next = (.ok (some (.bare ['a'])), middle) := by decide
  have hsecond : middle.next = (.ok (some b), behind) := by decide
  have hreads : Reads (start chain) [.bare ['a'], b] behind := .cons hfirst (.cons hsecond (.nil _))
  have htokens : tokenize chain = .ok [.bare ['a'], b, e, .bare ['f']] := by decide +kernel
  obtain ⟨-, hgroup, hlength, -, haccepted⟩ := tokenize_loses_nothing chain
  obtain ⟨hlaid, -, hjoined⟩ := haccepted _ htokens
  have hjoin : Text.join [' '] ([.bare ['a'], b, e, .bare ['f']].map ChainToken.source) =
      "a b\t(c(d) ) e(x) f".toList := by decide
  rw [hjoin] at hjoined
  exact ⟨hsecond, hreads, htokens, hgroup _ _ _ hsecond, hlength _ _ hreads, hlaid, hjoined⟩

end Lexer

end SeedChain
