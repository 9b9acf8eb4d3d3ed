import SeedChain.Proofs.Occurrences
import SeedChain.Proofs.Runs
/-!
# A substitution hits exactly the expression

Expressions are found in the encoded text and replaced in the text itself. The place computed for an
expression is the one where it stands, between two characters, as written and in its brackets; so a
pass changes that occurrence and leaves everything before and behind it alone, escaped pairs and
private-use characters included (`substitution_exact`). No condition is put on the delimiter, on the
text, or on the private-use characters it uses.
-/

namespace SeedChain

open EscapeCodec

namespace Progress

variable {env : Environment} {codec : EscapeCodec} {encoded : Text} {p p' : Progress}
  {es : List Expression} {store store' : Store}

theorem text_of_scan {found : Option Substitution}
    (h : p.scan env codec encoded es store = (.ok (p', found), store')) : p'.text = p.text := by
  fun_induction scan env codec encoded p es store with
  | case1 p store =>
    cases h
    rfl
  | case2 p store e es span hany ih => exact ih h
  | case3 => cases h
  | case4 p store e es span hany settle store₁ he ih => exact ih h
  | case5 p store e es span hany settle store₁ he ih => exact ih h
  | case6 =>
    cases h
    rfl

/-- A scan that stops does so at one of the expressions, with what that one evaluates to. -/
theorem exists_of_scan {s : Substitution}
    (h : p.scan env codec encoded es store = (.ok (p', some s), store')) :
    ∃ e ∈ es, s.span = codec.spanIn encoded e ∧
      ∃ before, e.evaluate env before = (.ok (some s.replacement), store') := by
  fun_induction scan env codec encoded p es store with
  | case1 => cases h
  | case2 p store e es span hany ih =>
    obtain ⟨f, hf, hs⟩ := ih h
    exact ⟨f, by simp [hf], hs⟩
  | case3 => cases h
  | case4 p store e es span hany settle store₁ he ih =>
    obtain ⟨f, hf, hs⟩ := ih h
    exact ⟨f, by simp [hf], hs⟩
  | case5 p store e es span hany settle store₁ he ih =>
    obtain ⟨f, hf, hs⟩ := ih h
    exact ⟨f, by simp [hf], hs⟩
  | case6 p e es store span hany replacement store₁ he hne =>
    cases h
    exact ⟨e, by simp, rfl, store, he⟩

end Progress

/-- Every expression of a text stands where its place says: at the length of what precedes it once
placeholders are turned back, between characters, as written and in its brackets. A pass that makes a
substitution puts what such an expression evaluates to in the place of that occurrence and keeps
what is before and behind it; any other pass keeps the whole text. -/
theorem substitution_exact (delimiter : Char) (t : Text) :
    let codec := avoiding delimiter t
    let encoded := codec.encode t
    let place (e : Expression) : Span :=
      let start := Text.byteLength (codec.decode .escaped (Text.takeBytes e.span.start encoded))
      ⟨start, start + Text.byteLength e.matched⟩
    (∀ e ∈ codec.findAll encoded,
      (∃ x y z, encoded = x ++ y ++ z ∧ e.span = Span.behind x y) ∧
      (place e).Covers t e.matched ∧ (place e).slice t = e.matched ∧
      e.matched.head? = some '[' ∧ e.matched.getLast? = some ']') ∧
    ∀ (env : Environment) (p p' : Progress) (found : Option Substitution) (store store' : Store),
      env.delimiter = delimiter → p.text = t → p.pass env store = (.ok (p', found), store') →
      match found with
      | none => p'.text = t
      | some s => ∃ e ∈ codec.findAll encoded, ∃ before after,
          t = before ++ e.matched ++ after ∧ s.span = place e ∧
          place e = Span.behind before e.matched ∧
          (∃ store₀, e.evaluate env store₀ = (.ok (some s.replacement), store')) ∧
          (p'.substitute s).text = before ++ s.replacement ++ after := by
  intro codec encoded place
  have ha : codec.Avoids t := avoiding_avoids delimiter t
  refine ⟨fun e he => ?_, ?_⟩
  · obtain ⟨before, after, hstands⟩ := exists_stands ha he
    obtain ⟨inner, hinner⟩ := hstands.bracketed ha
    have hcovers : (place e).Covers t e.matched := hstands.covers ha
    refine ⟨⟨_, _, _, hstands.encode_eq, hstands.span_eq⟩, hcovers, hcovers.slice_eq, ?_, ?_⟩
    · simp [hinner]
    · rw [hinner, List.getLast?_concat]
  · rintro env p p' found store store' rfl rfl hpass
    have htext := Progress.text_of_scan hpass
    cases found with
    | none => exact htext
    | some s =>
      obtain ⟨e, he, hspan, hevaluate⟩ := Progress.exists_of_scan hpass
      obtain ⟨before, after, hstands⟩ := exists_stands ha he
      have hplace : place e = Span.behind before e.matched := hstands.spanIn_eq ha
      refine ⟨e, he, before, after, hstands.text_eq, hspan, hplace, hevaluate, ?_⟩
      have hs : s.span = Span.behind before e.matched := hspan.trans hplace
      rw [Progress.substitute, hs, htext, hstands.text_eq]
      exact Span.replaceIn_behind before e.matched after s.replacement

/-- The escaped bracket and the private-use character before the expression stay, the escaped pair
inside it is part of what is replaced. -/
theorem substitution_exact_escaped :
    let t := "\\]\uE000 [TEXT(a\\)b) => upper] c".toList
    let codec := avoiding ',' t
    let e : Expression := ⟨.text, "a\\)b".toList, [⟨"upper".toList, [], "upper".toList⟩],
      "[TEXT(a\\)b) => upper]".toList, ⟨7, 29⟩⟩
    e ∈ codec.findAll (codec.encode t) ∧ (codec.spanIn (codec.encode t) e).Covers t e.matched ∧
      ∃ p s before after, Progress.pass (Environment.plain ',') ⟨t, []⟩ [] = (.ok (p, some s), []) ∧
        s.replacement = "A)B".toList ∧ (p.substitute s).text = before ++ s.replacement ++ after := by
  intro t codec e
  have he : e ∈ codec.findAll (codec.encode t) := by decide +kernel
  have hpass : Progress.pass (Environment.plain ',') ⟨"\\]\uE000 [TEXT(a\\)b) => upper] c".toList, []⟩ [] =
      (.ok (⟨"\\]\uE000 [TEXT(a\\)b) => upper] c".toList, []⟩, some ⟨⟨6, 27⟩, "A)B".toList⟩), []) := by
    have hlisted : expressions ',' "\\]\uE000 [TEXT(a\\)b) => upper] c".toList = [e] :=
      findAll_eq_of_perm (by decide +kernel) (List.pairwise_singleton _ e)
    rw [Progress.pass_of_expressions hlisted]
    rfl
  obtain ⟨hfound, hpasses⟩ := substitution_exact ',' t
  obtain ⟨-, -, before, after, -, -, -, -, htext⟩ := hpasses _ _ _ _ _ _ rfl rfl hpass
  exact ⟨he, (hfound e he).2.1, _, _, before, after, hpass, rfl, htext⟩

end SeedChain
