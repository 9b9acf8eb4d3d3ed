import SeedChain.Proofs.FirstStep
import SeedChain.Proofs.Idempotence
/-!
# Malformed expressions inside others

There are two ways in which a nested expression comes to nothing. If it is evaluated and left as
written, all expressions around it are passed over, and the text stays as it is
(`process_of_left_innermost`). If its chain is malformed it is no expression at all
(`start_ne_of_malformed`), so it holds nothing back: the expression around it is evaluated with the
malformed one as part of its text (`process_around_malformed`).
-/

namespace SeedChain

namespace EscapeCodec

/-- The text begins with a candidate that is complete up to its closing bracket, and whose chain is
rejected. -/
inductive Malformed : Text → Prop
  | candidate {inner behind seed calls chain rest keyword error}
      (opening_read : readOpening? inner = some (keyword, behind))
      (seed_cut : cutSeed? 0 behind = some (seed, '=' :: '>' :: calls))
      (chain_cut : cutChain? 0 calls = some (chain, rest))
      (rejected : Lexer.tokenize chain = .error error) : Malformed ('[' :: inner)

variable {codec : EscapeCodec} {t before x : Text} {e : Expression}

theorem expressionAt?_of_malformed (codec : EscapeCodec) (offset : Nat) (h : Malformed x) :
    codec.expressionAt? offset x = none := by
  cases h with
  | candidate hopening hseed hchain hlex =>
    simp [expressionAt?_eq, read?, readTokens?, hopening, hseed, hchain, hlex, Except.toOption]

/-- A malformed candidate is no expression. -/
theorem start_ne_of_malformed (h : Malformed x) (he : e ∈ codec.findAll (before ++ x)) :
    e.span.start ≠ Text.byteLength before := by
  intro hstart
  rw [findAll, List.mem_mergeSort, mem_expressionsFrom] at he
  obtain ⟨before', y, hcut, hat⟩ := he
  have hplace : Text.byteLength before' = Text.byteLength before := by
    obtain ⟨_, _, _, -, -, heq⟩ := expressionAt?_eq_some_iff.1 hat
    rw [heq] at hstart
    simpa [expressionOf] using hstart
  obtain ⟨w, hw, hx⟩ := Text.exists_eq_append_of_byteLength_le hcut (Nat.le_of_eq hplace.symm)
  obtain rfl : w = [] := by
    apply Text.eq_nil_of_byteLength
    rw [hw, Text.byteLength_append] at hplace
    omega
  obtain rfl : x = y := by simpa using hx
  rw [expressionAt?_of_malformed codec _ h] at hat
  cases hat

end EscapeCodec

open EscapeCodec (avoiding avoiding_avoids cutChain? cutSeed? exists_stands readOpening?
  spanIn_within_iff Malformed)

variable {env : Environment} {t before x : Text} {store after : Store} {e f : Expression}
  {rest : List Expression}

/-- All expressions around a settled span are passed over, one after the other. -/
theorem Reaches.passOver_all {limit : Nat} {m : Moment} {vs : List Evaluation}
    (h : Reaches env limit t store m vs)
    (haround : ∀ e ∈ m.pending, ∃ σ ∈ m.progress.settled,
      σ.within (placeOf env.delimiter m.progress.text e) = true) :
    Reaches env limit t store { m with pending := [] } vs := by
  obtain ⟨progress, pending, left, current⟩ := m
  induction pending with
  | nil => exact h
  | cons e pending ih =>
    exact ih (h.passOver rfl (haround e (by simp))) fun f hf => haround f (List.mem_cons_of_mem _ hf)

/-- Where all expressions stand around the first one, and that one is left as written, so are the others:
the text stays as it is. -/
theorem process_of_left_innermost {outcome : Option Text}
    (hfound : expressions env.delimiter t = f :: rest)
    (haround : ∀ e ∈ rest, f.span.within e.span = true)
    (ho : f.evaluate env store = (.ok outcome, after)) (hleft : ∀ r ∈ outcome, r = f.matched)
    (limit : Nat) : process env limit t store = (.ok t, after) := by
  have hv := Moment.opening_evaluates limit hfound ho
  have hleaves := (Reaches.start.leaves_iff hv).2 ⟨outcome, rfl, hleft⟩
  refine (Ends.resolved ((Reaches.start.settle hv hleaves).passOver_all fun e he => ?_) rfl).process_eq
  refine ⟨placeOf env.delimiter t f, by simp [Progress.settle, Evaluation.place], ?_⟩
  exact (spanIn_within_iff (avoiding_avoids env.delimiter t) (show f ∈ expressions env.delimiter t by
    simp [hfound]) (show e ∈ expressions env.delimiter t by simp [hfound, he])).2 (haround e he)

/-- A text that is one expression, and holds no other one but malformed ones, is resolved by that one:
the malformed ones are part of its text and keep nothing as it is. -/
theorem process_around_malformed (hfound : expressions env.delimiter t = [e]) (hwhole : e.matched = t)
    (hcut : (avoiding env.delimiter t).encode t = before ++ x) (hx : Malformed x) (store : Store) :
    (∀ f ∈ expressions env.delimiter t, f.span.start ≠ Text.byteLength before) ∧
    (∀ error after, e.evaluate env store = (.error error, after) →
      ∀ limit, process env limit t store = (.error error, after)) ∧
    (∀ outcome after, e.evaluate env store = (.ok outcome, after) → (∀ r ∈ outcome, r = t) →
      ∀ limit, process env limit t store = (.ok t, after)) ∧
    ∀ replacement after, e.evaluate env store = (.ok (some replacement), after) → replacement ≠ t →
      ∀ limit, SameUpToLimit (process env (limit + 1) t store) (process env limit replacement after) := by
  refine ⟨fun f hf => ?_, fun error after ho limit => process_of_evaluate_error limit hfound ho,
    fun outcome after ho hleft => ?_, fun replacement after ho hne limit => ?_⟩
  · have hfound : f ∈ (avoiding env.delimiter t).findAll (before ++ x) := hcut ▸ hf
    exact EscapeCodec.start_ne_of_malformed hx hfound
  · exact process_of_left_innermost hfound (by simp) ho (hwhole.symm ▸ hleft)
  · obtain ⟨before, behind, hstands⟩ := exists_stands (avoiding_avoids env.delimiter t)
      (show e ∈ expressions env.delimiter t by simp [hfound])
    have hlength := congrArg List.length hstands.text_eq
    rw [hwhole, List.length_append, List.length_append] at hlength
    obtain rfl : before = [] := List.eq_nil_of_length_eq_zero (by omega)
    obtain rfl : behind = [] := List.eq_nil_of_length_eq_zero (by omega)
    have hsame := process_of_evaluate_some hfound ho (hwhole.symm ▸ hne) hstands limit
    rwa [List.nil_append, List.append_nil] at hsame

/-- A malformed expression in a seed: the expression around it is replaced all the same. -/
theorem process_around_malformed_seed :
    let env := Environment.plain ','
    let t := "[TEXT([TEXT(b) => upper)])]".toList
    let inner := "[TEXT(b) => upper)]".toList
    let e : Expression := ⟨.text, inner, [], t, ⟨0, 27⟩⟩
    expressions ',' t = [e] ∧ e.matched = t ∧
    (avoiding ',' t).encode t = "[TEXT(".toList ++ (inner ++ ")]".toList) ∧
    Malformed (inner ++ ")]".toList) ∧
    process env 1024 t [] = (.ok inner, []) ∧ process env 1024 t [] ≠ (.ok t, []) := by
  intro env t inner e
  have hfound : expressions ',' t = [e] := by
    have hlisted : (avoiding ',' t).expressionsFrom 0 ((avoiding ',' t).encode t) = [e] := by
      decide +kernel
    unfold expressions
    rw [EscapeCodec.findAll, hlisted]
    exact List.mergeSort_singleton e
  have hcut : (avoiding ',' t).encode t = "[TEXT(".toList ++ (inner ++ ")]".toList) := by decide +kernel
  have hopening : readOpening? "TEXT(b) => upper)])]".toList = some (.text, "b) => upper)])]".toList) := by
    decide +kernel
  have hseedCut : cutSeed? 0 "b) => upper)])]".toList = some (['b'], "=> upper)])]".toList) := by
    decide +kernel
  have hchainCut : cutChain? 0 " upper)])]".toList = some (" upper)".toList, ")]".toList) := by
    decide +kernel
  have hlex : Lexer.tokenize " upper)".toList = .error (.unbalancedParen "upper)".toList 6) := by
    decide +kernel
  have hmalformed : Malformed (inner ++ ")]".toList) := .candidate hopening hseedCut hchainCut hlex
  have hnone : expressions ',' inner = [] := by
    have hlisted : (avoiding ',' inner).expressionsFrom 0 ((avoiding ',' inner).encode inner) = [] := by
      decide +kernel
    unfold expressions
    rw [EscapeCodec.findAll, hlisted, List.mergeSort_nil]
  have hseed : plainSeed ',' .text inner = inner := by decide +kernel
  have hresume : resume? ',' .text inner [] = none := by rfl
  have hevaluate : e.evaluate env [] = (.ok (some inner), []) := by
    simp only [Expression.evaluate, build, env, Environment.plain, e, hseed, hresume]
    rfl
  have hprocess : process env 1024 t [] = (.ok inner, []) := by
    have hsame := (process_around_malformed hfound rfl hcut hmalformed []).2.2.2 inner [] hevaluate
      (by decide) 1023
    have hdone : Ends env 1023 inner [] (.ok inner, []) [] := .resolved .start hnone
    rw [hdone.process_eq] at hsame
    generalize process env 1024 t [] = result at hsame ⊢
    cases hsame
    rfl
  refine ⟨hfound, rfl, hcut, hmalformed, hprocess, fun hunchanged => ?_⟩
  have hsame := congrArg Prod.fst (hprocess.symm.trans hunchanged)
  exact absurd (Except.ok.inj hsame) (by decide)

end SeedChain
