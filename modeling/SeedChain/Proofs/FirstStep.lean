import SeedChain.Proofs.Occurrences
import SeedChain.Proofs.Runs
/-!
# Resolving a text by its first expression

A text can be resolved as a whole, or one can look for its first expression, evaluate that one from
the seed it has been built with, and put the replacement in its place oneself. Both agree
(`process_unfolds`): with nothing settled the first expression is evaluated at once, and behind a first
substitution nothing is settled either. The limit of the remaining run is smaller by one, which
can be told only from the number in an error (`SameUpToLimit`).
-/

namespace SeedChain

open EscapeCodec (avoiding avoiding_avoids exists_stands)

/-- The results are the same, or both are that the limit was met, whatever the limits were. -/
inductive SameUpToLimit : Except EvalError Text × Store → Except EvalError Text × Store → Prop
  | same (r : Except EvalError Text × Store) : SameUpToLimit r r
  | limits (n k : Nat) (store : Store) :
    SameUpToLimit (.error (.passLimit n), store) (.error (.passLimit k), store)

theorem SameUpToLimit.eq_ok {r : Except EvalError Text × Store} {t : Text} {store : Store}
    (h : SameUpToLimit r (.ok t, store)) : r = (.ok t, store) := by
  generalize hr : (Except.ok t, store) = r' at h
  cases h with
  | same => rfl
  | limits => cases hr

variable {env : Environment} {t : Text} {store after : Store} {e : Expression} {seed : Value}
  {rest : List Expression}

/-- The limit itself is only reported; what is left decides. -/
theorem Progress.resolve_sameUpToLimit (env : Environment) (limit limit' left : Nat) (p : Progress)
    (store : Store) :
    SameUpToLimit (p.resolve env limit left store) (p.resolve env limit' left store) := by
  induction left generalizing p store with
  | zero =>
    unfold Progress.resolve
    rcases p.pass env store with ⟨_ | ⟨p', _ | s⟩, after⟩
    · exact .same _
    · exact .same _
    · exact .limits _ _ _
  | succ left ih =>
    unfold Progress.resolve
    rcases p.pass env store with ⟨_ | ⟨p', _ | s⟩, after⟩
    · exact .same _
    · exact .same _
    · exact ih _ _

/-! ## The first expression -/

/-- The head of the expressions is looked at, and its seed is built. -/
theorem firstExpression_of_expressions {es : List Expression} (h : expressions env.delimiter t = es) :
    firstExpression env t store = es.head?.elim (.ok none) fun e =>
      (build env e.keyword e.seed store).map fun seed => some (e, seed) := by
  subst h
  unfold firstExpression
  cases expressions env.delimiter t <;> rfl

theorem expressions_of_firstExpression_none (h : firstExpression env t store = .ok none) :
    expressions env.delimiter t = [] := by
  unfold firstExpression at h
  split at h
  · assumption
  · rename_i e rest _
    cases hb : build env e.keyword e.seed store <;> simp [hb, Except.map] at h

theorem build_of_firstExpression_error {error : EvalError}
    (h : firstExpression env t store = .error error) :
    ∃ e rest, expressions env.delimiter t = e :: rest ∧
      build env e.keyword e.seed store = .error error := by
  unfold firstExpression at h
  split at h
  · cases h
  · rename_i e rest hfound
    refine ⟨e, rest, hfound, ?_⟩
    cases hb : build env e.keyword e.seed store <;> simp_all [Except.map]

theorem build_of_firstExpression_some (h : firstExpression env t store = .ok (some (e, seed))) :
    ∃ rest, expressions env.delimiter t = e :: rest ∧
      build env e.keyword e.seed store = .ok seed := by
  unfold firstExpression at h
  split at h
  · cases h
  · rename_i e' rest hfound
    cases hb : build env e'.keyword e'.seed store with
    | error => simp [hb, Except.map] at h
    | ok seed' =>
      simp only [hb, Except.map, Except.ok.injEq, Option.some.injEq, Prod.mk.injEq] at h
      obtain ⟨rfl, rfl⟩ := h
      exact ⟨rest, hfound, hb⟩

theorem Expression.evaluate_of_build (h : build env e.keyword e.seed store = .ok seed) :
    e.evaluate env store = e.evaluateFrom env seed store := by
  simp only [Expression.evaluate, h]

theorem Expression.evaluate_of_build_error {error : EvalError}
    (h : build env e.keyword e.seed store = .error error) :
    e.evaluate env store = (.error error, store) := by
  simp only [Expression.evaluate, h]

/-- A run begins with the evaluation of the first expression. -/
theorem Moment.opening_evaluates {outcome : Except EvalError (Option Text)} (limit : Nat)
    (hfound : expressions env.delimiter t = e :: rest)
    (ho : e.evaluate env store = (outcome, after)) :
    Moment.Evaluates env (.opening env.delimiter ⟨t, []⟩ limit store)
      ⟨⟨t, []⟩, e, store, outcome⟩ rest after :=
  ⟨hfound, rfl, rfl, nofun, ho⟩

theorem process_of_evaluate_error {error : EvalError} (limit : Nat)
    (hfound : expressions env.delimiter t = e :: rest)
    (ho : e.evaluate env store = (.error error, after)) :
    process env limit t store = (.error error, after) :=
  (Ends.failed .start (Moment.opening_evaluates limit hfound ho) rfl).process_eq

/-- After the first substitution the run goes on like that of the new text. -/
theorem process_of_evaluate_some {replacement before behind : Text}
    (hfound : expressions env.delimiter t = e :: rest)
    (ho : e.evaluate env store = (.ok (some replacement), after)) (hne : replacement ≠ e.matched)
    (hstands : (avoiding env.delimiter t).Stands t e before behind) (limit : Nat) :
    SameUpToLimit (process env (limit + 1) t store)
      (process env limit (before ++ replacement ++ behind) after) := by
  have ha := avoiding_avoids env.delimiter t
  have hplace : placeOf env.delimiter t e = Span.behind before e.matched := hstands.spanIn_eq ha
  have hslice : (placeOf env.delimiter t e).slice t = e.matched := (hstands.covers ha).slice_eq
  let v : Evaluation := ⟨⟨t, []⟩, e, store, .ok (some replacement)⟩
  have hs : v.substitution? env.delimiter = some ⟨placeOf env.delimiter t e, replacement⟩ := by
    apply Evaluation.substitution?_of_ne rfl
    change replacement ≠ (placeOf env.delimiter t e).slice t
    rwa [hslice]
  have hv := Moment.opening_evaluates (limit + 1) hfound ho
  have hreached := Reaches.start.substitute hv hs rfl
  have hnext : Progress.substitute ⟨t, []⟩ ⟨placeOf env.delimiter t e, replacement⟩ =
      ⟨before ++ replacement ++ behind, []⟩ := by
    rw [Progress.substitute, hplace]
    conv_lhs => rw [hstands.text_eq]
    rw [Span.replaceIn_behind]
    rfl
  have hresult := hreached.result_eq
  rw [Moment.result_opening] at hresult
  rw [← hresult]
  simp only [Moment.opening, hnext]
  exact Progress.resolve_sameUpToLimit env (limit + 1) limit limit _ after

/-- Resolving a text agrees with evaluating its first expression. Without one the text is resolved; if
the seed of the first one cannot be built, or its evaluation fails, resolving fails alike; and if it
has a replacement other than itself, resolving the text comes to the same as resolving the text in
which this one occurrence is replaced, with the store the evaluation leaves and one substitution less
allowed. -/
theorem process_unfolds (env : Environment) (t : Text) (store : Store) :
    (firstExpression env t store = .ok none →
      ∀ limit, process env limit t store = (.ok t, store)) ∧
    (∀ error, firstExpression env t store = .error error →
      ∀ limit, process env limit t store = (.error error, store)) ∧
    ∀ e seed, firstExpression env t store = .ok (some (e, seed)) →
      (∀ error after, e.evaluateFrom env seed store = (.error error, after) →
        ∀ limit, process env limit t store = (.error error, after)) ∧
      ∀ replacement after, e.evaluateFrom env seed store = (.ok (some replacement), after) →
        replacement ≠ e.matched →
        ∃ before behind, (avoiding env.delimiter t).Stands t e before behind ∧
          ∀ limit, SameUpToLimit (process env (limit + 1) t store)
            (process env limit (before ++ replacement ++ behind) after) := by
  refine ⟨fun h limit => ?_, fun error h limit => ?_, fun e seed h => ?_⟩
  · have hnone := expressions_of_firstExpression_none h
    exact (Ends.resolved .start hnone).process_eq
  · obtain ⟨e, rest, hfound, hbuild⟩ := build_of_firstExpression_error h
    exact process_of_evaluate_error limit hfound (Expression.evaluate_of_build_error hbuild)
  · obtain ⟨rest, hfound, hbuild⟩ := build_of_firstExpression_some h
    have hevaluate := Expression.evaluate_of_build hbuild
    refine ⟨fun error after ho limit => ?_, fun replacement after ho hne => ?_⟩
    · exact process_of_evaluate_error limit hfound (hevaluate.trans ho)
    · have he : e ∈ expressions env.delimiter t := by simp [hfound]
      obtain ⟨before, behind, hstands⟩ := exists_stands (avoiding_avoids env.delimiter t) he
      exact ⟨before, behind, hstands,
        process_of_evaluate_some hfound (hevaluate.trans ho) hne hstands⟩

/-- Without expression, with a seed that is no number, with an argument too many, and with a value that is
stored by the first expression and resumed by the second one. -/
theorem process_unfolds_stored :
    let env := Environment.plain ','
    let stored : Store := [(['k'], .value (.text ['a']))]
    process env 3 "ab".toList [] = (.ok "ab".toList, []) ∧
    process env 3 "[NUMBER(x)]".toList [] =
      (.error (.conversion .number ['x'] (.notANumber ['x'])), []) ∧
    process env 3 "[TEXT(a) => text(b)]".toList [] =
      (.error (.arity .text "text".toList (.fixed 0) 1), []) ∧
    ∃ before behind : Text,
      "[TEXT(a) => store(k)][TEXT(k)]".toList = before ++ "[TEXT(a) => store(k)]".toList ++ behind ∧
      SameUpToLimit (process env 2 "[TEXT(a) => store(k)][TEXT(k)]".toList [])
        (process env 1 (before ++ ['a'] ++ behind) stored) := by
  intro env stored
  let called : Expression := ⟨.text, ['a'], [⟨"text".toList, [['b']], "text(b)".toList⟩],
    "[TEXT(a) => text(b)]".toList, ⟨0, 20⟩⟩
  let storing : Expression := ⟨.text, ['a'], [⟨"store".toList, [['k']], "store(k)".toList⟩],
    "[TEXT(a) => store(k)]".toList, ⟨0, 21⟩⟩
  have hnone : firstExpression (Environment.plain ',') "ab".toList [] = .ok none := by
    have hlisted : expressions ',' "ab".toList = [] :=
      EscapeCodec.findAll_eq_of_perm (by decide +kernel) .nil
    rw [firstExpression_of_expressions hlisted]
    rfl
  have herror : firstExpression (Environment.plain ',') "[NUMBER(x)]".toList [] =
      .error (.conversion .number ['x'] (.notANumber ['x'])) := by
    have hlisted : expressions ',' "[NUMBER(x)]".toList =
        [⟨.number, ['x'], [], "[NUMBER(x)]".toList, ⟨0, 11⟩⟩] :=
      EscapeCodec.findAll_eq_of_perm (by decide +kernel) (List.pairwise_singleton _ _)
    rw [firstExpression_of_expressions hlisted]
    rfl
  have hcalled : firstExpression (Environment.plain ',') "[TEXT(a) => text(b)]".toList [] =
      .ok (some (called, .text ['a'])) := by
    have hlisted : expressions ',' "[TEXT(a) => text(b)]".toList = [called] :=
      EscapeCodec.findAll_eq_of_perm (by decide +kernel) (List.pairwise_singleton _ _)
    rw [firstExpression_of_expressions hlisted]
    rfl
  have hstoring : firstExpression (Environment.plain ',') "[TEXT(a) => store(k)][TEXT(k)]".toList [] =
      .ok (some (storing, .text ['a'])) := by
    have hlisted : expressions ',' "[TEXT(a) => store(k)][TEXT(k)]".toList =
        [storing, ⟨.text, ['k'], [], "[TEXT(k)]".toList, ⟨21, 30⟩⟩] :=
      EscapeCodec.findAll_eq_of_perm (by decide +kernel) (by decide +kernel)
    rw [firstExpression_of_expressions hlisted]
    rfl
  have hfails : called.evaluateFrom (Environment.plain ',') (.text ['a']) [] =
      (.error (.arity .text "text".toList (.fixed 0) 1), []) := rfl
  have hstores : storing.evaluateFrom (Environment.plain ',') (.text ['a']) [] =
      (.ok (some ['a']), [(['k'], .value (.text ['a']))]) := rfl
  obtain ⟨before, behind, hstands, hsame⟩ :=
    ((process_unfolds env _ []).2.2 _ _ hstoring).2 _ _ hstores (by decide)
  exact ⟨(process_unfolds env _ []).1 hnone 3, (process_unfolds env _ []).2.1 _ herror 3,
    ((process_unfolds env _ []).2.2 _ _ hcalled).1 _ _ hfails 3, before, behind, hstands.text_eq,
    hsame 1⟩

end SeedChain
