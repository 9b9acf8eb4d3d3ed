import SeedChain.Proofs.FirstStep
import SeedChain.Proofs.Innermost
/-!
# What is left as written

A settled span belongs to an expression that was evaluated and left as written, and it stays with
that expression: substitutions before it move the span, substitutions behind it do not, and one that
overlaps it drops it. So the settled spans of a moment are the places to which earlier evaluations
have been carried (`Reaches.settled_origin`), every such place is settled (`Reaches.settled_of_leaves`),
and what stands there is not evaluated again (`left_as_written_once`).
-/

namespace SeedChain

/-- Substitutions, one after the other, carry a part of a text from one span to another. -/
def CarriedBy : List Substitution → Span → Span → Prop
  | [], σ, τ => τ = σ
  | s :: ss, σ, υ => ∃ τ, s.Carries σ τ ∧ CarriedBy ss τ υ

theorem carriedBy_concat {ss : List Substitution} {s : Substitution} {σ υ : Span} :
    CarriedBy (ss ++ [s]) σ υ ↔ ∃ τ, CarriedBy ss σ τ ∧ s.Carries τ υ := by
  induction ss generalizing σ with
  | nil => simp [CarriedBy]
  | cons s' ss ih =>
    simp only [List.cons_append, CarriedBy, ih]
    constructor
    · rintro ⟨τ, hτ, ρ, hρ, hs⟩
      exact ⟨ρ, ⟨τ, hτ, hρ⟩, hs⟩
    · rintro ⟨ρ, ⟨τ, hτ, hρ⟩, hs⟩
      exact ⟨τ, hτ, ρ, hρ, hs⟩

open Evaluation

variable {env : Environment} {limit : Nat} {t : Text} {store : Store} {m : Moment}
  {us vs ws : List Evaluation} {v : Evaluation} {rest : List Expression} {after : Store}

/-- An evaluated expression stands at its place, and it is not empty. -/
theorem Reaches.place_covers (h : Reaches env limit t store m vs)
    (hv : m.Evaluates env v rest after) :
    (v.place env.delimiter).Covers m.progress.text v.expression.matched ∧
      v.expression.matched ≠ [] := by
  have hplace := placeOf_covers (h.mem_expressions hv)
  rwa [← hv.progress] at hplace ⊢

theorem Reaches.matched_ne_nil (h : Reaches env limit t store m (us ++ v :: ws)) :
    v.expression.matched ≠ [] := by
  obtain ⟨m', _, _, hm', hv⟩ := h.at_evaluation
  exact (hm'.place_covers hv).2

/-- Every settled span is where an expression now stands that was evaluated and left as written. -/
theorem Reaches.settled_origin (h : Reaches env limit t store m vs) :
    ∀ σ ∈ m.progress.settled, ∃ us v ws, vs = us ++ v :: ws ∧ v.Leaves env.delimiter ∧
      CarriedBy (substitutions env.delimiter ws) (v.place env.delimiter) σ ∧
      σ.Covers m.progress.text v.expression.matched := by
  induction h with
  | start => simp [Moment.opening]
  | passOver _ _ _ ih => exact ih
  | @settle m vs v _ _ h hv hleaves ih =>
    intro σ hσ
    rcases List.mem_append.1 hσ with hσ | hσ
    · obtain ⟨us, u, ws, rfl, hu, hcarried, hcovers⟩ := ih σ hσ
      refine ⟨us, u, ws ++ [v], by simp, hu, ?_, hcovers⟩
      simpa [substitutions_of_leaves hleaves] using hcarried
    · rw [List.mem_singleton.1 hσ]
      exact ⟨vs, v, [], rfl, hleaves, rfl, (h.place_covers hv).1⟩
  | @substitute m vs v _ _ s _ h hv hs _ ih =>
    intro υ hυ
    obtain ⟨σ, hσ, hshift⟩ := List.mem_filterMap.1 hυ
    obtain ⟨us, u, ws, rfl, hu, hcarried, hcovers⟩ := ih σ hσ
    have hplace := (h.place_covers hv).1
    rw [← (span_of_substitution? hs).1] at hplace
    have hcarries := Substitution.carries_of_shift?
      (hcovers.start_lt_stop h.matched_ne_nil).le hshift
    refine ⟨us, u, ws ++ [v], by simp, hu, ?_, hcarries.covers hcovers hplace⟩
    rw [substitutions_append, substitutions_of_some hs]
    exact carriedBy_concat.2 ⟨σ, hcarried, hcarries⟩

/-- As long as no substitution overlaps it, an expression left as written stays settled, and stays
what it is. -/
theorem Reaches.settled_of_leaves (h : Reaches env limit t store m (us ++ v :: ws))
    (hv : v.Leaves env.delimiter) {σ : Span}
    (hcarried : CarriedBy (substitutions env.delimiter ws) (v.place env.delimiter) σ) :
    σ ∈ m.progress.settled ∧ σ.Covers m.progress.text v.expression.matched := by
  -- by induction on the run, whose last evaluation is `v` itself or comes after it
  generalize hvs : us ++ v :: ws = vs at h
  induction h generalizing ws σ with
  | start => simp at hvs
  | passOver _ _ _ ih => exact ih hcarried hvs
  | @settle m vs w _ _ h hw hleaves ih =>
    rcases append_cons_eq_concat hvs with ⟨rfl, rfl, rfl⟩ | ⟨xs, rfl, hxs⟩
    · obtain rfl : σ = v.place env.delimiter := hcarried
      exact ⟨List.mem_append_right _ (by simp), (h.place_covers hw).1⟩
    · rw [substitutions_append, substitutions_of_leaves hleaves, List.append_nil] at hcarried
      obtain ⟨hσ, hcovers⟩ := ih hcarried hxs.symm
      exact ⟨List.mem_append_left _ hσ, hcovers⟩
  | @substitute m vs w _ _ s _ h hw hs _ ih =>
    rcases append_cons_eq_concat hvs with ⟨rfl, rfl, rfl⟩ | ⟨xs, rfl, rfl⟩
    · rw [hv.2] at hs
      cases hs
    · rw [substitutions_append, substitutions_of_some hs] at hcarried
      obtain ⟨τ, hτ, hcarries⟩ := carriedBy_concat.1 hcarried
      obtain ⟨hmem, hcovers⟩ := ih hτ rfl
      obtain ⟨hplace, hne⟩ := h.place_covers hw
      rw [← (span_of_substitution? hs).1] at hplace
      have hshift := hcarries.shift? (hcovers.start_lt_stop h.matched_ne_nil)
        (hplace.start_lt_stop hne)
      exact ⟨List.mem_filterMap.2 ⟨τ, hmem, hshift⟩, hcarries.covers hcovers hplace⟩

/-- At every moment of a run, each settled span begins and ends between characters of the text, and
what stands there is an expression as it was evaluated earlier in the run and left as written, carried
there by the substitutions since. And once an expression has been left as written it stays what it is
for as long as no substitution overlaps it, and no later evaluation is of an expression that stands
there or around it. -/
theorem left_as_written_once (env : Environment) (limit : Nat) (t : Text) (store : Store) :
    (∀ m vs, Reaches env limit t store m vs → ∀ σ ∈ m.progress.settled,
      ∃ us v ws, vs = us ++ v :: ws ∧ v.Leaves env.delimiter ∧
        CarriedBy (substitutions env.delimiter ws) (v.place env.delimiter) σ ∧
        σ.Covers m.progress.text v.expression.matched) ∧
    ∀ r us v ws w xs, Ends env limit t store r (us ++ v :: ws ++ w :: xs) →
      v.Leaves env.delimiter → ∀ σ,
      CarriedBy (substitutions env.delimiter ws) (v.place env.delimiter) σ →
      σ.Covers w.progress.text v.expression.matched ∧ w.place env.delimiter ≠ σ ∧
        σ.within (w.place env.delimiter) = false := by
  refine ⟨fun m vs h => h.settled_origin, fun r us v ws w xs h hv σ hcarried => ?_⟩
  obtain ⟨m, rest, after, hm, hw⟩ := h.at_evaluation
  obtain ⟨hσ, hcovers⟩ := hm.settled_of_leaves hv hcarried
  have hfree := hw.free σ hσ
  refine ⟨hw.progress ▸ hcovers, ?_, hfree⟩
  rintro rfl
  rw [Span.within_self] at hfree
  cases hfree

/-- The document without a text is in its canonical spelling, and so it is left as written. -/
theorem evaluate_null :
    Expression.evaluate (Environment.plain ',')
      ⟨.json, "null".toList, [], "[JSON(null)]".toList, ⟨0, 12⟩⟩ [] = (.ok none, []) := by
  have htokens : Json.tokens? ['n', 'u', 'l', 'l'] = some [.null] := by
    rw [Json.tokens?, if_neg (by decide),
      show Json.takeToken? 'n' ['u', 'l', 'l'] = some (.null, []) from rfl]
    change (Json.tokens? []).map _ = _
    rw [Json.tokens?]
    rfl
  have hread : JsonDocument.read "null".toList = .ok ⟨.null, .compact⟩ := by
    unfold JsonDocument.read Json.read?
    rw [show Text.trim "null".toList = ['n', 'u', 'l', 'l'] by decide, htokens]
    rfl
  have hbuild : build (Environment.plain ',') .json "null".toList [] =
      .ok (.json ⟨.null, .compact⟩) := by
    change (Value.json <$> JsonDocument.read "null".toList).mapError _ = _
    rw [hread]
    rfl
  rw [Expression.evaluate, hbuild]
  rfl

/-- An expression that does not stand around the one settled span is evaluated when its turn comes. -/
theorem evaluates_beside {t : Text} {σ : Span} {e : Expression} {outcome : Except EvalError (Option Text)}
    (hfree : σ.within (placeOf env.delimiter t e) = false) (ho : e.evaluate env store = (outcome, after))
    (rest : List Expression) (limit : Nat) :
    Moment.Evaluates env ⟨⟨t, [σ]⟩, e :: rest, limit, store⟩ ⟨⟨t, [σ]⟩, e, store, outcome⟩ rest after := by
  refine ⟨rfl, rfl, rfl, fun τ hτ => ?_, ho⟩
  rw [List.mem_singleton.1 hτ]
  exact hfree

/-- The document without a text is settled in the first pass. In the second one, after the text beside it
has been replaced, it is passed over, and the evaluation that fails is of another expression. -/
theorem left_as_written_once_beside :
    let env := Environment.plain ','
    let v : Evaluation := ⟨⟨"[JSON(null)][TEXT(a)][NUMBER(x)]".toList, []⟩,
      ⟨.json, "null".toList, [], "[JSON(null)]".toList, ⟨0, 12⟩⟩, [], .ok none⟩
    let u : Evaluation := ⟨⟨v.progress.text, [⟨0, 12⟩]⟩,
      ⟨.text, ['a'], [], "[TEXT(a)]".toList, ⟨12, 21⟩⟩, [], .ok (some ['a'])⟩
    let w : Evaluation := ⟨⟨"[JSON(null)]a[NUMBER(x)]".toList, [⟨0, 12⟩]⟩,
      ⟨.number, ['x'], [], "[NUMBER(x)]".toList, ⟨13, 24⟩⟩, [],
      .error (.conversion .number ['x'] (.notANumber ['x']))⟩
    let m : Moment := ⟨w.progress, [v.expression, w.expression], 4, []⟩
    Reaches env 5 v.progress.text [] m [v, u] ∧ ⟨0, 12⟩ ∈ m.progress.settled ∧
    v.Leaves ',' ∧ CarriedBy (substitutions ',' [u]) (v.place ',') ⟨0, 12⟩ ∧
    Span.Covers ⟨0, 12⟩ m.progress.text v.expression.matched ∧
    ∃ r, Ends env 5 v.progress.text [] r [v, u, w] ∧
      Span.Covers ⟨0, 12⟩ w.progress.text v.expression.matched ∧ w.place ',' ≠ ⟨0, 12⟩ := by
  intro env v u w m
  let later : Expression := ⟨.number, ['x'], [], "[NUMBER(x)]".toList, ⟨21, 32⟩⟩
  have hplace : v.place ',' = ⟨0, 12⟩ := by decide +kernel
  have hplaceText : u.place ',' = ⟨12, 21⟩ := by decide +kernel
  have hplaceNumber : w.place ',' = ⟨13, 24⟩ := by decide +kernel
  have hleaves : v.Leaves ',' := ⟨⟨_, rfl⟩, rfl⟩
  -- the first pass
  have hfound : expressions ',' "[JSON(null)][TEXT(a)][NUMBER(x)]".toList =
      [v.expression, u.expression, later] :=
    EscapeCodec.findAll_eq_of_perm (by decide +kernel) (by decide +kernel)
  have hv : Moment.Evaluates env (.opening ',' v.progress 5 []) v [u.expression, later] [] :=
    Moment.opening_evaluates 5 hfound evaluate_null
  have hu : Moment.Evaluates env ⟨u.progress, [u.expression, later], 5, []⟩ u [later] [] := by
    apply evaluates_beside
    · change Span.within ⟨0, 12⟩ (u.place ',') = false
      rw [hplaceText]
      rfl
    · rfl
  have hs : u.substitution? ',' = some ⟨⟨12, 21⟩, ['a']⟩ := by
    rw [← hplaceText]
    apply Evaluation.substitution?_of_ne rfl
    rw [hplaceText]
    decide
  have hstart : Reaches env 5 v.progress.text [] (.opening ',' v.progress 5 []) [] := .start
  have hsettled := hstart.settle hv hleaves
  rw [show env.delimiter = ',' from rfl, hplace] at hsettled
  have hprogress : Progress.substitute ⟨"[JSON(null)][TEXT(a)][NUMBER(x)]".toList, [⟨0, 12⟩]⟩
      ⟨⟨12, 21⟩, ['a']⟩ = ⟨"[JSON(null)]a[NUMBER(x)]".toList, [⟨0, 12⟩]⟩ := by decide
  -- the second pass
  have hleft : expressions ',' "[JSON(null)]a[NUMBER(x)]".toList = [v.expression, w.expression] :=
    EscapeCodec.findAll_eq_of_perm (by decide +kernel) (by decide +kernel)
  have hopening : Moment.opening ',' ⟨"[JSON(null)]a[NUMBER(x)]".toList, [⟨0, 12⟩]⟩ 4 [] = m := by
    rw [Moment.opening, hleft]
  have hreached : Reaches env 5 v.progress.text [] m [v, u] := by
    rw [← hopening, ← hprogress]
    exact hsettled.substitute hu hs rfl
  have haround : (⟨0, 12⟩ : Span).within
      (placeOf ',' "[JSON(null)]a[NUMBER(x)]".toList v.expression) = true := by
    decide +kernel
  have hread : Decimal.read ['x'] = .error (.notANumber ['x']) := by decide +kernel
  have hbuild : build (Environment.plain ',') .number ['x'] [] =
      .error (.conversion .number ['x'] (.notANumber ['x'])) := by
    change (Value.number <$> Decimal.read ['x']).mapError (EvalError.conversion .number ['x']) = _
    rw [hread]
    rfl
  have hw : Moment.Evaluates env ⟨w.progress, [w.expression], 4, []⟩ w [] [] := by
    apply evaluates_beside
    · change Span.within ⟨0, 12⟩ (w.place ',') = false
      rw [hplaceNumber]
      rfl
    · exact Expression.evaluate_of_build_error hbuild
  have hends := Ends.failed (hreached.passOver rfl ⟨_, List.mem_singleton_self _, haround⟩) hw rfl
  -- the substitution lies behind the document
  have hsubstitutions : substitutions ',' [u] = [⟨⟨12, 21⟩, ['a']⟩] := substitutions_of_some hs
  have hbefore : Substitution.Carries ⟨⟨12, 21⟩, ['a']⟩ ⟨0, 12⟩ ⟨0, 12⟩ := .before (by decide)
  obtain ⟨hall, honce⟩ := left_as_written_once env 5 v.progress.text []
  obtain ⟨hcovers, hne, -⟩ := honce _ [] v [u] w [] hends hleaves ⟨0, 12⟩ (by
    rw [show env.delimiter = ',' from rfl, hsubstitutions, hplace]
    exact ⟨_, hbefore, rfl⟩)
  have hmem : ⟨0, 12⟩ ∈ m.progress.settled := List.mem_singleton_self _
  obtain ⟨us, v', ws, hvs, hleaves', -, hheld⟩ := hall _ _ hreached _ hmem
  have hv' : v' = v := by
    have hor : v' = v ∨ v' = u := by
      simpa using (hvs ▸ by simp : v' ∈ [v, u])
    rcases hor with hv' | rfl
    · exact hv'
    · exact nomatch hs.symm.trans hleaves'.2
  refine ⟨hreached, hmem, hleaves, ?_, hv' ▸ hheld, _, hends, hcovers, hne⟩
  rw [hsubstitutions, hplace]
  exact ⟨_, hbefore, rfl⟩

end SeedChain
