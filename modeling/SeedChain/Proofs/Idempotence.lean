import SeedChain.Proofs.Context
import SeedChain.Proofs.Settled
import SeedChain.Proofs.Writes
/-!
# Resolving twice

A resolved text can still hold expressions: those without a replacement, those that are replaced by
themselves, and all that stand around one of them. Being resolved is said of the text and the store
alone (`Resolved`): an expression without another one inside is left as written, and its evaluation
does not change the store. Such a text is resolved to itself (`process_of_resolved`), and a run
that writes nothing ends with such a text (`Ends.result_resolved`), because every expression that is
left as written has been evaluated with the same store in some pass, and what it evaluates to does not
depend on the text around it. Hence resolving is idempotent (`process_idempotent`).
-/

namespace SeedChain

open EscapeCodec (LeavesFree isPrivateUse)

/-- Every innermost expression of the text is left as written, and the store with it. -/
def Resolved (env : Environment) (t : Text) (store : Store) : Prop :=
  ∀ e ∈ expressions env.delimiter t,
    (∀ f ∈ expressions env.delimiter t, f ≠ e → f.span.within e.span = false) →
    ∃ replacement, e.evaluate env store = (.ok replacement, store) ∧
      ∀ r ∈ replacement, r = e.matched

variable {env : Environment} {limit : Nat} {t out : Text} {store after : Store} {m : Moment}
  {vs : List Evaluation} {v : Evaluation} {rest : List Expression}

theorem Evaluation.leaves_iff {delimiter : Char}
    (h : (v.place delimiter).Covers v.progress.text v.expression.matched) :
    v.Leaves delimiter ↔
      ∃ replacement, v.outcome = .ok replacement ∧ ∀ r ∈ replacement, r = v.expression.matched := by
  unfold Evaluation.Leaves Evaluation.substitution?
  rw [h.slice_eq]
  rcases v.outcome with error | _ | r
  · simp
  · simp
  · by_cases hr : r = v.expression.matched <;> simp [hr]

theorem Reaches.leaves_iff (h : Reaches env limit t store m vs) (hv : m.Evaluates env v rest after) :
    v.Leaves env.delimiter ↔
      ∃ replacement, v.outcome = .ok replacement ∧ ∀ r ∈ replacement, r = v.expression.matched := by
  apply Evaluation.leaves_iff
  rw [hv.progress]
  exact (h.place_covers hv).1

/-! ## Resolved texts -/

/-- Over a resolved text nothing is evaluated but what is left as written. -/
theorem Reaches.leaves_of_resolved (hresolved : Resolved env t store)
    (h : Reaches env limit t store m vs) (htext : m.progress.text = t) (hstore : m.store = store)
    (hv : m.Evaluates env v rest after) : v.Leaves env.delimiter ∧ after = store := by
  have he := h.mem_expressions hv
  have hinner : ∀ f ∈ expressions env.delimiter m.progress.text, f ≠ v.expression →
      f.span.within v.expression.span = false := fun f hf hne => h.innermost hv hf hne
  rw [htext] at he hinner
  obtain ⟨replacement, hevaluate, hleft⟩ := hresolved _ he hinner
  have ho := hv.outcome
  rw [hstore, hevaluate] at ho
  obtain ⟨houtcome, rfl⟩ := Prod.mk.inj ho
  exact ⟨(h.leaves_iff hv).2 ⟨replacement, houtcome.symm, hleft⟩, rfl⟩

theorem Reaches.unchanged_of_resolved (hresolved : Resolved env t store)
    (h : Reaches env limit t store m vs) : m.progress.text = t ∧ m.store = store := by
  induction h with
  | start => exact ⟨rfl, rfl⟩
  | passOver _ _ _ ih => exact ih
  | settle h hv _ ih => exact ⟨ih.1, (h.leaves_of_resolved hresolved ih.1 ih.2 hv).2⟩
  | substitute h hv hs _ ih =>
    have hleaves := (h.leaves_of_resolved hresolved ih.1 ih.2 hv).1
    rw [hleaves.2] at hs
    cases hs

/-- A resolved text is resolved to itself. -/
theorem process_of_resolved (hresolved : Resolved env t store) (limit : Nat) :
    process env limit t store = (.ok t, store) := by
  obtain ⟨vs, hends⟩ : ∃ vs, Ends env limit t store (process env limit t store) vs :=
    process_eq_iff.1 rfl
  generalize process env limit t store = r at hends
  cases hends with
  | resolved h _ =>
    obtain ⟨htext, hstore⟩ := h.unchanged_of_resolved hresolved
    rw [htext, hstore]
  | failed h hv ho =>
    obtain ⟨htext, hstore⟩ := h.unchanged_of_resolved hresolved
    obtain ⟨⟨⟨replacement, hok⟩, -⟩, -⟩ := h.leaves_of_resolved hresolved htext hstore hv
    rw [ho] at hok
    cases hok
  | exhausted h hv hs _ =>
    obtain ⟨htext, hstore⟩ := h.unchanged_of_resolved hresolved
    obtain ⟨hleaves, -⟩ := h.leaves_of_resolved hresolved htext hstore hv
    rw [hleaves.2] at hs
    cases hs

/-! ## Results -/

/-- Without writes the store stays what it is. -/
theorem Reaches.store_of_writes_nil (h : Reaches env limit t store m vs)
    (hwrites : ∀ v ∈ vs, v.writes env = []) : m.store = store := by
  rw [h.store_eq, List.flatMap_eq_nil_iff.2 hwrites, Store.applyAll_nil]

section

variable (hbracket : env.delimiter ≠ '[') (hd : isPrivateUse env.delimiter = false)
  (hfree : ∀ t' ∈ passTexts env limit t store, LeavesFree 5 t')
  (hwrites : ∀ v ∈ vs, v.writes env = [])

include hbracket hd hfree

/-- An innermost expression of the text that stands around a settled span is the expression that was
left as written there. -/
theorem Reaches.eq_of_settled_within (h : Reaches env limit t store m vs) {e : Expression}
    (he : e ∈ expressions env.delimiter m.progress.text)
    (hinner : ∀ f ∈ expressions env.delimiter m.progress.text, f ≠ e →
      f.span.within e.span = false) {σ : Span} (hσ : σ ∈ m.progress.settled)
    (hwithin : σ.within (placeOf env.delimiter m.progress.text e) = true) :
    ∃ us v ws, vs = us ++ v :: ws ∧ v.Leaves env.delimiter ∧
      ∀ s, e.placed s = v.expression.placed s := by
  obtain ⟨us, v, ws, rfl, hleaves, -, hcovers⟩ := h.settled_origin σ hσ
  obtain ⟨m', rest', after', hm', hv⟩ := h.at_evaluation
  obtain ⟨f, hf, hplace, hsame⟩ := exists_expression_of_covers hbracket hd
    (hfree _ hm'.text_mem_passTexts) (hfree _ h.text_mem_passTexts) (hm'.mem_expressions hv) hcovers
  refine ⟨us, v, ws, rfl, hleaves, ?_⟩
  -- what stands there lies inside `e`, so it is `e` itself
  rw [← hplace] at hwithin
  have hspan : f.span.within e.span = true :=
    (EscapeCodec.spanIn_within_iff (EscapeCodec.avoiding_avoids _ _) hf he).1 hwithin
  by_cases hfe : f = e
  · exact hfe ▸ hsame
  · rw [hinner f hf hfe] at hspan
    cases hspan

include hwrites

/-- A run that writes nothing ends with a resolved text. -/
theorem Ends.result_resolved (h : Ends env limit t store (.ok out, after) vs) :
    Resolved env out store ∧ after = store := by
  cases h with
  | @resolved m _ h hpending =>
    refine ⟨fun e he hinner => ?_, h.store_of_writes_nil hwrites⟩
    -- all expressions have been looked at, so each of them stands around a settled span
    obtain ⟨done, hdone, hall⟩ := h.looked_at
    rw [hpending, List.append_nil] at hdone
    obtain ⟨σ, hσ, hwithin⟩ := hall e (hdone ▸ he)
    obtain ⟨us, v, ws, rfl, hleaves, hsame⟩ :=
      h.eq_of_settled_within hbracket hd hfree he hinner hσ hwithin
    obtain ⟨m', rest', after', hm', hv⟩ := h.at_evaluation
    have hbefore : m'.store = store := hm'.store_of_writes_nil fun w hw => hwrites w (by simp [hw])
    have hafter := hv.store_eq
    rw [hwrites v (by simp), Store.applyAll_nil, hbefore] at hafter
    obtain ⟨replacement, ho, hleft⟩ := (hm'.leaves_iff hv).1 hleaves
    have hevaluate : e.evaluate env store = v.expression.evaluate env store := by
      rw [← e.evaluate_placed env e.span, hsame, Expression.evaluate_placed]
    have hmatched : (e.placed e.span).matched = v.expression.matched := by rw [hsame]; rfl
    refine ⟨replacement, ?_, fun r hr => (hleft r hr).trans hmatched.symm⟩
    rw [hevaluate, ← hbefore, hv.outcome, ho, hafter, hbefore]

end

/-- Resolving is idempotent where nothing is stored. When a run ends with a text and none of its
evaluations has kept a value under a name, the store is what it was, and resolving the result gives
the result again, with this store. -/
theorem process_idempotent {env : Environment} {limit : Nat} {t out : Text} {store after : Store}
    {vs : List Evaluation} (hbracket : env.delimiter ≠ '[')
    (hd : isPrivateUse env.delimiter = false)
    (hfree : ∀ t' ∈ passTexts env limit t store, LeavesFree 5 t')
    (h : Ends env limit t store (.ok out, after) vs) (hwrites : ∀ v ∈ vs, v.writes env = []) :
    process env limit t store = (.ok out, after) ∧ after = store ∧
      process env limit out after = (.ok out, after) := by
  obtain ⟨hresolved, rfl⟩ := h.result_resolved hbracket hd hfree hwrites
  exact ⟨h.process_eq, rfl, process_of_resolved hresolved limit⟩

/-- The document without a text is left as written, and the text beside it is replaced. -/
theorem process_idempotent_beside :
    let env := Environment.plain ','
    let v : Evaluation := ⟨⟨"[JSON(null)][TEXT(a)]".toList, []⟩,
      ⟨.json, "null".toList, [], "[JSON(null)]".toList, ⟨0, 12⟩⟩, [], .ok none⟩
    let w : Evaluation := ⟨⟨v.progress.text, [⟨0, 12⟩]⟩,
      ⟨.text, ['a'], [], "[TEXT(a)]".toList, ⟨12, 21⟩⟩, [], .ok (some ['a'])⟩
    Ends env 5 v.progress.text [] (.ok "[JSON(null)]a".toList, []) [v, w] ∧
      v.writes env = [] ∧ w.writes env = [] ∧
      process env 5 v.progress.text [] = (.ok "[JSON(null)]a".toList, []) ∧
      process env 5 "[JSON(null)]a".toList [] = (.ok "[JSON(null)]a".toList, []) := by
  intro env v w
  have hfound : expressions ',' "[JSON(null)][TEXT(a)]".toList = [v.expression, w.expression] :=
    EscapeCodec.findAll_eq_of_perm (by decide +kernel) (by decide +kernel)
  have hv : Moment.Evaluates env (.opening ',' v.progress 5 []) v [w.expression] [] :=
    Moment.opening_evaluates 5 hfound evaluate_null
  have hplace : v.place ',' = ⟨0, 12⟩ := by decide +kernel
  have hplace' : w.place ',' = ⟨12, 21⟩ := by decide +kernel
  have hw : Moment.Evaluates env ⟨w.progress, [w.expression], 5, []⟩ w [] [] := by
    apply evaluates_beside
    · change Span.within ⟨0, 12⟩ (w.place ',') = false
      rw [hplace']
      rfl
    · rfl
  have hs : w.substitution? ',' = some ⟨⟨12, 21⟩, ['a']⟩ := by
    rw [← hplace']
    apply Evaluation.substitution?_of_ne rfl
    rw [hplace']
    decide
  have hstart : Reaches env 5 v.progress.text [] (.opening ',' v.progress 5 []) [] := .start
  have hsettled := hstart.settle hv ⟨⟨_, rfl⟩, rfl⟩
  rw [show env.delimiter = ',' from rfl, hplace] at hsettled
  have hnext := hsettled.substitute hw hs rfl
  have hprogress : Progress.substitute ⟨"[JSON(null)][TEXT(a)]".toList, [⟨0, 12⟩]⟩
      ⟨⟨12, 21⟩, ['a']⟩ = ⟨"[JSON(null)]a".toList, [⟨0, 12⟩]⟩ := by decide
  have hleft : expressions ',' "[JSON(null)]a".toList = [v.expression] :=
    EscapeCodec.findAll_eq_of_perm (by decide +kernel) (List.pairwise_singleton _ _)
  have hplace'' : placeOf ',' "[JSON(null)]a".toList v.expression = ⟨0, 12⟩ := by
    decide +kernel
  have hends : Ends env 5 v.progress.text [] (.ok "[JSON(null)]a".toList, []) [v, w] := by
    have hnext : Reaches env 5 v.progress.text []
        (.opening ',' ⟨"[JSON(null)]a".toList, [⟨0, 12⟩]⟩ 4 []) [v, w] := hprogress ▸ hnext
    have haround : (⟨0, 12⟩ : Span).within (placeOf ',' "[JSON(null)]a".toList v.expression) = true := by
      rw [hplace'']
      rfl
    exact .resolved (hnext.passOver hleft ⟨_, List.mem_singleton_self _, haround⟩) rfl
  have htexts : passTexts env 5 v.progress.text [] = [v.progress.text, "[JSON(null)]a".toList] := by
    rw [hends.passTexts_eq]
    simp only [Evaluation.replacedTexts, List.filterMap_cons, show env.delimiter = ',' from rfl, hs]
    rfl
  have hfree : ∀ t ∈ passTexts env 5 v.progress.text [], LeavesFree 5 t := by
    rw [htexts]
    let cs := ['\uE000', '\uE001', '\uE002', '\uE003', '\uE004']
    have hall : List.all ["[JSON(null)][TEXT(a)]".toList, "[JSON(null)]a".toList]
        (fun t => cs.all fun c => isPrivateUse c && !t.contains c) = true := by decide
    exact fun t ht => EscapeCodec.leavesFree_of_all (by decide) (List.all_eq_true.1 hall t ht)
  have hnone : v.writes env = [] ∧ w.writes env = [] :=
    ⟨Expression.writes_eq_nil rfl env [], Expression.writes_eq_nil rfl env []⟩
  have hwrites : ∀ u ∈ [v, w], u.writes env = [] := by
    simpa only [List.forall_mem_cons, List.not_mem_nil, false_implies, implies_true, and_true]
      using hnone
  obtain ⟨hfirst, -, hsecond⟩ := process_idempotent (by decide) (by decide) hfree hends hwrites
  exact ⟨hends, hnone.1, hnone.2, hfirst, hsecond⟩

end SeedChain
