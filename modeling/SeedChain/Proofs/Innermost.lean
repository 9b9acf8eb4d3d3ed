import SeedChain.Proofs.Occurrences
import SeedChain.Proofs.Runs
/-!
# Inner expressions first

Expressions are looked at in the order in which they end. An expression that has been looked at and
not replaced stands around a settled span from then on, so every expression around it is passed over
(`Reaches.looked_at`). Hence nothing that is found in a text stands inside an expression when that one
is evaluated (`evaluated_innermost`).
-/

namespace SeedChain

open EscapeCodec

/-- The place of an expression inside another one is inside that one's place. -/
theorem placeOf_within {delimiter : Char} {t : Text} {e f : Expression}
    (he : e ∈ expressions delimiter t) (hf : f ∈ expressions delimiter t)
    (h : e.span.within f.span = true) :
    (placeOf delimiter t e).within (placeOf delimiter t f) = true :=
  (spanIn_within_iff (avoiding_avoids delimiter t) he hf).2 h

theorem placeOf_covers {delimiter : Char} {t : Text} {e : Expression}
    (he : e ∈ expressions delimiter t) :
    (placeOf delimiter t e).Covers t e.matched ∧ e.matched ≠ [] := by
  have ha := avoiding_avoids delimiter t
  obtain ⟨_, _, hstands⟩ := exists_stands ha he
  exact ⟨hstands.covers ha, hstands.matched_ne_nil ha⟩

variable {env : Environment} {limit : Nat} {t : Text} {store : Store} {m : Moment}
  {vs : List Evaluation} {v : Evaluation} {rest : List Expression} {after : Store}

/-- At every moment the pending expressions are the last ones of the text, and each of the others
stands around a settled span. -/
theorem Reaches.looked_at (h : Reaches env limit t store m vs) :
    ∃ done, expressions env.delimiter m.progress.text = done ++ m.pending ∧
      ∀ f ∈ done, ∃ σ ∈ m.progress.settled,
        σ.within (placeOf env.delimiter m.progress.text f) = true := by
  induction h with
  | start => exact ⟨[], rfl, by simp⟩
  | @passOver m _ e _ _ hpending haround ih =>
    obtain ⟨done, hdone, hall⟩ := ih
    refine ⟨done ++ [e], by simp [hdone, hpending], fun f hf => ?_⟩
    rcases List.mem_append.1 hf with hf | hf
    · exact hall f hf
    · rw [List.mem_singleton.1 hf]
      exact haround
  | @settle m _ v _ _ _ hv _ ih =>
    obtain ⟨done, hdone, hall⟩ := ih
    refine ⟨done ++ [v.expression], by simp [hdone, hv.pending, Progress.settle], fun f hf => ?_⟩
    rcases List.mem_append.1 hf with hf | hf
    · obtain ⟨σ, hσ, hw⟩ := hall f hf
      exact ⟨σ, List.mem_append_left _ hσ, hw⟩
    · rw [List.mem_singleton.1 hf]
      refine ⟨v.place env.delimiter, List.mem_append_right _ (by simp), ?_⟩
      simp only [Evaluation.place, hv.progress, Progress.settle, Span.within_self]
  | substitute => exact ⟨[], rfl, by simp⟩

theorem Reaches.mem_expressions (h : Reaches env limit t store m vs)
    (hv : m.Evaluates env v rest after) :
    v.expression ∈ expressions env.delimiter m.progress.text := by
  obtain ⟨done, hdone, -⟩ := h.looked_at
  simp [hdone, hv.pending]

/-- An expression that is evaluated has no other one inside. -/
theorem Reaches.innermost (h : Reaches env limit t store m vs)
    (hv : m.Evaluates env v rest after) {f : Expression}
    (hf : f ∈ expressions env.delimiter m.progress.text) (hne : f ≠ v.expression) :
    f.span.within v.expression.span = false := by
  rw [Bool.eq_false_iff]
  intro hwithin
  have he := h.mem_expressions hv
  obtain ⟨done, hdone, hall⟩ := h.looked_at
  rw [hv.pending] at hdone
  have hf' := hf
  rw [hdone, List.mem_append, List.mem_cons] at hf'
  rcases hf' with hlooked | rfl | hlater
  · -- it stands around a settled span, and then so does the expression around it
    obtain ⟨σ, hσ, hw⟩ := hall f hlooked
    have hplace := Span.within_trans hw (placeOf_within hf he hwithin)
    have := hv.free σ hσ
    rw [Evaluation.place, hv.progress, hplace] at this
    cases this
  · exact hne rfl
  · -- it ends later, or together with an expression that begins later
    have hsorted := findAll_pairwise (avoiding env.delimiter m.progress.text)
      ((avoiding env.delimiter m.progress.text).encode m.progress.text)
    rw [show findAll _ _ = _ from hdone] at hsorted
    have hbefore := List.rel_of_pairwise_cons (List.pairwise_append.1 hsorted).2.1 hlater
    rw [Span.within_iff] at hwithin
    unfold Expression.Precedes at hbefore
    omega

/-- Every run ends. Whenever it evaluates an expression, this is one of the expressions of the text as
it is then, no other one of them lies inside it, and no span lies inside it that is settled then. -/
theorem evaluated_innermost (env : Environment) (limit : Nat) (t : Text) (store : Store) :
    (∃ vs, Ends env limit t store (process env limit t store) vs) ∧
    ∀ r vs, Ends env limit t store r vs → ∀ v ∈ vs,
      v.expression ∈ expressions env.delimiter v.progress.text ∧
      (∀ f ∈ expressions env.delimiter v.progress.text, f ≠ v.expression →
        f.span.within v.expression.span = false) ∧
      ∀ σ ∈ v.progress.settled, σ.within (v.place env.delimiter) = false := by
  refine ⟨process_eq_iff.1 rfl, fun r vs h v hv => ?_⟩
  obtain ⟨us, ws, rfl⟩ := List.append_of_mem hv
  obtain ⟨m, rest, after, hm, hev⟩ := h.at_evaluation
  rw [hev.progress]
  exact ⟨hm.mem_expressions hev, fun f hf hne => hm.innermost hev hf hne, hev.free⟩

/-- The number inside cannot be read, and the text around it is not evaluated. -/
theorem evaluated_innermost_nested :
    ∃ (v : Evaluation) (r : Except EvalError Text × Store),
      Ends (Environment.plain ',') 5 "[TEXT([NUMBER(x)]) => upper]".toList [] r [v] ∧
      v.expression.matched = "[NUMBER(x)]".toList ∧
      ∀ f ∈ expressions ',' v.progress.text, f ≠ v.expression →
        f.span.within v.expression.span = false := by
  have hfound : expressions ',' "[TEXT([NUMBER(x)]) => upper]".toList =
      [⟨.number, ['x'], [], "[NUMBER(x)]".toList, ⟨6, 17⟩⟩,
        ⟨.text, "[NUMBER(x)]".toList, [⟨"upper".toList, [], "upper".toList⟩],
          "[TEXT([NUMBER(x)]) => upper]".toList, ⟨0, 28⟩⟩] :=
    findAll_eq_of_perm (by decide +kernel) (by decide +kernel)
  have hends : Ends (Environment.plain ',') 5 "[TEXT([NUMBER(x)]) => upper]".toList []
      (.error (.conversion .number ['x'] (.notANumber ['x'])), [])
      [⟨⟨"[TEXT([NUMBER(x)]) => upper]".toList, []⟩,
        ⟨.number, ['x'], [], "[NUMBER(x)]".toList, ⟨6, 17⟩⟩, [],
        .error (.conversion .number ['x'] (.notANumber ['x']))⟩] :=
    .failed .start ⟨hfound, rfl, rfl, by simp [Moment.opening], rfl⟩ rfl
  exact ⟨_, _, hends, rfl, ((evaluated_innermost _ _ _ _).2 _ _ hends _ (by simp)).2.1⟩

end SeedChain
