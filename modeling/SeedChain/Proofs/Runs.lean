import Mathlib.Tactic.Common
import SeedChain.Evaluator.Basic
/-!
# Runs

Resolving a text is a recursion on passes around a recursion on expressions. Here it is taken apart
into moments: between two of them an expression is passed over, or it is evaluated and settled, or it
is evaluated and replaced, which begins the next pass. `Reaches` holds of the moments a run comes to,
together with the evaluations made so far; `Ends` of its result, together with all evaluations of
the run. A text is resolved to a result exactly when its run ends with it (`process_eq_iff`), so what
holds of every run holds of `process`. The texts that the passes of a run are made over can be
computed (`passTexts`), and with them the number of substitutions (`substitutionCount`).
-/

namespace SeedChain

/-- Where an expression that is found in a text stands in it. -/
def placeOf (delimiter : Char) (t : Text) (e : Expression) : Span :=
  let codec := EscapeCodec.avoiding delimiter t
  codec.spanIn (codec.encode t) e

/-- The progress with a further span settled. -/
def Progress.settle (p : Progress) (s : Span) : Progress := { p with settled := p.settled ++ [s] }

/-! ## Evaluations -/

/-- One evaluation of a run: the text and the spans settled in it, the expression, the store before,
and what came out. -/
structure Evaluation where
  progress : Progress
  expression : Expression
  store : Store
  outcome : Except EvalError (Option Text)

namespace Evaluation

variable (delimiter : Char) (v : Evaluation)

/-- Where the evaluated expression stands. -/
def place : Span := placeOf delimiter v.progress.text v.expression

/-- The substitution that an evaluation asks for. There is none without a replacement, or when the
replacement is what stands there already. -/
def substitution? : Option Substitution :=
  match v.outcome with
  | .ok (some replacement) =>
    if replacement = (v.place delimiter).slice v.progress.text then none
    else some ⟨v.place delimiter, replacement⟩
  | _ => none

/-- The evaluation leaves the expression as written. -/
def Leaves : Prop := (∃ replacement, v.outcome = .ok replacement) ∧ v.substitution? delimiter = none

/-- The substitutions that some evaluations ask for, in order. -/
def substitutions (vs : List Evaluation) : List Substitution := vs.filterMap (substitution? delimiter)

@[simp]
theorem substitutions_append (vs ws : List Evaluation) :
    substitutions delimiter (vs ++ ws) = substitutions delimiter vs ++ substitutions delimiter ws := by
  simp [substitutions]

variable {delimiter v}

theorem span_of_substitution? {s : Substitution} (h : v.substitution? delimiter = some s) :
    s.span = v.place delimiter ∧ v.outcome = .ok (some s.replacement) := by
  unfold substitution? at h
  split at h
  · rename_i replacement ho
    split at h
    · cases h
    · cases h
      exact ⟨rfl, ho⟩
  · cases h

theorem substitution?_of_ne {replacement : Text} (ho : v.outcome = .ok (some replacement))
    (hne : replacement ≠ (v.place delimiter).slice v.progress.text) :
    v.substitution? delimiter = some ⟨v.place delimiter, replacement⟩ := by
  rw [substitution?, ho]
  exact if_neg hne

/-- An evaluation fails, leaves the expression as written, or asks for a substitution. -/
theorem cases (delimiter : Char) (v : Evaluation) : (∃ error, v.outcome = .error error) ∨
    v.Leaves delimiter ∨ ∃ s, v.substitution? delimiter = some s := by
  cases ho : v.outcome with
  | error error => exact .inl ⟨error, rfl⟩
  | ok replacement =>
    cases hs : v.substitution? delimiter with
    | none => exact .inr (.inl ⟨⟨replacement, ho⟩, hs⟩)
    | some s => exact .inr (.inr ⟨s, rfl⟩)

theorem substitutions_of_leaves (h : v.Leaves delimiter) : substitutions delimiter [v] = [] := by
  simp [substitutions, h.2]

theorem substitutions_of_some {s : Substitution} (h : v.substitution? delimiter = some s) :
    substitutions delimiter [v] = [s] := by
  simp [substitutions, h]

end Evaluation

/-! ## Moments -/

/-- A moment of a run. -/
structure Moment where
  progress : Progress
  /-- The expressions of the pass that have not been looked at. -/
  pending : List Expression
  /-- How many substitutions are still allowed. -/
  left : Nat
  store : Store

namespace Moment

/-- The beginning of a pass. -/
def opening (delimiter : Char) (p : Progress) (left : Nat) (store : Store) : Moment :=
  ⟨p, expressions delimiter p.text, left, store⟩

/-- An expression is evaluated at this moment: it is the next one and stands around no settled span.
Behind it `rest` is pending, and the store is `after`. -/
structure Evaluates (env : Environment) (m : Moment) (v : Evaluation) (rest : List Expression)
    (after : Store) : Prop where
  pending : m.pending = v.expression :: rest
  progress : v.progress = m.progress
  store : v.store = m.store
  free : ∀ σ ∈ m.progress.settled, σ.within (v.place env.delimiter) = false
  outcome : v.expression.evaluate env m.store = (v.outcome, after)

end Moment

/-- The run from a text and a store comes to a moment, having made these evaluations. -/
inductive Reaches (env : Environment) (limit : Nat) (t : Text) (store : Store) :
    Moment → List Evaluation → Prop
  | start : Reaches env limit t store (.opening env.delimiter ⟨t, []⟩ limit store) []
  /-- An expression around a settled span is passed over. -/
  | passOver {m : Moment} {vs : List Evaluation} {e : Expression} {rest : List Expression} :
    Reaches env limit t store m vs → m.pending = e :: rest →
    (∃ σ ∈ m.progress.settled, σ.within (placeOf env.delimiter m.progress.text e) = true) →
    Reaches env limit t store { m with pending := rest } vs
  /-- An expression is left as written. -/
  | settle {m : Moment} {vs : List Evaluation} {v : Evaluation} {rest : List Expression}
    {after : Store} :
    Reaches env limit t store m vs → m.Evaluates env v rest after → v.Leaves env.delimiter →
    Reaches env limit t store
      ⟨m.progress.settle (v.place env.delimiter), rest, m.left, after⟩ (vs ++ [v])
  /-- An expression is replaced, and the next pass begins. -/
  | substitute {m : Moment} {vs : List Evaluation} {v : Evaluation} {rest : List Expression}
    {after : Store} {s : Substitution} {left : Nat} :
    Reaches env limit t store m vs → m.Evaluates env v rest after →
    v.substitution? env.delimiter = some s → m.left = left + 1 →
    Reaches env limit t store (.opening env.delimiter (m.progress.substitute s) left after) (vs ++ [v])

/-- The run from a text and a store ends with a result and a store, having made these evaluations. -/
inductive Ends (env : Environment) (limit : Nat) (t : Text) (store : Store) :
    Except EvalError Text × Store → List Evaluation → Prop
  /-- A pass made no substitution. -/
  | resolved {m : Moment} {vs : List Evaluation} :
    Reaches env limit t store m vs → m.pending = [] →
    Ends env limit t store (.ok m.progress.text, m.store) vs
  | failed {m : Moment} {vs : List Evaluation} {v : Evaluation} {rest : List Expression}
    {after : Store} {error : EvalError} :
    Reaches env limit t store m vs → m.Evaluates env v rest after → v.outcome = .error error →
    Ends env limit t store (.error error, after) (vs ++ [v])
  /-- A further substitution is not allowed. -/
  | exhausted {m : Moment} {vs : List Evaluation} {v : Evaluation} {rest : List Expression}
    {after : Store} {s : Substitution} :
    Reaches env limit t store m vs → m.Evaluates env v rest after →
    v.substitution? env.delimiter = some s → m.left = 0 →
    Ends env limit t store (.error (.passLimit limit), after) (vs ++ [v])

/-! ## The evaluations of a run -/

variable {env : Environment} {limit : Nat} {t : Text} {store : Store} {m : Moment}
  {us vs ws : List Evaluation} {v : Evaluation}

/-- A list that ends with `w` and has `v` inside ends with this `v`, or has it before `w`. -/
theorem append_cons_eq_concat {w : Evaluation} (h : us ++ v :: ws = vs ++ [w]) :
    (ws = [] ∧ us = vs ∧ v = w) ∨ ∃ xs, ws = xs ++ [w] ∧ vs = us ++ v :: xs := by
  rcases List.eq_nil_or_concat ws with rfl | ⟨xs, x, rfl⟩
  · obtain ⟨rfl, hv⟩ := List.append_inj' h rfl
    exact .inl ⟨rfl, rfl, List.head_eq_of_cons_eq hv⟩
  · rw [List.concat_eq_append, ← List.cons_append, ← List.append_assoc] at h
    obtain ⟨rfl, hx⟩ := List.append_inj' h rfl
    obtain rfl := List.head_eq_of_cons_eq hx
    exact .inr ⟨xs, by simp, rfl⟩

/-- Every evaluation was made at a moment that the run came to with the evaluations before it. -/
theorem Reaches.at_evaluation (h : Reaches env limit t store m (us ++ v :: ws)) :
    ∃ m rest after, Reaches env limit t store m us ∧ m.Evaluates env v rest after := by
  generalize hvs : us ++ v :: ws = vs at h
  induction h generalizing ws with
  | start => simp at hvs
  | passOver _ _ _ ih => exact ih hvs
  | settle h hv _ ih =>
    rcases append_cons_eq_concat hvs with ⟨-, rfl, rfl⟩ | ⟨xs, -, hvs⟩
    · exact ⟨_, _, _, h, hv⟩
    · exact ih hvs.symm
  | substitute h hv _ _ ih =>
    rcases append_cons_eq_concat hvs with ⟨-, rfl, rfl⟩ | ⟨xs, -, hvs⟩
    · exact ⟨_, _, _, h, hv⟩
    · exact ih hvs.symm

theorem Ends.at_evaluation {r : Except EvalError Text × Store}
    (h : Ends env limit t store r (us ++ v :: ws)) :
    ∃ m rest after, Reaches env limit t store m us ∧ m.Evaluates env v rest after := by
  generalize hvs : us ++ v :: ws = vs at h
  cases h with
  | resolved h _ =>
    subst hvs
    exact h.at_evaluation
  | failed h hv _ =>
    rcases append_cons_eq_concat hvs with ⟨-, rfl, rfl⟩ | ⟨xs, -, rfl⟩
    · exact ⟨_, _, _, h, hv⟩
    · exact h.at_evaluation
  | exhausted h hv _ _ =>
    rcases append_cons_eq_concat hvs with ⟨-, rfl, rfl⟩ | ⟨xs, -, rfl⟩
    · exact ⟨_, _, _, h, hv⟩
    · exact h.at_evaluation

/-! ## Runs and the recursion -/

namespace Moment

variable {rest : List Expression} {after : Store}

/-- What a scan of the pending expressions comes to. -/
def scan (env : Environment) (m : Moment) :
    Except EvalError (Progress × Option Substitution) × Store :=
  let codec := EscapeCodec.avoiding env.delimiter m.progress.text
  m.progress.scan env codec (codec.encode m.progress.text) m.pending m.store

theorem scan_opening (p : Progress) (left : Nat) (store : Store) :
    (opening env.delimiter p left store).scan env = p.pass env store := rfl

theorem scan_resolved (h : m.pending = []) : m.scan env = (.ok (m.progress, none), m.store) := by
  simp only [scan, h, Progress.scan]

theorem scan_passOver {e : Expression} (h : m.pending = e :: rest)
    (haround : ∃ σ ∈ m.progress.settled,
      σ.within (placeOf env.delimiter m.progress.text e) = true) :
    m.scan env = { m with pending := rest }.scan env := by
  have hany : m.progress.settled.any (·.within (placeOf env.delimiter m.progress.text e)) = true :=
    List.any_eq_true.2 haround
  unfold placeOf at hany
  simp only [scan, h, Progress.scan, hany, if_true]

theorem exists_evaluates {e : Expression} (h : m.pending = e :: rest)
    (hnot : ¬ ∃ σ ∈ m.progress.settled,
      σ.within (placeOf env.delimiter m.progress.text e) = true) :
    ∃ v after, m.Evaluates env v rest after :=
  ⟨⟨m.progress, e, m.store, (e.evaluate env m.store).1⟩, (e.evaluate env m.store).2, h, rfl, rfl,
    fun σ hσ => Bool.eq_false_iff.2 fun hw => hnot ⟨σ, hσ, hw⟩, rfl⟩

namespace Evaluates

theorem any_eq_false (h : m.Evaluates env v rest after) :
    m.progress.settled.any (·.within (placeOf env.delimiter m.progress.text v.expression)) =
      false := by
  rw [← Bool.not_eq_true, List.any_eq_true]
  rintro ⟨σ, hσ, hw⟩
  have := h.free σ hσ
  rw [Evaluation.place, h.progress, hw] at this
  cases this

/-- What a scan does at the moment of an evaluation. -/
theorem scan_eq (h : m.Evaluates env v rest after) :
    m.scan env =
      match v.outcome with
      | .error error => (.error error, after)
      | .ok _ =>
        match v.substitution? env.delimiter with
        | some s => (.ok (m.progress, some s), after)
        | none => scan env ⟨m.progress.settle (v.place env.delimiter), rest, m.left, after⟩ := by
  have hany := h.any_eq_false
  have hplace : v.place env.delimiter = placeOf env.delimiter m.progress.text v.expression := by
    rw [Evaluation.place, h.progress]
  unfold placeOf at hany hplace
  rw [scan, h.pending, Progress.scan]
  simp only [hany, h.outcome, Bool.false_eq_true, if_false]
  unfold Evaluation.substitution?
  rw [hplace, h.progress]
  rcases v.outcome with error | _ | replacement
  · rfl
  · rfl
  · simp only
    split <;> rfl

theorem scan_settle (h : m.Evaluates env v rest after) (hv : v.Leaves env.delimiter) :
    m.scan env =
      scan env ⟨m.progress.settle (v.place env.delimiter), rest, m.left, after⟩ := by
  obtain ⟨⟨replacement, ho⟩, hnone⟩ := hv
  simpa only [ho, hnone] using h.scan_eq

theorem scan_substitution {s : Substitution} (h : m.Evaluates env v rest after)
    (hs : v.substitution? env.delimiter = some s) :
    m.scan env = (.ok (m.progress, some s), after) := by
  simpa only [(Evaluation.span_of_substitution? hs).2, hs] using h.scan_eq

theorem scan_failed {error : EvalError} (h : m.Evaluates env v rest after)
    (ho : v.outcome = .error error) : m.scan env = (.error error, after) := by
  simpa only [ho] using h.scan_eq

end Evaluates

/-- What the recursion makes of the rest of a run. -/
def result (env : Environment) (limit : Nat) (m : Moment) : Except EvalError Text × Store :=
  match m.scan env with
  | (.error error, store) => (.error error, store)
  | (.ok (p, none), store) => (.ok p.text, store)
  | (.ok (p, some s), store) =>
    match m.left with
    | 0 => (.error (.passLimit limit), store)
    | left + 1 => Progress.resolve env limit left (p.substitute s) store

theorem result_opening (p : Progress) (left : Nat) (store : Store) :
    (opening env.delimiter p left store).result env limit = p.resolve env limit left store := by
  rw [Progress.resolve.eq_def]
  rfl

end Moment

/-- Every moment of a run has the result of the run before it. -/
theorem Reaches.result_eq (h : Reaches env limit t store m vs) :
    m.result env limit = process env limit t store := by
  induction h with
  | start => exact Moment.result_opening _ _ _
  | passOver _ hpending haround ih => rw [← ih, Moment.result, Moment.result,
      Moment.scan_passOver hpending haround]
  | settle _ hv hleaves ih => rw [← ih, Moment.result, Moment.result, hv.scan_settle hleaves]
  | @substitute m _ _ _ _ _ _ _ hv hs hleft ih =>
    rw [← ih, Moment.result_opening, Moment.result, hv.scan_substitution hs, hleft]

theorem Ends.process_eq {r : Except EvalError Text × Store} (h : Ends env limit t store r vs) :
    process env limit t store = r := by
  cases h with
  | resolved h hpending => rw [← h.result_eq, Moment.result, Moment.scan_resolved hpending]
  | failed h hv ho => rw [← h.result_eq, Moment.result, hv.scan_failed ho]
  | exhausted h hv hs hleft =>
    rw [← h.result_eq, Moment.result, hv.scan_substitution hs, hleft]

/-- From every moment on a run comes to an end. -/
theorem Reaches.exists_ends (h : Reaches env limit t store m vs) :
    ∃ r ws, Ends env limit t store r ws := by
  obtain ⟨p, pending, left, st⟩ := m
  -- passes end with the substitutions left, and a pass with the expressions pending in it
  induction left using Nat.strongRecOn generalizing p pending st vs with
  | ind left ihleft =>
    induction pending generalizing p st vs with
    | nil => exact ⟨_, _, .resolved h rfl⟩
    | cons e rest ih =>
      by_cases haround : ∃ σ ∈ p.settled, σ.within (placeOf env.delimiter p.text e) = true
      · exact ih _ _ (.passOver h rfl haround)
      · obtain ⟨v, after, hv⟩ :
            ∃ v after, Moment.Evaluates env ⟨p, e :: rest, left, st⟩ v rest after :=
          Moment.exists_evaluates rfl haround
        rcases v.cases env.delimiter with ⟨error, ho⟩ | hleaves | ⟨s, hs⟩
        · exact ⟨_, _, .failed h hv ho⟩
        · exact ih _ _ (.settle h hv hleaves)
        · cases left with
          | zero => exact ⟨_, _, .exhausted h hv hs rfl⟩
          | succ left => exact ihleft left (Nat.lt_succ_self _) _ _ _ (.substitute h hv hs rfl)

/-- A text is resolved to what its run ends with. -/
theorem process_eq_iff {r : Except EvalError Text × Store} :
    process env limit t store = r ↔ ∃ vs, Ends env limit t store r vs := by
  constructor
  · rintro rfl
    have hstart : Reaches env limit t store (.opening env.delimiter ⟨t, []⟩ limit store) [] := .start
    obtain ⟨r, vs, h⟩ := hstart.exists_ends
    exact ⟨vs, h.process_eq ▸ h⟩
  · rintro ⟨vs, h⟩
    exact h.process_eq

/-! ## Passes of a run -/

namespace Progress

variable {p next : Progress} {s : Substitution} {after : Store}

/-- A pass scans the expressions of the text. -/
theorem pass_of_expressions {es : List Expression} (h : expressions env.delimiter p.text = es)
    (store : Store) : p.pass env store = p.scan env (.avoiding env.delimiter p.text)
      ((EscapeCodec.avoiding env.delimiter p.text).encode p.text) es store := by
  subst h
  rfl

theorem resolve_of_substitution {left : Nat} (h : p.pass env store = (.ok (next, some s), after)) :
    p.resolve env limit (left + 1) store = (next.substitute s).resolve env limit left after := by
  rw [resolve, h]

theorem resolve_of_limit (h : p.pass env store = (.ok (next, some s), after)) :
    p.resolve env limit 0 store = (.error (.passLimit limit), after) := by
  rw [resolve, h]

theorem resolve_of_none {left : Nat} (h : p.pass env store = (.ok (next, none), after)) :
    p.resolve env limit left store = (.ok next.text, after) := by
  rw [resolve.eq_def, h]

end Progress

/-- The texts that passes are made over from a progress on. -/
def Progress.passTexts (env : Environment) : Nat → Progress → Store → List Text
  | 0, p, _ => [p.text]
  | left + 1, p, store =>
    match p.pass env store with
    | (.ok (next, some s), after) => p.text :: passTexts env left (next.substitute s) after
    | _ => [p.text]

theorem Progress.passTexts_of_substitution {p next : Progress} {s : Substitution} {after : Store}
    {left : Nat} (h : p.pass env store = (.ok (next, some s), after)) :
    p.passTexts env (left + 1) store = p.text :: (next.substitute s).passTexts env left after := by
  rw [passTexts, h]

theorem Progress.passTexts_of_none {p next : Progress} {after : Store} {left : Nat}
    (h : p.pass env store = (.ok (next, none), after)) : p.passTexts env left store = [p.text] := by
  cases left with
  | zero => rfl
  | succ left => rw [passTexts, h]

/-- The texts that passes are made over when a text is resolved, itself first. -/
def passTexts (env : Environment) (limit : Nat) (t : Text) (store : Store) : List Text :=
  Progress.passTexts env limit ⟨t, []⟩ store

/-- How many substitutions are made when a text is resolved: each begins a further pass. -/
def substitutionCount (env : Environment) (limit : Nat) (t : Text) (store : Store) : Nat :=
  (passTexts env limit t store).length - 1

open Evaluation

/-- The texts of the passes from a moment on. -/
def Moment.passTexts (env : Environment) (m : Moment) : List Text :=
  match m.left, m.scan env with
  | left + 1, (.ok (p, some s), store) =>
    m.progress.text :: Progress.passTexts env left (p.substitute s) store
  | _, _ => [m.progress.text]

theorem Moment.passTexts_opening (p : Progress) (left : Nat) (store : Store) :
    (Moment.opening env.delimiter p left store).passTexts env = p.passTexts env left store := by
  rw [Moment.passTexts, Moment.scan_opening]
  cases left with
  | zero => rfl
  | succ left =>
    rw [Progress.passTexts]
    simp only [Moment.opening]
    rcases p.pass env store with ⟨_ | ⟨_, _ | _⟩, _⟩ <;> rfl

theorem Moment.text_mem_passTexts (m : Moment) : m.progress.text ∈ m.passTexts env := by
  unfold Moment.passTexts
  split <;> simp

/-- The texts in which some evaluations ask for a substitution, in order. -/
def Evaluation.replacedTexts (delimiter : Char) (vs : List Evaluation) : List Text :=
  vs.filterMap fun v => (v.substitution? delimiter).map fun _ => v.progress.text

@[simp]
theorem Evaluation.replacedTexts_append (delimiter : Char) (vs ws : List Evaluation) :
    replacedTexts delimiter (vs ++ ws) = replacedTexts delimiter vs ++ replacedTexts delimiter ws := by
  simp [replacedTexts]

theorem Evaluation.replacedTexts_of_none {delimiter : Char} {v : Evaluation}
    (h : v.substitution? delimiter = none) : replacedTexts delimiter [v] = [] := by
  simp [replacedTexts, h]

theorem Evaluation.replacedTexts_of_some {delimiter : Char} {v : Evaluation} {s : Substitution}
    (h : v.substitution? delimiter = some s) : replacedTexts delimiter [v] = [v.progress.text] := by
  simp [replacedTexts, h]

theorem Evaluation.length_replacedTexts (delimiter : Char) (vs : List Evaluation) :
    (replacedTexts delimiter vs).length = (substitutions delimiter vs).length := by
  induction vs with
  | nil => rfl
  | cons v vs ih =>
    cases hs : v.substitution? delimiter <;>
      simpa [replacedTexts, substitutions, hs] using ih

/-- At every moment those passes lie behind in which there was a substitution. -/
theorem Reaches.passTexts_eq (h : Reaches env limit t store m vs) :
    passTexts env limit t store = replacedTexts env.delimiter vs ++ m.passTexts env := by
  induction h with
  | start => exact (Moment.passTexts_opening _ _ _).symm
  | passOver _ hpending haround ih =>
    rwa [Moment.passTexts, Moment.scan_passOver hpending haround] at ih
  | settle _ hv hleaves ih =>
    rw [Moment.passTexts, hv.scan_settle hleaves] at ih
    rw [replacedTexts_append, replacedTexts_of_none hleaves.2, List.append_nil]
    exact ih
  | @substitute m vs v _ _ s left _ hv hs hleft ih =>
    -- only here a pass is left behind
    rw [Moment.passTexts, hv.scan_substitution hs, hleft] at ih
    rw [ih, Moment.passTexts_opening, replacedTexts_append, replacedTexts_of_some hs, hv.progress,
      List.append_assoc, List.singleton_append]

/-- A run that resolves a text makes its last pass over the result. -/
theorem Ends.passTexts_eq {out : Text} {after : Store} (h : Ends env limit t store (.ok out, after) vs) :
    passTexts env limit t store = replacedTexts env.delimiter vs ++ [out] := by
  cases h with
  | resolved h hpending =>
    rw [h.passTexts_eq, Moment.passTexts, Moment.scan_resolved hpending]
    simp

theorem Reaches.text_mem_passTexts (h : Reaches env limit t store m vs) :
    m.progress.text ∈ passTexts env limit t store := by
  rw [h.passTexts_eq]
  exact List.mem_append_right _ m.text_mem_passTexts

/-- Every substitution uses up one of those allowed. -/
theorem Reaches.left_eq (h : Reaches env limit t store m vs) :
    m.left + (substitutions env.delimiter vs).length = limit := by
  induction h with
  | start => rfl
  | passOver _ _ _ ih => exact ih
  | settle _ _ hleaves ih =>
    rw [substitutions_append, substitutions_of_leaves hleaves, List.append_nil]
    exact ih
  | @substitute m vs v _ _ s left _ _ hs hleft ih =>
    rw [substitutions_append, substitutions_of_some hs, List.length_append]
    simp only [Moment.opening, List.length_singleton]
    omega

/-- The evaluations of a run ask for the substitutions that are made, and for one more when the limit
is met. -/
theorem Ends.substitutionCount_eq {r : Except EvalError Text × Store}
    (h : Ends env limit t store r vs) :
    (substitutions env.delimiter vs).length = substitutionCount env limit t store ∨
      (substitutions env.delimiter vs).length = limit + 1 ∧
        substitutionCount env limit t store = limit ∧ r.1 = .error (.passLimit limit) := by
  unfold substitutionCount
  rw [← length_replacedTexts]
  cases h with
  | resolved h hpending =>
    rw [(Ends.resolved h hpending).passTexts_eq]
    exact .inl (by simp)
  | @failed m vs v _ _ _ h hv ho =>
    have hnone : v.substitution? env.delimiter = none := by simp only [substitution?, ho]
    rw [h.passTexts_eq, Moment.passTexts, hv.scan_failed ho, replacedTexts_append,
      replacedTexts_of_none hnone]
    exact .inl (by simp)
  | exhausted h hv hs hleft =>
    have hall := h.left_eq
    rw [← length_replacedTexts] at hall
    rw [h.passTexts_eq, Moment.passTexts, hleft, replacedTexts_append, replacedTexts_of_some hs]
    refine .inr ⟨?_, ?_, rfl⟩
    · simp only [List.length_append, List.length_singleton]
      omega
    · simp only [List.length_append, List.length_singleton]
      omega

end SeedChain
