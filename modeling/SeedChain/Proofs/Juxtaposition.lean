import SeedChain.Proofs.Context
import SeedChain.Proofs.Settled
/-!
# Texts side by side

Resolving a text inside a longer one goes the same way as resolving it alone, as long as no opening
bracket is left before it: its expressions come first, and they are evaluated, settled and replaced
alike (`Moment.Embeds`, `Reaches.embeds`). So of two texts side by side the first one is resolved, and
then, with the store it leaves, the second one (`process_append`).
-/

namespace SeedChain

open EscapeCodec (LeavesFree isPrivateUse avoiding avoiding_avoids exists_stands)

/-! ## Moving spans -/

namespace Span

variable {n : Nat} {s s' : Span} {part t : Text}

theorem within_moved : (s.moved n).within (s'.moved n) = s.within s' := by
  rw [Bool.eq_iff_iff, within_iff, within_iff]
  simp [moved]

theorem shift?_moved (n length : Nat) (s s' : Span) :
    (s.moved n).shift? length (s'.moved n) = (s.shift? length s').map (moved n) := by
  simp only [shift?, moved, Nat.add_le_add_iff_left]
  split
  · rfl
  · split
    · simp only [Option.map_some, moved, Option.some.injEq, Span.mk.injEq]
      omega
    · rfl

theorem Covers.moved (h : s.Covers t part) (pre post : Text) :
    (s.moved (Text.byteLength pre)).Covers (pre ++ t ++ post) part := by
  obtain ⟨before, after, rfl, rfl⟩ := h
  exact ⟨pre ++ before, after ++ post, by simp, moved_behind ..⟩

theorem Covers.replaceIn_moved (h : s.Covers t part) (pre post replacement : Text) :
    (s.moved (Text.byteLength pre)).replaceIn replacement (pre ++ t ++ post) =
      pre ++ s.replaceIn replacement t ++ post := by
  obtain ⟨before, after, rfl, rfl⟩ := h
  have h := replaceIn_behind (pre ++ before) part (after ++ post) replacement
  rw [moved_behind, replaceIn_behind]
  simpa using h

end Span

/-- The substitution in a text that has so many more bytes in front. -/
def Substitution.moved (n : Nat) (s : Substitution) : Substitution := ⟨s.span.moved n, s.replacement⟩

/-! ## A run inside another one -/

/-- The pending expressions, with the places where they stand. -/
def Moment.pendingAt (delimiter : Char) (m : Moment) : List Expression :=
  m.pending.map fun e => e.placed (placeOf delimiter m.progress.text e)

/-- The second moment is the first one with `pre` and `post` around its text: what is settled and what
is pending is the same at moved places, only further expressions may be pending after them. -/
structure Moment.Embeds (delimiter : Char) (pre post : Text) (m M : Moment) : Prop where
  text : M.progress.text = pre ++ m.progress.text ++ post
  settled : M.progress.settled = m.progress.settled.map (Span.moved (Text.byteLength pre))
  pending : ∃ extra, M.pendingAt delimiter =
      (m.pendingAt delimiter).map (Expression.moved (Text.byteLength pre)) ++ extra ∧
    (post = [] → extra = [])
  store : M.store = m.store

namespace Moment

variable {env : Environment} {delimiter : Char} {pre post : Text} {m M : Moment} {e : Expression}
  {rest : List Expression} {v : Evaluation} {after : Store}

/-- The next expression is the next one there, too, at the moved place. -/
theorem Embeds.exists_pending (h : m.Embeds delimiter pre post M) (he : m.pending = e :: rest) :
    ∃ f more, M.pending = f :: more ∧
      f.placed (placeOf delimiter M.progress.text f) =
        e.placed ((placeOf delimiter m.progress.text e).moved (Text.byteLength pre)) ∧
      Embeds delimiter pre post { m with pending := rest } { M with pending := more } := by
  obtain ⟨extra, hpending, hextra⟩ := h.pending
  simp only [pendingAt, he, List.map_cons, List.cons_append] at hpending
  obtain ⟨f, more, hM, hf, hmore⟩ := List.map_eq_cons_iff.1 hpending
  exact ⟨f, more, hM, hf, h.text, h.settled, ⟨extra, hmore, hextra⟩, h.store⟩

theorem Embeds.around (h : m.Embeds delimiter pre post M) {s : Span} :
    (∃ σ ∈ M.progress.settled, σ.within (s.moved (Text.byteLength pre)) = true) ↔
      ∃ σ ∈ m.progress.settled, σ.within s = true := by
  simp only [h.settled, List.mem_map, exists_exists_and_eq_and, Span.within_moved]

/-- An evaluation is made there, too, with the same outcome, and asks for the same substitution. -/
theorem Embeds.evaluates (h : m.Embeds env.delimiter pre post M) (hv : m.Evaluates env v rest after)
    (hplace : (v.place env.delimiter).Covers m.progress.text v.expression.matched) :
    ∃ w more, M.Evaluates env w more after ∧ w.outcome = v.outcome ∧
      w.place env.delimiter = (v.place env.delimiter).moved (Text.byteLength pre) ∧
      w.substitution? env.delimiter =
        (v.substitution? env.delimiter).map (Substitution.moved (Text.byteLength pre)) ∧
      Embeds env.delimiter pre post { m with pending := rest } { M with pending := more } := by
  obtain ⟨f, more, hM, hf, hembeds⟩ := h.exists_pending hv.pending
  have hfplace : placeOf env.delimiter M.progress.text f =
      (v.place env.delimiter).moved (Text.byteLength pre) := by
    rw [Evaluation.place, hv.progress]
    exact congrArg Expression.span hf
  have houtcome : f.evaluate env M.store = (v.outcome, after) := by
    rw [← hv.outcome, h.store, ← f.evaluate_placed env (placeOf env.delimiter M.progress.text f), hf,
      Expression.evaluate_placed]
  refine ⟨⟨M.progress, f, M.store, v.outcome⟩, more, ⟨hM, rfl, rfl, fun σ hσ => ?_, houtcome⟩, rfl,
    hfplace, ?_, hembeds⟩
  · rw [Bool.eq_false_iff]
    intro hw
    rw [Evaluation.place, hfplace] at hw
    obtain ⟨τ, hτ, hw⟩ := h.around.1 ⟨σ, hσ, hw⟩
    rw [hv.free τ hτ] at hw
    cases hw
  · have hslice : ((v.place env.delimiter).moved (Text.byteLength pre)).slice M.progress.text =
        (v.place env.delimiter).slice v.progress.text := by
      rw [h.text, (hplace.moved pre post).slice_eq, hv.progress, hplace.slice_eq]
    unfold Evaluation.substitution?
    rw [Evaluation.place, hfplace]
    simp only [hslice]
    rcases v.outcome with _ | _ | replacement
    · rfl
    · rfl
    · simp only
      split <;> rfl

theorem Embeds.settle (h : m.Embeds delimiter pre post M) (s : Span) :
    Embeds delimiter pre post ⟨m.progress.settle s, m.pending, m.left, after⟩
      ⟨M.progress.settle (s.moved (Text.byteLength pre)), M.pending, M.left, after⟩ where
  text := h.text
  settled := by simp [Progress.settle, h.settled]
  pending := h.pending
  store := rfl

theorem Embeds.substitute (h : m.Embeds delimiter pre post M) {s : Substitution} {part : Text}
    (hs : s.span.Covers m.progress.text part) :
    M.progress.substitute (s.moved (Text.byteLength pre)) =
      ⟨pre ++ (m.progress.substitute s).text ++ post,
        (m.progress.substitute s).settled.map (Span.moved (Text.byteLength pre))⟩ := by
  have htext := hs.replaceIn_moved pre post s.replacement
  simp only [Progress.substitute, Substitution.moved, h.text, htext, h.settled, List.filterMap_map,
    List.map_filterMap, Function.comp_def, Span.shift?_moved]

/-- Passes over a text and over the text with `pre` and `post` around it begin alike. -/
theorem embeds_opening {p : Progress} (left left' : Nat)
    (hbracket : delimiter ≠ '[') (hd : isPrivateUse delimiter = false) (hpre : '[' ∉ pre)
    (hfree : LeavesFree 5 (pre ++ p.text ++ post)) :
    Embeds delimiter pre post (.opening delimiter p left after)
      (.opening delimiter
        ⟨pre ++ p.text ++ post, p.settled.map (Span.moved (Text.byteLength pre))⟩ left' after) where
  text := rfl
  settled := rfl
  pending := by
    obtain ⟨extra, hall, hbehind⟩ := expressionsAt_append hbracket hd hpre hfree
    refine ⟨extra, hall, ?_⟩
    -- without `post` an extra expression would end behind the text
    rintro rfl
    refine List.eq_nil_iff_forall_not_mem.2 fun e he => ?_
    have hstop := stop_le_of_mem_expressionsAt (hall ▸ List.mem_append_right _ he)
    have := hbehind e he
    rw [List.append_nil] at hstop
    omega
  store := rfl

end Moment

open Evaluation

variable {env : Environment} {limit : Nat} {t whole pre post : Text} {store first : Store}
  {m M : Moment} {us vs : List Evaluation}

section Embedding

variable {spare : Nat} (hbracket : env.delimiter ≠ '[') (hd : isPrivateUse env.delimiter = false)
  (hfree : ∀ t ∈ passTexts env limit whole first, LeavesFree 5 t)
  (hpre : '[' ∉ pre)

include hbracket hd hfree hpre

/-- A run that comes to a pass over the text with `pre` and `post` around it goes on like the run of
the text, as far as the substitutions left there allow. -/
theorem Reaches.embeds (h : Reaches env limit t store m vs)
    (hbase : Reaches env limit whole first
      (.opening env.delimiter ⟨pre ++ t ++ post, []⟩ spare store) us)
    (hspare : (substitutions env.delimiter vs).length ≤ spare) :
    ∃ M ws, Reaches env limit whole first M ws ∧ m.Embeds env.delimiter pre post M ∧
      M.left + (substitutions env.delimiter vs).length = spare := by
  induction h with
  | start =>
    have hroom := hfree _ hbase.text_mem_passTexts
    exact ⟨_, _, hbase, Moment.embeds_opening _ _ hbracket hd hpre hroom, rfl⟩
  | @passOver m vs e rest _ hpending haround ih =>
    obtain ⟨M, ws, hM, hembeds, hleft⟩ := ih hspare
    obtain ⟨f, more, hf, hfe, hnext⟩ := hembeds.exists_pending hpending
    have hplace : placeOf env.delimiter M.progress.text f =
        (placeOf env.delimiter m.progress.text e).moved (Text.byteLength pre) :=
      congrArg Expression.span hfe
    exact ⟨_, _, hM.passOver hf (hplace ▸ hembeds.around.2 haround), hnext, hleft⟩
  | @settle m vs v rest after h hv hleaves ih =>
    rw [substitutions_append, substitutions_of_leaves hleaves, List.append_nil] at hspare ⊢
    obtain ⟨M, ws, hM, hembeds, hleft⟩ := ih hspare
    obtain ⟨w, more, hw, houtcome, hplace, hsub, hnext⟩ :=
      hembeds.evaluates hv (h.place_covers hv).1
    have hwleaves : w.Leaves env.delimiter := ⟨houtcome ▸ hleaves.1, by rw [hsub, hleaves.2]; rfl⟩
    refine ⟨_, _, hM.settle hw hwleaves, ?_, hleft⟩
    rw [hplace]
    exact hnext.settle _
  | @substitute m vs v rest after s left h hv hs hleft' ih =>
    -- the pass ends before the further expressions are looked at
    rw [substitutions_append, substitutions_of_some hs, List.length_append,
      List.length_singleton] at hspare ⊢
    obtain ⟨M, ws, hM, hembeds, hleft⟩ := ih (by omega)
    have hplace := (h.place_covers hv).1
    obtain ⟨w, more, hw, houtcome, -, hsub, hnext⟩ := hembeds.evaluates hv hplace
    rw [hs, Option.map_some] at hsub
    obtain ⟨left', hM'⟩ : ∃ left', M.left = left' + 1 := ⟨M.left - 1, by omega⟩
    have hreached := hM.substitute hw hsub hM'
    rw [hembeds.substitute ((span_of_substitution? hs).1 ▸ hplace)] at hreached
    have hroom := hfree _ hreached.text_mem_passTexts
    refine ⟨_, _, hreached, Moment.embeds_opening _ _ hbracket hd hpre hroom, ?_⟩
    simp only [Moment.opening]
    omega

/-- If that run fails, and the limit is not met earlier there, the run around it fails alike. -/
theorem Ends.process_eq_of_error {error : EvalError} {after : Store}
    (h : Ends env limit t store (.error error, after) vs)
    (hbase : Reaches env limit whole first
      (.opening env.delimiter ⟨pre ++ t ++ post, []⟩ spare store) us)
    (hspare : spare = limit ∨ spare ≤ limit ∧ (substitutions env.delimiter vs).length ≤ spare) :
    process env limit whole first = (.error error, after) := by
  cases h with
  | @failed m vs v rest _ _ h hv ho =>
    have hcount : (substitutions env.delimiter vs).length ≤ spare := by
      have := h.left_eq
      rw [substitutions_append, List.length_append] at hspare
      omega
    obtain ⟨M, ws, hM, hembeds, -⟩ := Reaches.embeds hbracket hd hfree hpre h hbase hcount
    obtain ⟨w, more, hw, houtcome, -⟩ := hembeds.evaluates hv (h.place_covers hv).1
    exact (Ends.failed hM hw (houtcome.trans ho)).process_eq
  | @exhausted m vs v rest _ s h hv hs hleft =>
    -- more substitutions than the limit were asked for, so `spare` is the whole limit
    have hcount := h.left_eq
    rw [substitutions_append, substitutions_of_some hs, List.length_append,
      List.length_singleton] at hspare
    obtain ⟨M, ws, hM, hembeds, hleft'⟩ := Reaches.embeds hbracket hd hfree hpre h hbase (by omega)
    obtain ⟨w, more, hw, -, -, hsub, -⟩ := hembeds.evaluates hv (h.place_covers hv).1
    rw [hs, Option.map_some] at hsub
    exact (Ends.exhausted hM hw hsub (by omega)).process_eq

end Embedding

/-- An expression has an opening bracket, so where there is none no span is settled. -/
theorem Reaches.settled_eq_nil (h : Reaches env limit t store m vs)
    (hnone : '[' ∉ m.progress.text) : m.progress.settled = [] := by
  refine List.eq_nil_iff_forall_not_mem.2 fun σ hσ => ?_
  obtain ⟨us, v, ws, rfl, -, -, before, after, htext, -⟩ := h.settled_origin σ hσ
  obtain ⟨m', rest, store', hm', hv⟩ := h.at_evaluation
  have ha := avoiding_avoids env.delimiter m'.progress.text
  obtain ⟨_, _, hstands⟩ := exists_stands ha (hm'.mem_expressions hv)
  obtain ⟨inner, hinner⟩ := hstands.bracketed ha
  exact hnone (by simp [htext, hinner])

/-- A moment without settled spans is the beginning of a pass. -/
theorem Reaches.eq_opening (h : Reaches env limit t store m vs) (hnone : m.progress.settled = []) :
    m = .opening env.delimiter ⟨m.progress.text, []⟩ m.left m.store := by
  obtain ⟨done, hdone, hall⟩ := h.looked_at
  have : done = [] := by
    refine List.eq_nil_iff_forall_not_mem.2 fun f hf => ?_
    obtain ⟨σ, hσ, -⟩ := hall f hf
    rw [hnone] at hσ
    cases hσ
  obtain ⟨⟨text, settled⟩, pending, left, st⟩ := m
  subst this
  simp only at hnone hdone
  subst hnone
  simp [Moment.opening, hdone]

/-- Texts side by side are resolved one after the other. If resolving the first one fails, resolving
both fails alike. If it leaves no opening bracket, and the substitutions that both take are within the
limit, the second one is resolved with the store that the first one leaves: its result follows that
of the first one, and its failure is that of both. In every pass over both, the text has to leave a
placeholder for each of the characters that can be escaped, of which there are at most five. -/
theorem process_append (env : Environment) (limit : Nat) (a b : Text) (store : Store)
    (hbracket : env.delimiter ≠ '[') (hd : isPrivateUse env.delimiter = false)
    (hfree : ∀ t ∈ passTexts env limit (a ++ b) store, LeavesFree 5 t) :
    (∀ error after, process env limit a store = (.error error, after) →
      process env limit (a ++ b) store = (.error error, after)) ∧
    ∀ a' middle, process env limit a store = (.ok a', middle) → '[' ∉ a' →
      substitutionCount env limit a store + substitutionCount env limit b middle ≤ limit →
      (∀ b' after, process env limit b middle = (.ok b', after) →
        process env limit (a ++ b) store = (.ok (a' ++ b'), after)) ∧
      ∀ error after, process env limit b middle = (.error error, after) →
        process env limit (a ++ b) store = (.error error, after) := by
  have hstart : Reaches env limit (a ++ b) store
      (.opening env.delimiter ⟨[] ++ a ++ b, []⟩ limit store) [] := .start
  refine ⟨fun error after h => ?_, fun a' middle ha hnone hcount => ?_⟩
  · obtain ⟨vs, hvs⟩ := process_eq_iff.1 h
    exact Ends.process_eq_of_error hbracket hd hfree List.not_mem_nil hvs hstart (.inl rfl)
  · obtain ⟨vs, hvs⟩ := process_eq_iff.1 ha
    have hvcount := hvs.substitutionCount_eq
    obtain @⟨m, _, hm, -⟩ := hvs
    have hleft := hm.left_eq
    obtain ⟨M, us, hM, hembeds, hspare⟩ :=
      Reaches.embeds hbracket hd hfree List.not_mem_nil hm hstart (by omega)
    -- nothing is settled where there is no bracket, so the second text has a pass of its own
    have hsettled : M.progress.settled = [] := by
      rw [hembeds.settled, hm.settled_eq_nil hnone, List.map_nil]
    have hbase := hM.eq_opening hsettled ▸ hM
    rw [hembeds.text, hembeds.store, List.nil_append,
      ← List.append_nil (m.progress.text ++ b)] at hbase
    refine ⟨fun b' after hb => ?_, fun error after hb => ?_⟩
    · obtain ⟨ws, hws⟩ := process_eq_iff.1 hb
      have hwcount := hws.substitutionCount_eq
      obtain @⟨n, _, hn, hpending⟩ := hws
      have hnleft := hn.left_eq
      obtain ⟨N, xs, hN, hembeds', -⟩ :=
        Reaches.embeds hbracket hd hfree hnone hn hbase (by omega)
      obtain ⟨extra, hextra, hnil⟩ := hembeds'.pending
      have hdone : N.pending = [] := by
        simpa [Moment.pendingAt, hpending, hnil rfl] using hextra
      rw [(Ends.resolved hN hdone).process_eq, hembeds'.text, hembeds'.store, List.append_nil]
    · obtain ⟨ws, hws⟩ := process_eq_iff.1 hb
      have hwcount := hws.substitutionCount_eq
      exact Ends.process_eq_of_error hbracket hd hfree hnone hws hbase (by omega)

/-- What the first text stores is resumed in the second one. -/
theorem process_append_stored :
    let env := Environment.plain ','
    let stored : Store := [(['k'], .value (.text ['x']))]
    process env 2 "[TEXT(x) => store(k)]".toList [] = (.ok ['x'], stored) ∧
      process env 2 "[TEXT(k)]".toList stored = (.ok ['x'], stored) ∧
      process env 2 ("[TEXT(x) => store(k)]".toList ++ "[TEXT(k)]".toList) [] =
        (.ok (['x'] ++ ['x']), stored) := by
  intro env stored
  have hstoring : Progress.pass env ⟨"[TEXT(x) => store(k)]".toList, []⟩ [] =
      (.ok (⟨"[TEXT(x) => store(k)]".toList, []⟩, some ⟨⟨0, 21⟩, ['x']⟩), stored) := by
    have hlisted : expressions ',' "[TEXT(x) => store(k)]".toList =
        [⟨.text, ['x'], [⟨"store".toList, [['k']], "store(k)".toList⟩],
          "[TEXT(x) => store(k)]".toList, ⟨0, 21⟩⟩] :=
      EscapeCodec.findAll_eq_of_perm (by decide +kernel) (List.pairwise_singleton _ _)
    rw [Progress.pass_of_expressions hlisted]
    rfl
  have hresumed : Progress.pass env ⟨"[TEXT(k)]".toList, []⟩ stored =
      (.ok (⟨"[TEXT(k)]".toList, []⟩, some ⟨⟨0, 9⟩, ['x']⟩), stored) := by
    have hlisted : expressions ',' "[TEXT(k)]".toList =
        [⟨.text, ['k'], [], "[TEXT(k)]".toList, ⟨0, 9⟩⟩] :=
      EscapeCodec.findAll_eq_of_perm (by decide +kernel) (List.pairwise_singleton _ _)
    rw [Progress.pass_of_expressions hlisted]
    rfl
  have hdone : Progress.pass env ⟨['x'], []⟩ stored = (.ok (⟨['x'], []⟩, none), stored) := by
    have hlisted : expressions ',' ['x'] = [] :=
      EscapeCodec.findAll_eq_of_perm (by decide +kernel) .nil
    rw [Progress.pass_of_expressions hlisted]
    rfl
  have ha : process env 2 "[TEXT(x) => store(k)]".toList [] = (.ok ['x'], stored) :=
    (Progress.resolve_of_substitution hstoring).trans (Progress.resolve_of_none hdone)
  have hb : process env 2 "[TEXT(k)]".toList stored = (.ok ['x'], stored) :=
    (Progress.resolve_of_substitution hresumed).trans (Progress.resolve_of_none hdone)
  have hcount : substitutionCount env 2 "[TEXT(x) => store(k)]".toList [] +
      substitutionCount env 2 "[TEXT(k)]".toList stored = 2 := by
    have htexts : passTexts env 2 "[TEXT(x) => store(k)]".toList [] =
        ["[TEXT(x) => store(k)]".toList, ['x']] :=
      (Progress.passTexts_of_substitution hstoring).trans
        (congrArg (_ :: ·) (Progress.passTexts_of_none hdone))
    have htexts' : passTexts env 2 "[TEXT(k)]".toList stored = ["[TEXT(k)]".toList, ['x']] :=
      (Progress.passTexts_of_substitution hresumed).trans
        (congrArg (_ :: ·) (Progress.passTexts_of_none hdone))
    rw [substitutionCount, substitutionCount, htexts, htexts']
    rfl
  have hfirst : Progress.pass env ⟨"[TEXT(x) => store(k)][TEXT(k)]".toList, []⟩ [] =
      (.ok (⟨"[TEXT(x) => store(k)][TEXT(k)]".toList, []⟩, some ⟨⟨0, 21⟩, ['x']⟩), stored) := by
    have hlisted : expressions ',' "[TEXT(x) => store(k)][TEXT(k)]".toList =
        [⟨.text, ['x'], [⟨"store".toList, [['k']], "store(k)".toList⟩],
          "[TEXT(x) => store(k)]".toList, ⟨0, 21⟩⟩, ⟨.text, ['k'], [], "[TEXT(k)]".toList, ⟨21, 30⟩⟩] :=
      EscapeCodec.findAll_eq_of_perm (by decide +kernel) (by decide +kernel)
    rw [Progress.pass_of_expressions hlisted]
    rfl
  have hsecond : Progress.pass env ⟨"x[TEXT(k)]".toList, []⟩ stored =
      (.ok (⟨"x[TEXT(k)]".toList, []⟩, some ⟨⟨1, 10⟩, ['x']⟩), stored) := by
    have hlisted : expressions ',' "x[TEXT(k)]".toList =
        [⟨.text, ['k'], [], "[TEXT(k)]".toList, ⟨1, 10⟩⟩] :=
      EscapeCodec.findAll_eq_of_perm (by decide +kernel) (List.pairwise_singleton _ _)
    rw [Progress.pass_of_expressions hlisted]
    rfl
  have htexts : passTexts env 2 ("[TEXT(x) => store(k)]".toList ++ "[TEXT(k)]".toList) [] =
      ["[TEXT(x) => store(k)][TEXT(k)]".toList, "x[TEXT(k)]".toList, "xx".toList] :=
    (Progress.passTexts_of_substitution hfirst).trans
      (congrArg (_ :: ·) (Progress.passTexts_of_substitution hsecond))
  have hfree : ∀ t ∈ passTexts env 2
      ("[TEXT(x) => store(k)]".toList ++ "[TEXT(k)]".toList) [], LeavesFree 5 t := by
    rw [htexts]
    let cs := ['\uE000', '\uE001', '\uE002', '\uE003', '\uE004']
    have hall : List.all ["[TEXT(x) => store(k)][TEXT(k)]".toList, "x[TEXT(k)]".toList, "xx".toList]
        (fun t => cs.all fun c => isPrivateUse c && !t.contains c) = true := by decide
    exact fun t ht => EscapeCodec.leavesFree_of_all (by decide) (List.all_eq_true.1 hall t ht)
  have hboth := (process_append _ 2 _ _ [] (by decide) (by decide) hfree).2 _ _ ha (by decide)
    hcount.le
  exact ⟨ha, hb, hboth.1 _ _ hb⟩

end SeedChain
