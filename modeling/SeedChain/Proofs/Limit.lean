import SeedChain.Proofs.Occurrences
import SeedChain.Proofs.Runs
/-!
# The limit of substitutions

Nothing but the step that makes a substitution looks at how many are left. So with a larger limit a
run goes through the same moments, with more substitutions left at each of them
(`Reaches.with_more`), and comes to the same end unless it was the limit that ended it
(`Ends.with_more`). What a limit changes is only that a run is cut off (`limit_only_cuts_off`).
-/

namespace SeedChain

open Evaluation

/-- The moment with so many more substitutions left. -/
def Moment.withMore (n : Nat) (m : Moment) : Moment := { m with left := m.left + n }

variable {env : Environment} {limit : Nat} {t : Text} {store : Store} {m : Moment}
  {vs : List Evaluation} {v : Evaluation} {rest : List Expression} {after : Store}

theorem Moment.Evaluates.with_more (h : m.Evaluates env v rest after) (n : Nat) :
    (m.withMore n).Evaluates env v rest after :=
  ⟨h.pending, h.progress, h.store, h.free, h.outcome⟩

theorem Reaches.with_more (h : Reaches env limit t store m vs) (n : Nat) :
    Reaches env (limit + n) t store (m.withMore n) vs := by
  induction h with
  | start => exact .start
  | passOver _ hpending haround ih => exact ih.passOver hpending haround
  | settle _ hv hleaves ih => exact ih.settle (hv.with_more n) hleaves
  | @substitute m _ _ _ _ _ left _ hv hs hleft ih =>
    refine ih.substitute (hv.with_more n) hs ?_
    show m.left + n = left + n + 1
    omega

theorem Ends.with_more {r : Except EvalError Text × Store} (h : Ends env limit t store r vs)
    (hr : ∀ k, r.1 ≠ .error (.passLimit k)) (n : Nat) : Ends env (limit + n) t store r vs := by
  cases h with
  | @resolved m _ h hpending => exact .resolved (m := m.withMore n) (h.with_more n) hpending
  | failed h hv ho => exact .failed (h.with_more n) (hv.with_more n) ho
  | exhausted => exact absurd rfl (hr limit)

theorem Reaches.substitutions_le (h : Reaches env limit t store m vs) :
    (substitutions env.delimiter vs).length ≤ limit := by
  have hall := h.left_eq
  omega

theorem Progress.length_passTexts_le (env : Environment) (left : Nat) (p : Progress)
    (store : Store) : (p.passTexts env left store).length ≤ left + 1 := by
  induction left generalizing p store with
  | zero => exact Nat.le_refl 1
  | succ left ih =>
    unfold Progress.passTexts
    split
    · exact Nat.succ_le_succ (ih _ _)
    · exact Nat.le_add_left 1 _

/-- Every run ends; at none of its moments have more substitutions been made than the limit allows,
nor at its end. A result other than that the limit is met is the result under every larger limit,
with the same store after the same evaluations. -/
theorem limit_only_cuts_off (env : Environment) (limit : Nat) (t : Text) (store : Store) :
    (∃ vs, Ends env limit t store (process env limit t store) vs) ∧
    (∀ m vs, Reaches env limit t store m vs → (substitutions env.delimiter vs).length ≤ limit) ∧
    substitutionCount env limit t store ≤ limit ∧
    ∀ limit', limit ≤ limit' → (∀ k, (process env limit t store).1 ≠ .error (.passLimit k)) →
      process env limit' t store = process env limit t store ∧
      ∀ vs, Ends env limit t store (process env limit t store) vs →
        Ends env limit' t store (process env limit t store) vs := by
  obtain ⟨vs, hvs⟩ : ∃ vs, Ends env limit t store (process env limit t store) vs :=
    process_eq_iff.1 rfl
  have hcount := Progress.length_passTexts_le env limit ⟨t, []⟩ store
  refine ⟨⟨vs, hvs⟩, fun m vs h => h.substitutions_le, ?_, fun limit' hle hr => ?_⟩
  · unfold substitutionCount passTexts
    omega
  · obtain ⟨n, rfl⟩ := Nat.exists_eq_add_of_le hle
    exact ⟨(hvs.with_more hr n).process_eq, fun ws hws => hws.with_more hr n⟩

/-- One substitution is not enough for two expressions; two are, and so are seven. -/
theorem limit_only_cuts_off_two :
    let env := Environment.plain ','
    let t := "[TEXT(a)][TEXT(b)]".toList
    process env 1 t [] = (.error (.passLimit 1), []) ∧
      process env 2 t [] = (.ok ['a', 'b'], []) ∧ substitutionCount env 2 t [] ≤ 2 ∧
      process env 7 t [] = (.ok ['a', 'b'], []) := by
  intro env t
  have hfound : expressions ',' "[TEXT(a)][TEXT(b)]".toList =
      [⟨.text, ['a'], [], "[TEXT(a)]".toList, ⟨0, 9⟩⟩, ⟨.text, ['b'], [], "[TEXT(b)]".toList, ⟨9, 18⟩⟩] :=
    EscapeCodec.findAll_eq_of_perm (by decide +kernel) (by decide +kernel)
  have hfirst : Progress.pass env ⟨t, []⟩ [] = (.ok (⟨t, []⟩, some ⟨⟨0, 9⟩, ['a']⟩), []) := by
    rw [Progress.pass_of_expressions hfound]
    rfl
  have hleft : expressions ',' "a[TEXT(b)]".toList = [⟨.text, ['b'], [], "[TEXT(b)]".toList, ⟨1, 10⟩⟩] :=
    EscapeCodec.findAll_eq_of_perm (by decide +kernel) (by decide +kernel)
  have hsecond : Progress.pass env ⟨"a[TEXT(b)]".toList, []⟩ [] =
      (.ok (⟨"a[TEXT(b)]".toList, []⟩, some ⟨⟨1, 10⟩, ['b']⟩), []) := by
    rw [Progress.pass_of_expressions hleft]
    rfl
  have hnone : expressions ',' ['a', 'b'] = [] :=
    EscapeCodec.findAll_eq_of_perm (by decide +kernel) .nil
  have hlast : Progress.pass env ⟨['a', 'b'], []⟩ [] = (.ok (⟨['a', 'b'], []⟩, none), []) := by
    rw [Progress.pass_of_expressions hnone]
    rfl
  have hone : process env 1 t [] = (.error (.passLimit 1), []) :=
    (Progress.resolve_of_substitution hfirst).trans (Progress.resolve_of_limit hsecond)
  have htwo : process env 2 t [] = (.ok ['a', 'b'], []) :=
    (Progress.resolve_of_substitution hfirst).trans
      ((Progress.resolve_of_substitution hsecond).trans (Progress.resolve_of_none hlast))
  obtain ⟨-, -, hcount, hmore⟩ := limit_only_cuts_off env 2 t []
  have hends : ∀ k, (process env 2 t []).1 ≠ .error (.passLimit k) := by
    intro k hk
    rw [htwo] at hk
    cases hk
  have hseven := (hmore 7 (by decide) hends).1
  exact ⟨hone, htwo, hcount, hseven.trans htwo⟩

end SeedChain
