import SeedChain.Operation.Table
/-!
# Calls that go on

A call that goes on with a value has run one operation of the table (`Operation.exists_run_of_call`), so
what a type's calls can do is told by cases on its operations. What each of them keeps holds of
everything that calls make of a value, one after the other (`Value.Becomes.invariant`).
-/

namespace SeedChain

/-- What is computed from a result is only there if the result is. -/
theorem exists_of_bind_eq_ok {ε α β : Type} {x : Except ε α} {f : α → Except ε β} {b : β}
    (h : x.bind f = .ok b) : ∃ a, x = .ok a ∧ f a = .ok b := by
  cases x with
  | error reason => cases h
  | ok a => exact ⟨a, rfl, h⟩

/-- What every step of a computation along a list keeps holds of its result. -/
theorem foldlM_invariant {ε α β : Type} {f : β → α → Except ε β} {P : β → Prop} {xs : List α}
    {b result : β} (h : xs.foldlM f b = .ok result) (hb : P b)
    (hstep : ∀ x ∈ xs, ∀ b next, P b → f b x = .ok next → P next) : P result := by
  induction xs generalizing b with
  | nil =>
    cases h
    exact hb
  | cons x xs ih =>
    rw [List.foldlM_cons] at h
    obtain ⟨next, hnext, hrest⟩ := exists_of_bind_eq_ok h
    obtain ⟨hfirst, hothers⟩ := List.forall_mem_cons.1 hstep
    exact ih hrest (hfirst b next hb hnext) hothers

/-- A call that goes on has run one of the operations. -/
theorem Operation.exists_run_of_call {α : Type} {operations : List (Operation α)} {delimiter : Char}
    {v next : Value} {x : α} {name : Text} {args : List Text} {store after : Store}
    (h : call operations delimiter v x name args store = (.ok (some next), after)) :
    ∃ op ∈ operations, ∃ bound, op.run delimiter v x bound store = (.ok (some next), after) := by
  unfold call at h
  split at h
  · cases h
  · rename_i op hop
    split at h
    · exact ⟨op, List.mem_of_find?_eq_some hop, _, h⟩
    · cases h

/-- What calls make of a value of one type, one after the other, as long as they go on with values of this
type. -/
inductive Value.Becomes {α : Type} (carrier : α → Value) (delimiter : Char) (start : α) : α → Prop
  | refl : Becomes carrier delimiter start start
  | call {x next : α} {name : Text} {args : List Text} {store after : Store}
      (before : Becomes carrier delimiter start x)
      (goesOn : (carrier x).invoke delimiter name args store = (.ok (some (carrier next)), after)) :
      Becomes carrier delimiter start next

/-- What every call keeps holds of all that calls make. -/
theorem Value.Becomes.invariant {α : Type} {carrier : α → Value} {delimiter : Char} {start x : α}
    {P : α → Prop} (h : Becomes carrier delimiter start x) (hstart : P start)
    (hcall : ∀ x next name args store after, P x →
      (carrier x).invoke delimiter name args store = (.ok (some (carrier next)), after) → P next) :
    P x := by
  induction h with
  | refl => exact hstart
  | call _ goesOn ih => exact hcall _ _ _ _ _ _ ih goesOn

end SeedChain
