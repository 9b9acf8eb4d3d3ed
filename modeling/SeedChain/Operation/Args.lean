import SeedChain.Error
import SeedChain.Operation.Arity
/-!
# Arguments

Supplied arguments are bound to the slots of an operation: missing slots are empty, and what a
variadic operation gets beyond its slots is the tail. Readers of single slots name the operation in
their errors.
-/

namespace SeedChain

/-- Arguments bound to slots. -/
structure Args where
  slots : List (Option Text)
  rest : List Text
  deriving DecidableEq, Repr

namespace Args

/-- Binds arguments to the slots of an arity. -/
def bind (arity : Arity) (supplied : List Text) : Args where
  slots := (supplied.take arity.slots).map some ++
    List.replicate (arity.slots - supplied.length) none
  rest := supplied.drop arity.slots

/-- The argument in a slot, counted from 0. -/
def get? (args : Args) (i : Nat) : Option Text := (args.slots[i]?).join

/-- The argument in a slot, or a text that stands for a missing one. -/
def getD (args : Args) (i : Nat) (default : Text) : Text := (args.get? i).getD default

/-- The argument in a slot that must not be empty. -/
def required (args : Args) (i : Nat) (function : String) : Except EvalError Text :=
  match args.get? i with
  | some t => .ok t
  | none => .error (.invalidArgument function (.missingArgument (i + 1)))

/-- The integer in a slot; nothing when the slot is empty or blank. -/
def int? (args : Args) (i : Nat) (function : String) : Except EvalError (Option Int) :=
  match (args.getD i []).trim with
  | [] => .ok none
  | t =>
    match Text.integer? t with
    | some n => .ok (some n)
    | none => .error (.invalidArgument function (.notAnInteger t))

theorem int?_of_integer? {args : Args} {i : Nat} {n : Int}
    (h : Text.integer? (args.getD i []).trim = some n) (function : String) :
    args.int? i function = .ok (some n) := by
  have hne : (args.getD i []).trim ≠ [] := by
    intro hnil
    rw [hnil] at h
    cases h
  simp only [int?, h]

/-- The first character in a slot. -/
def char? (args : Args) (i : Nat) : Option Char := (args.getD i []).head?

/-- All arguments that were supplied. -/
def all (args : Args) : List Text := args.slots.filterMap id ++ args.rest

/-- Binding loses no argument. -/
theorem all_bind (arity : Arity) (supplied : List Text) : (bind arity supplied).all = supplied := by
  simp only [bind, all, List.filterMap_append, List.filterMap_replicate, List.filterMap_map,
    Function.comp_def, id_eq, List.filterMap_some, List.append_nil, List.take_append_drop]

end Args

end SeedChain
