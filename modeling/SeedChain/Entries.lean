import SeedChain.Text.Basic
/-!
# Entries in insertion order

Named values kept in the order in which the names were first set: a new name goes last, a known one
keeps its place. Main facts: what was set is read back (`get?_set_self`), other names are not
touched (`get?_set_ne`), and names stay distinct (`keys_set_nodup`).
-/

namespace SeedChain

/-- Named values, oldest name first. -/
abbrev Entries (α : Type) := List (Text × α)

namespace Entries

variable {α : Type}

/-- The value of a name. -/
def get? (name : Text) : Entries α → Option α
  | [] => none
  | (key, value) :: es => if key = name then some value else get? name es

/-- Sets the value of a name, which goes last when it is new. -/
def set (name : Text) (value : α) : Entries α → Entries α
  | [] => [(name, value)]
  | (key, old) :: es => if key = name then (key, value) :: es else (key, old) :: set name value es

/-- Takes a name out. -/
def remove (name : Text) (es : Entries α) : Entries α := es.filter (·.1 ≠ name)

def keys (es : Entries α) : List Text := es.map (·.1)

@[simp]
theorem get?_set_self (name : Text) (value : α) (es : Entries α) :
    get? name (set name value es) = some value := by
  induction es with
  | nil => simp [set, get?]
  | cons e es ih =>
    by_cases h : e.1 = name <;> simp [set, get?, h, ih]

theorem get?_set_ne {name other : Text} (h : other ≠ name) (value : α) (es : Entries α) :
    get? other (set name value es) = get? other es := by
  induction es with
  | nil => simp [set, get?, h.symm]
  | cons e es ih =>
    by_cases he : e.1 = name
    · simp [set, get?, he, h.symm]
    · simp [set, get?, he, ih]

theorem mem_keys_set {name key : Text} {value : α} {es : Entries α} :
    key ∈ keys (set name value es) ↔ key = name ∨ key ∈ keys es := by
  induction es with
  | nil => simp [set, keys]
  | cons e es ih =>
    by_cases he : e.1 = name
    · simp [set, keys, he]
    · simp only [set, he, if_false, keys, List.map_cons, List.mem_cons] at ih ⊢
      rw [ih]
      exact or_left_comm

theorem keys_set_nodup {name : Text} {value : α} {es : Entries α} (h : (keys es).Nodup) :
    (keys (set name value es)).Nodup := by
  induction es with
  | nil => simp [set, keys]
  | cons e es ih =>
    have hes := List.nodup_cons.1 h
    by_cases he : e.1 = name
    · simpa [set, keys, he] using h
    · simp only [set, he, if_false, keys, List.map_cons, List.nodup_cons]
      refine ⟨fun hmem => ?_, ih hes.2⟩
      rcases mem_keys_set.1 hmem with heq | hin
      · exact he heq
      · exact hes.1 hin

end Entries

end SeedChain
