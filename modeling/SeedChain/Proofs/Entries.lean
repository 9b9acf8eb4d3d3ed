import Mathlib.Data.List.Nodup
import Mathlib.Tactic.Common
import SeedChain.Entries
/-!
# What setting and taking out change

Entries are a map in the order of insertion. `Sets` and `Removes` say what a map has become when one
name has got a value, or is gone, without a word on how that is done: what is read under each name, and
the order of the names. With distinct names this leaves nothing open. `set` and `remove` do just that
(`sets_set`, `removes_remove`).
-/

namespace SeedChain.Entries

variable {α : Type} {name : Text} {value : α} {es : Entries α}

/-- The name has got the value, and no other name another one. A name that was there keeps its place, a
new one is the last. -/
structure Sets (name : Text) (value : α) (before after : Entries α) : Prop where
  get?_self : get? name after = some value
  get?_other : ∀ other ≠ name, get? other after = get? other before
  keys_eq : keys after = if name ∈ keys before then keys before else keys before ++ [name]

/-- The name is gone. All other names keep their values and their order. -/
structure Removes (name : Text) (before after : Entries α) : Prop where
  not_mem : name ∉ keys after
  get?_other : ∀ other ≠ name, get? other after = get? other before
  keys_eq : keys after = (keys before).erase name

theorem mem_of_get? (h : get? name es = some value) : (name, value) ∈ es := by
  induction es with
  | nil => cases h
  | cons e es ih =>
    rw [get?] at h
    split at h
    · rename_i heq
      obtain rfl := Option.some.inj h
      exact List.mem_cons.2 (.inl (Prod.ext heq.symm rfl))
    · exact List.mem_cons_of_mem _ (ih h)

theorem mem_keys_of_get? (h : get? name es = some value) : name ∈ keys es :=
  List.mem_map.2 ⟨_, mem_of_get? h, rfl⟩

theorem mem_set {e : Text × α} (h : e ∈ set name value es) : e = (name, value) ∨ e ∈ es := by
  induction es with
  | nil => exact .inl (List.mem_singleton.1 h)
  | cons first es ih =>
    rw [set] at h
    split at h
    · rename_i heq
      exact (List.mem_cons.1 h).imp (fun h => h.trans (Prod.ext heq rfl)) (List.mem_cons_of_mem _)
    · rcases List.mem_cons.1 h with h | h
      · exact .inr (List.mem_cons.2 (.inl h))
      · exact (ih h).imp_right (List.mem_cons_of_mem _)

theorem keys_set (name : Text) (value : α) (es : Entries α) :
    keys (set name value es) = if name ∈ keys es then keys es else keys es ++ [name] := by
  induction es with
  | nil => rfl
  | cons e es ih =>
    by_cases he : e.1 = name
    · simp [set, keys, he]
    · have hmem : name ∈ keys (e :: es) ↔ name ∈ keys es := by simp [keys, Ne.symm he]
      simp only [set, he, if_false, hmem]
      change e.1 :: keys (set name value es) = _
      rw [ih]
      split <;> rfl

theorem keys_remove (name : Text) (es : Entries α) :
    keys (remove name es) = (keys es).filter (· ≠ name) := by
  simp only [keys, remove, List.filter_map]
  rfl

theorem get?_remove_ne {other : Text} (h : other ≠ name) (es : Entries α) :
    get? other (remove name es) = get? other es := by
  induction es with
  | nil => rfl
  | cons e es ih =>
    by_cases he : e.1 = name
    · have hskip : remove name (e :: es) = remove name es := List.filter_cons_of_neg (by simpa using he)
      rw [hskip, ih, get?, if_neg (he ▸ h.symm)]
    · have hkeep : remove name (e :: es) = e :: remove name es :=
        List.filter_cons_of_pos (by simpa using he)
      rw [hkeep, get?, get?, ih]

theorem get?_eq_none_iff : get? name es = none ↔ name ∉ keys es := by
  induction es with
  | nil => simp [get?, keys]
  | cons e es ih =>
    by_cases he : e.1 = name
    · simp [get?, keys, he]
    · simpa [get?, keys, he, Ne.symm he] using ih

/-- Taking out what is not there changes nothing. -/
theorem remove_of_not_mem (h : name ∉ keys es) : remove name es = es := by
  refine List.filter_eq_self.2 fun e he => decide_eq_true ?_
  rintro rfl
  exact h (List.mem_map_of_mem he)

/-- What is left when a name stands once. -/
theorem remove_middle {before behind : Entries α} (h : name ∉ keys (before ++ behind)) :
    remove name (before ++ (name, value) :: behind) = before ++ behind := by
  have hskip : remove name (before ++ (name, value) :: behind) = remove name (before ++ behind) := by
    simp [remove]
  rw [hskip, remove_of_not_mem h]

@[simp]
theorem set_set (name : Text) (old value : α) (es : Entries α) :
    set name value (set name old es) = set name value es := by
  induction es with
  | nil => simp [set]
  | cons e es ih => by_cases he : e.1 = name <;> simp [set, he, ih]

/-- Setting what is there changes nothing. -/
theorem set_of_get? (h : get? name es = some value) : set name value es = es := by
  induction es with
  | nil => cases h
  | cons e es ih =>
    rw [get?] at h
    rw [set]
    split at h
    · rename_i he
      rw [if_pos he, ← Option.some.inj h]
    · rename_i he
      rw [if_neg he, ih h]

theorem mem_set_self (name : Text) (value : α) (es : Entries α) : (name, value) ∈ set name value es :=
  mem_of_get? (get?_set_self name value es)

/-- Of distinct names one that comes later is not there before. -/
theorem not_mem_keys_of_nodup {e : Text × α} {behind : Entries α} (h : (keys (es ++ e :: behind)).Nodup) :
    e.1 ∉ keys es := by
  rw [keys, List.map_append, List.map_cons, List.nodup_middle, List.nodup_cons] at h
  exact fun hmem => h.1 (List.mem_append_left _ hmem)

/-- A new name goes last. -/
theorem set_of_not_mem (h : name ∉ keys es) (value : α) : set name value es = es ++ [(name, value)] := by
  induction es with
  | nil => rfl
  | cons e es ih =>
    simp only [keys, List.map_cons, List.mem_cons, not_or] at h
    rw [set, if_neg (Ne.symm h.1), ih h.2, List.cons_append]

theorem exists_get?_of_mem_keys (h : name ∈ keys es) : ∃ value, get? name es = some value :=
  Option.ne_none_iff_exists'.1 fun hnone => get?_eq_none_iff.1 hnone h

theorem sets_set (name : Text) (value : α) (es : Entries α) : Sets name value es (set name value es) where
  get?_self := get?_set_self name value es
  get?_other _ h := get?_set_ne h value es
  keys_eq := keys_set name value es

theorem removes_remove (name : Text) (h : (keys es).Nodup) : Removes name es (remove name es) where
  not_mem hmem := by simp [keys_remove] at hmem
  get?_other _ hother := get?_remove_ne hother es
  keys_eq := by
    rw [keys_remove, h.erase_eq_filter]
    exact List.filter_congr fun key _ => by simp [bne, Bool.beq_eq_decide_eq]

theorem keys_remove_nodup (name : Text) (h : (keys es).Nodup) : (keys (remove name es)).Nodup := by
  rw [keys_remove]
  exact h.filter _

end SeedChain.Entries
