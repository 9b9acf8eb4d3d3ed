import SeedChain.Proofs.Lexing
import SeedChain.Proofs.Recognition
/-!
# Marks that are opened and closed

`openMarks?` counts the marks that are open behind a text, and fails where one is closed that is not open;
the scanners do not fail there, and take such a mark for nothing. Inside brackets the seed scanner passes
through every text that closes only what it opens (`EscapeCodec.cutSeed?_of_openMarks?`), and the chain
scanner does so inside parentheses (`EscapeCodec.cutChain?_of_openMarks?`), where the parameters of a
call are such a text (`openMarks?_of_closeParams`). That a text closes only what it opens can be said by
counts of its parts (`openMarks?_eq_some_iff`).
-/

namespace SeedChain

/-! ## Open marks -/

/-- How many marks are open behind a text when `depth` are open before it; nothing where one is closed
that is not open. -/
def openMarks? (opening closing : Char) (depth : Nat) : Text → Option Nat
  | [] => some depth
  | c :: t =>
    if c = opening then openMarks? opening closing (depth + 1) t
    else if c = closing then
      if depth = 0 then none else openMarks? opening closing (depth - 1) t
    else openMarks? opening closing depth t

variable {opening closing : Char} {depth n : Nat} {x y w z : Text}

theorem openMarks?_append (opening closing : Char) (depth : Nat) (x y : Text) :
    openMarks? opening closing depth (x ++ y) =
      (openMarks? opening closing depth x).bind fun n => openMarks? opening closing n y := by
  induction x generalizing depth with
  | nil => rfl
  | cons c x ih =>
    rw [List.cons_append, openMarks?, openMarks?, ih, ih, ih]
    split
    · rfl
    · split
      · split <;> rfl
      · rfl

theorem openMarks?_plain (h : ∀ c ∈ x, c ≠ opening ∧ c ≠ closing) (depth : Nat) :
    openMarks? opening closing depth x = some depth := by
  induction x with
  | nil => rfl
  | cons c x ih =>
    obtain ⟨hopen, hclose⟩ := h c (by simp)
    rw [openMarks?, if_neg hopen, if_neg hclose]
    exact ih fun d hd => h d (List.mem_cons_of_mem _ hd)

/-- Marks that are open before the text stay open. -/
theorem openMarks?_add (h : openMarks? opening closing depth x = some n) (more : Nat) :
    openMarks? opening closing (more + depth) x = some (more + n) := by
  induction x generalizing depth with
  | nil =>
    obtain rfl : depth = n := Option.some.inj h
    rfl
  | cons c x ih =>
    rw [openMarks?] at h ⊢
    by_cases hopen : c = opening
    · rw [if_pos hopen] at h ⊢
      exact ih h
    · rw [if_neg hopen] at h ⊢
      by_cases hclose : c = closing
      · rw [if_pos hclose] at h ⊢
        split at h
        · cases h
        · rename_i hdepth
          rw [if_neg (by omega), Nat.add_sub_assoc (by omega)]
          exact ih h
      · rw [if_neg hclose] at h ⊢
        exact ih h

theorem isSome_openMarks?_prefix (h : openMarks? opening closing depth (x ++ y) = some n) :
    ∃ k, openMarks? opening closing depth x = some k := by
  rw [openMarks?_append] at h
  obtain ⟨k, hk, -⟩ := Option.bind_eq_some_iff.1 h
  exact ⟨k, hk⟩

theorem Text.forall_prefix_cons_iff {P : Text → Prop} {c : Char} :
    (∀ part, part <+: c :: x → P part) ↔ P [] ∧ ∀ part, part <+: x → P (c :: part) := by
  constructor
  · intro h
    exact ⟨h [] List.nil_prefix, fun part hpart => h _ ((List.prefix_cons_inj c).2 hpart)⟩
  · rintro ⟨hnil, hcons⟩ part hpart
    rcases List.prefix_cons_iff.1 hpart with rfl | ⟨tail, rfl, htail⟩
    · exact hnil
    · exact hcons tail htail

/-- The marks are counted: no part at the beginning closes more than is open, and what is open at the end
is what has not been closed. -/
theorem openMarks?_eq_some_iff (hne : opening ≠ closing) :
    openMarks? opening closing depth x = some n ↔
      (∀ part, part <+: x → part.count closing ≤ part.count opening + depth) ∧
        x.count opening + depth = x.count closing + n := by
  induction x generalizing depth with
  | nil => simp [openMarks?]
  | cons c x ih =>
    rw [openMarks?, Text.forall_prefix_cons_iff]
    by_cases hopen : c = opening
    · subst hopen
      simp only [if_true, ih, List.count_cons_self, List.count_cons_of_ne hne, List.count_nil]
      grind
    · rw [if_neg hopen]
      by_cases hclose : c = closing
      · subst hclose
        simp only [if_true, List.count_cons_self, List.count_cons_of_ne hopen, List.count_nil]
        by_cases hdepth : depth = 0
        · have hfirst : ([] : Text) <+: x := List.nil_prefix
          simp only [hdepth, if_true]
          grind
        · simp only [hdepth, if_false, ih]
          grind
      · simp only [if_neg hclose, ih, List.count_cons_of_ne hopen, List.count_cons_of_ne hclose,
          List.count_nil]
        grind

/-- The parameters of a call close only what they open, and all of it. -/
theorem openMarks?_of_closeParams {t params rest : Text}
    (h : Lexer.closeParams depth t = some (params, rest)) :
    openMarks? '(' ')' depth params = some 0 := by
  induction t generalizing depth params with
  | nil => cases h
  | cons c t ih =>
    simp only [Lexer.closeParams] at h
    by_cases hopen : c = '('
    · rw [if_pos hopen] at h
      obtain ⟨⟨p, r⟩, hp, heq⟩ := Option.map_eq_some_iff.1 h
      cases heq
      rw [openMarks?, if_pos hopen]
      exact ih hp
    · rw [if_neg hopen] at h
      by_cases hclose : c = ')'
      · rw [if_pos hclose] at h
        cases depth with
        | zero =>
          cases h
          rfl
        | succ depth =>
          obtain ⟨⟨p, r⟩, hp, heq⟩ := Option.map_eq_some_iff.1 h
          cases heq
          rw [openMarks?, if_neg hopen, if_pos hclose, if_neg (Nat.succ_ne_zero _)]
          exact ih hp
      · rw [if_neg hclose] at h
        obtain ⟨⟨p, r⟩, hp, heq⟩ := Option.map_eq_some_iff.1 h
        cases heq
        rw [openMarks?, if_neg hopen, if_neg hclose]
        exact ih hp

/-- Parameters that nothing closes close only what they open, and their own parenthesis stays open. -/
theorem openMarks?_of_closeParams_eq_none {t : Text} (h : Lexer.closeParams depth t = none) :
    ∃ n, openMarks? '(' ')' (depth + 1) t = some (n + 1) := by
  induction t generalizing depth with
  | nil => exact ⟨depth, rfl⟩
  | cons c t ih =>
    simp only [Lexer.closeParams] at h
    rw [openMarks?]
    by_cases hopen : c = '('
    · rw [if_pos hopen, Option.map_eq_none_iff] at h
      rw [if_pos hopen]
      exact ih h
    · rw [if_neg hopen] at h ⊢
      by_cases hclose : c = ')'
      · rw [if_pos hclose] at h ⊢
        cases depth with
        | zero => cases h
        | succ depth =>
          rw [if_neg (Nat.succ_ne_zero _)]
          exact ih (Option.map_eq_none_iff.1 h)
      · rw [if_neg hclose, Option.map_eq_none_iff] at h
        rw [if_neg hclose]
        exact ih h

namespace EscapeCodec

/-! ## Scanners pass through -/

variable {p q : Text}

/-- A seed does not end inside a text that is within brackets and closes only what it opens. -/
theorem cutSeed?_of_openMarks? (h : openMarks? '[' ']' depth x = some n) {more : Nat} (hmore : 0 < more)
    (y : Text) :
    cutSeed? (more + depth) (x ++ y) =
      (cutSeed? (more + n) y).map fun parts => (x ++ parts.1, parts.2) := by
  induction x generalizing depth with
  | nil =>
    obtain rfl : depth = n := Option.some.inj h
    simp
  | cons c x ih =>
    rw [List.cons_append, cutSeed?, if_neg fun hc => by omega]
    rw [openMarks?] at h
    by_cases hopen : c = '['
    · rw [if_pos hopen] at h ⊢
      simp only [Nat.add_assoc, ih h, Option.map_map]
      rfl
    · rw [if_neg hopen] at h ⊢
      by_cases hclose : c = ']'
      · rw [if_pos hclose] at h ⊢
        split at h
        · cases h
        · rename_i hdepth
          simp only [Nat.add_sub_assoc (Nat.pos_of_ne_zero hdepth), ih h, Option.map_map]
          rfl
      · rw [if_neg hclose] at h ⊢
        simp only [ih h, Option.map_map]
        rfl

/-- A chain does not end inside a text that is within parentheses and closes only what it opens. -/
theorem cutChain?_of_openMarks? (h : openMarks? '(' ')' depth x = some n) {more : Nat}
    (hmore : 0 < more) (y : Text) :
    cutChain? (more + depth) (x ++ y) =
      (cutChain? (more + n) y).map fun parts => (x ++ parts.1, parts.2) := by
  induction x generalizing depth with
  | nil =>
    obtain rfl : depth = n := Option.some.inj h
    simp
  | cons c x ih =>
    rw [List.cons_append, cutChain?, if_neg fun hc => by omega]
    rw [openMarks?] at h
    by_cases hopen : c = '('
    · rw [if_pos hopen] at h ⊢
      simp only [Nat.add_assoc, ih h, Option.map_map]
      rfl
    · rw [if_neg hopen] at h ⊢
      by_cases hclose : c = ')'
      · rw [if_pos hclose] at h ⊢
        split at h
        · cases h
        · rename_i hdepth
          simp only [Nat.add_sub_assoc (Nat.pos_of_ne_zero hdepth), ih h, Option.map_map]
          rfl
      · rw [if_neg hclose] at h ⊢
        simp only [ih h, Option.map_map]
        rfl

/-- Inside a seed the scanner goes on as if it began there with some brackets open. -/
theorem exists_cutSeed?_behind (h : cutSeed? depth (x ++ y) = some (x ++ p, q)) :
    ∃ n, cutSeed? n y = some (p, q) := by
  induction x generalizing depth with
  | nil => exact ⟨depth, h⟩
  | cons c x ih =>
    rw [List.cons_append, cutSeed?] at h
    split at h
    · cases h
    · obtain ⟨⟨s, r⟩, hs, heq⟩ := Option.map_eq_some_iff.1 h
      simp only [List.cons_append, Prod.mk.injEq, List.cons.injEq, true_and] at heq
      obtain ⟨rfl, rfl⟩ := heq
      exact ih hs

/-- Inside a chain it goes on with the parentheses that are open there. -/
theorem cutChain?_behind (hx : openMarks? '(' ')' depth x = some n)
    (h : cutChain? depth (x ++ y) = some (x ++ p, q)) : cutChain? n y = some (p, q) := by
  induction x generalizing depth with
  | nil =>
    obtain rfl : depth = n := Option.some.inj hx
    exact h
  | cons c x ih =>
    rw [List.cons_append, cutChain?] at h
    split at h
    · cases h
    · obtain ⟨⟨s, r⟩, hs, heq⟩ := Option.map_eq_some_iff.1 h
      simp only [List.cons_append, Prod.mk.injEq, List.cons.injEq, true_and] at heq
      obtain ⟨rfl, rfl⟩ := heq
      refine ih ?_ hs
      rw [openMarks?] at hx
      split_ifs at hx ⊢ <;> exact hx

end EscapeCodec

end SeedChain
