import Mathlib.Data.List.Basic
import Mathlib.Data.Nat.Bitwise
import Mathlib.Tactic.Common
import SeedChain.Operation.Table
import SeedChain.Proofs.Pieces
/-!
# Title case

Title case works letter by letter: in every run of characters that are not white the first one is
replaced by its upper case and each other one by its lower case. Letters that a mapping gives are not
changed by it a second time (`mapLetter_of_mem`), so what a second application can change is only what
stands behind the first letter of an upper case that has several: `ß` becomes `SS`, and then `Ss`.

Main result: `title_settles`.
-/

namespace SeedChain

namespace LetterCase

open Text

/-! ## Code points as bits -/

/-- The code points of a run, in order. -/
def Run.codes (r : Run) : List Nat := List.range' r.first ((r.last - r.first) / r.step + 1) r.step

theorem Run.mem_codes {r : Run} {n : Nat} (h : r.holds n = true) : n ∈ r.codes := by
  simp only [holds, Bool.and_eq_true, decide_eq_true_eq, beq_iff_eq] at h
  obtain ⟨⟨hfirst, hlast⟩, hstep⟩ := h
  refine List.mem_range'.2 ⟨(n - r.first) / r.step, ?_, ?_⟩
  · exact Nat.lt_succ_of_le (Nat.div_le_div_right (by omega))
  · rw [Nat.mul_div_cancel' (Nat.dvd_of_mod_eq_zero hstep)]
    omega

/-- The number whose bits stand at the places in a list. Whether two lists have a place in common is one
operation on such numbers. -/
def bits (ns : List Nat) : Nat := ns.foldr (fun n b => 2 ^ n ||| b) 0

theorem testBit_bits {ns : List Nat} {n : Nat} : (bits ns).testBit n = true ↔ n ∈ ns := by
  induction ns with
  | nil => simp [bits]
  | cons m ns ih =>
    rw [bits, List.foldr_cons, ← bits, Nat.testBit_or, Bool.or_eq_true, ih, Nat.testBit_two_pow,
      decide_eq_true_eq, List.mem_cons, eq_comm]

theorem not_mem_of_bits {ms ns : List Nat} {n : Nat} (h : bits ms &&& bits ns = 0) (hn : n ∈ ns) :
    n ∉ ms := by
  intro hm
  have hbit : (bits ms &&& bits ns).testBit n = true := by
    rw [Nat.testBit_and, testBit_bits.2 hm, testBit_bits.2 hn, Bool.and_self]
  rw [h, Nat.zero_testBit] at hbit
  cases hbit

/-- The code points of the white characters. -/
def whiteCodes : List Nat :=
  List.range' 0x09 5 ++ [0x20, 0x85, 0xA0, 0x1680] ++ List.range' 0x2000 11 ++
    [0x2028, 0x2029, 0x202F, 0x205F, 0x3000]

theorem mem_whiteCodes {c : Char} (h : isWhite c = true) : c.toNat ∈ whiteCodes := by
  simp only [isWhite, Bool.or_eq_true, Bool.and_eq_true, decide_eq_true_eq, beq_iff_eq] at h
  simp only [whiteCodes, List.mem_append, List.mem_range'_1, List.mem_cons, List.not_mem_nil, or_false]
  omega

/-! ## Letters mapped twice -/

section Tables

variable {expansions : List (Nat × List Nat)} {shifts : List Shift} {c d : Char} {n : Nat}

/-- The code points that the tables map. -/
def mappedCodes (expansions : List (Nat × List Nat)) (shifts : List Shift) : List Nat :=
  expansions.map (·.1) ++ shifts.flatMap (·.codes)

/-- The code points that the tables map them to. -/
def imageCodes (expansions : List (Nat × List Nat)) (shifts : List Shift) : List Nat :=
  expansions.flatMap (·.2) ++ shifts.flatMap fun s =>
    s.codes.map fun n : Nat => (n + s.offset).toNat

/-- Code points are mapped to characters, to one or to several, and none of these is white or is mapped
to another one. -/
structure Settling (expansions : List (Nat × List Nat)) (shifts : List Shift) : Prop where
  ne_nil : ∀ e ∈ expansions, e.2 ≠ []
  valid : ∀ n ∈ imageCodes expansions shifts, n.isValidChar
  white : bits whiteCodes &&& bits (imageCodes expansions shifts) = 0
  mapped : bits (mappedCodes expansions shifts) &&& bits (imageCodes expansions shifts) = 0

theorem mapLetter_eq_self (h : c.toNat ∉ mappedCodes expansions shifts) :
    mapLetter expansions shifts c = [c] := by
  simp only [mappedCodes, List.mem_append, not_or, List.mem_flatMap, not_exists, not_and] at h
  have hexpansion : expansions.lookup c.toNat = none := by
    rw [List.lookup_eq_none_iff]
    intro e he
    rw [bne_iff_ne]
    intro heq
    exact h.1 (heq ▸ List.mem_map_of_mem he)
  have hshift : shifts.find? (·.holds c.toNat) = none := by
    rw [List.find?_eq_none]
    intro s hs hholds
    exact h.2 s hs (Run.mem_codes hholds)
  rw [mapLetter, hexpansion, hshift]

/-- A letter is mapped to itself or to code points that the tables give. -/
theorem mapLetter_cases (h : Settling expansions shifts) (c : Char) :
    mapLetter expansions shifts c = [c] ∨ mapLetter expansions shifts c ≠ [] ∧
      ∀ d ∈ mapLetter expansions shifts c, ∃ n ∈ imageCodes expansions shifts, d = Char.ofNat n := by
  unfold mapLetter
  split
  · rename_i codes hlookup
    obtain ⟨before, after, hsplit, -⟩ := List.lookup_eq_some_iff.1 hlookup
    have he : (c.toNat, codes) ∈ expansions := by simp [hsplit]
    refine .inr ⟨by simpa using h.ne_nil _ he, fun d hd => ?_⟩
    obtain ⟨n, hn, rfl⟩ := List.mem_map.1 hd
    exact ⟨n, List.mem_append_left _ (List.mem_flatMap.2 ⟨_, he, hn⟩), rfl⟩
  · split
    · rename_i s hfind
      refine .inr ⟨List.cons_ne_nil _ _, fun d hd => ?_⟩
      have hcode := Run.mem_codes (List.find?_some (p := fun s : Shift => s.holds c.toNat) hfind)
      exact ⟨_, List.mem_append_right _ (List.mem_flatMap.2
        ⟨s, List.mem_of_find?_eq_some hfind, List.mem_map_of_mem hcode⟩), List.mem_singleton.1 hd⟩
    · exact .inl rfl

theorem Settling.toNat_ofNat (h : Settling expansions shifts) (hn : n ∈ imageCodes expansions shifts) :
    (Char.ofNat n).toNat = n := by
  rw [Char.ofNat, dif_pos (h.valid n hn)]
  rfl

theorem mapLetter_ne_nil (h : Settling expansions shifts) (c : Char) :
    mapLetter expansions shifts c ≠ [] := by
  rcases mapLetter_cases h c with hself | ⟨hne, -⟩
  · rw [hself]
    exact List.cons_ne_nil _ _
  · exact hne

/-- Letters that a mapping gives are mapped to themselves. -/
theorem mapLetter_of_mem (h : Settling expansions shifts)
    (hd : d ∈ mapLetter expansions shifts c) : mapLetter expansions shifts d = [d] := by
  rcases mapLetter_cases h c with hself | ⟨-, hall⟩
  · rw [hself, List.mem_singleton] at hd
    rw [hd, hself]
  · obtain ⟨n, hn, rfl⟩ := hall d hd
    refine mapLetter_eq_self ?_
    rw [h.toNat_ofNat hn]
    exact not_mem_of_bits h.mapped hn

/-- Only white characters are mapped to white ones. -/
theorem isWhite_of_mem_mapLetter (h : Settling expansions shifts) (hc : isWhite c = false)
    (hd : d ∈ mapLetter expansions shifts c) : isWhite d = false := by
  rcases mapLetter_cases h c with hself | ⟨-, hall⟩
  · rw [hself, List.mem_singleton] at hd
    rw [hd, hc]
  · obtain ⟨n, hn, rfl⟩ := hall d hd
    rw [Bool.eq_false_iff]
    intro hwhite
    have hcode := mem_whiteCodes hwhite
    rw [h.toNat_ofNat hn] at hcode
    exact not_mem_of_bits h.white hn hcode

end Tables

theorem settling_upper : Settling upperExpansions upperShifts where
  ne_nil := by decide +kernel
  valid := by decide +kernel
  white := by decide +kernel
  mapped := by decide +kernel

theorem settling_lower : Settling lowerExpansions lowerShifts where
  ne_nil := by decide +kernel
  valid := by decide +kernel
  white := by decide +kernel
  mapped := by decide +kernel

/-- What title case writes for a letter is not white. -/
theorem isWhite_of_mem_titleLetter {inWord : Bool} {c d : Char} (hc : isWhite c = false)
    (hd : d ∈ if inWord then lowerLetter c else upperLetter c) : isWhite d = false := by
  split at hd
  · exact isWhite_of_mem_mapLetter settling_lower hc hd
  · exact isWhite_of_mem_mapLetter settling_upper hc hd

/-- Lower case changes nothing behind the first letter of the upper case. -/
def singleCapital (c : Char) : Bool :=
  (upperLetter c).tail.flatMap lowerLetter == (upperLetter c).tail

theorem upperLetter_eq_cons (c : Char) : ∃ d ds, upperLetter c = d :: ds ∧ upperLetter d = [d] := by
  obtain ⟨d, ds, hcons⟩ := List.exists_cons_of_ne_nil (mapLetter_ne_nil settling_upper c)
  exact ⟨d, ds, hcons, mapLetter_of_mem settling_upper (hcons ▸ List.mem_cons_self)⟩

theorem lowerLetter_lowerLetter (t : Text) :
    (t.flatMap lowerLetter).flatMap lowerLetter = t.flatMap lowerLetter := by
  rw [List.flatMap_assoc]
  refine List.flatMap_congr fun c _ => ?_
  have hsame : ∀ d ∈ lowerLetter c, lowerLetter d = [d] := fun d hd => mapLetter_of_mem settling_lower hd
  rw [List.flatMap_congr hsame, List.flatMap_singleton']

end LetterCase

namespace Text

open LetterCase

/-! ## Words -/

/-- A word with its first letter in upper case and the others in lower case. -/
def capitalize : Text → Text
  | [] => []
  | c :: w => upperLetter c ++ w.flatMap lowerLetter

/-- Title case treats the pieces between white characters one by one. -/
theorem splitWhen_titleFrom (inWord : Bool) (t w : Text) (ws : List Text)
    (h : splitWhen isWhite t = w :: ws) :
    splitWhen isWhite (titleFrom inWord t) =
      (if inWord then w.flatMap lowerLetter else capitalize w) :: ws.map capitalize := by
  induction t generalizing inWord w ws with
  | nil =>
    obtain ⟨rfl, rfl⟩ := List.cons.inj h
    cases inWord <;> rfl
  | cons c t ih =>
    -- a white character begins a new piece; any other one goes on with the piece that has been begun
    obtain ⟨w', ws', hsplit⟩ := List.exists_cons_of_ne_nil (splitWhen_ne_nil isWhite t)
    cases hc : isWhite c with
    | true =>
      simp only [splitWhen, hc, if_true, hsplit] at h
      obtain ⟨rfl, rfl⟩ := List.cons.inj h
      simp only [titleFrom, hc, if_true, splitWhen, ih false _ _ hsplit, Bool.false_eq_true, if_false]
      cases inWord <;> rfl
    | false =>
      rw [splitWhen_cons_of_neg hc, hsplit, List.modifyHead_cons] at h
      obtain ⟨rfl, rfl⟩ := List.cons.inj h
      rw [titleFrom, hc, if_neg Bool.false_ne_true,
        splitWhen_append_of_forall_neg fun d hd => isWhite_of_mem_titleLetter hc hd,
        ih true _ _ hsplit, List.modifyHead_cons]
      cases inWord <;> rfl

theorem splitWhen_title (t : Text) :
    splitWhen isWhite (title t) = (splitWhen isWhite t).map capitalize := by
  obtain ⟨w, ws, hsplit⟩ := List.exists_cons_of_ne_nil (splitWhen_ne_nil isWhite t)
  rw [title, splitWhen_titleFrom false t w ws hsplit, hsplit]
  rfl

/-- Title case keeps the white characters. -/
theorem filter_isWhite_titleFrom (inWord : Bool) (t : Text) :
    (titleFrom inWord t).filter isWhite = t.filter isWhite := by
  induction t generalizing inWord with
  | nil => rfl
  | cons c t ih =>
    cases hc : isWhite c with
    | true => simp only [titleFrom, hc, if_true, List.filter_cons_of_pos, ih]
    | false =>
      have himage : (if inWord then lowerLetter c else upperLetter c).filter isWhite = [] := by
        rw [List.filter_eq_nil_iff]
        intro d hd
        rw [Bool.not_eq_true]
        exact isWhite_of_mem_titleLetter hc hd
      rw [titleFrom, hc, if_neg Bool.false_ne_true, List.filter_append, himage, List.nil_append, ih,
        List.filter_cons_of_neg (by simp [hc])]

theorem filter_isWhite_title (t : Text) : (title t).filter isWhite = t.filter isWhite :=
  filter_isWhite_titleFrom false t

/-! ## A second time -/

/-- What stands behind the first letter of a word is in lower case then. -/
theorem capitalize_capitalize_cons {c d : Char} {ds : Text} (h : upperLetter c = d :: ds) (w : Text) :
    capitalize (capitalize (c :: w)) = d :: ds.flatMap lowerLetter ++ w.flatMap lowerLetter := by
  obtain ⟨d', ds', hcons, hd⟩ := upperLetter_eq_cons c
  obtain ⟨rfl, rfl⟩ := List.cons.inj (h.symm.trans hcons)
  -- the letters behind `d` stand inside the word now
  rw [capitalize, h, List.cons_append, capitalize, hd, List.flatMap_append, lowerLetter_lowerLetter]
  rfl

theorem capitalize_twice_iff (c : Char) (w : Text) :
    capitalize (capitalize (c :: w)) = capitalize (c :: w) ↔ singleCapital c = true := by
  obtain ⟨d, ds, hcons, -⟩ := upperLetter_eq_cons c
  rw [capitalize_capitalize_cons hcons, capitalize, hcons, singleCapital, hcons, List.tail_cons,
    beq_iff_eq, List.append_cancel_right_eq, List.cons.injEq]
  exact and_iff_right rfl

theorem capitalize_thrice (w : Text) :
    capitalize (capitalize (capitalize w)) = capitalize (capitalize w) := by
  cases w with
  | nil => rfl
  | cons c w =>
    obtain ⟨d, ds, hcons, hd⟩ := upperLetter_eq_cons c
    rw [capitalize_capitalize_cons hcons, List.cons_append, capitalize, hd, List.flatMap_append,
      lowerLetter_lowerLetter, lowerLetter_lowerLetter]
    rfl

/-- Texts with the same white characters have the same title case if their pieces have. -/
theorem title_eq_iff {s t : Text} (h : s.filter isWhite = t.filter isWhite) : title s = title t ↔
    (splitWhen isWhite s).map capitalize = (splitWhen isWhite t).map capitalize := by
  rw [← splitWhen_title, ← splitWhen_title]
  constructor
  · intro heq
    rw [heq]
  · intro hpieces
    rw [← interleave_splitWhen isWhite (title s), ← interleave_splitWhen isWhite (title t), hpieces,
      filter_isWhite_title, filter_isWhite_title, h]

theorem title_title_iff (t : Text) : title (title t) = title t ↔
    ∀ w ∈ words t, ∀ c ∈ w.head?, singleCapital c = true := by
  rw [title_eq_iff (filter_isWhite_title t), splitWhen_title, List.map_map, List.map_inj_left]
  simp only [words, List.mem_filter, decide_eq_true_eq, and_imp, Function.comp_apply]
  refine forall₂_congr fun w _ => ?_
  cases w with
  | nil => simp [capitalize]
  | cons c w => simp [capitalize_twice_iff]

theorem title_title_title (t : Text) : title (title (title t)) = title (title t) := by
  rw [title_eq_iff (filter_isWhite_title (title t)), splitWhen_title, splitWhen_title]
  simp only [List.map_map]
  exact List.map_congr_left fun w _ => capitalize_thrice w

/-- Title case puts the first character of every word in upper case and the others in lower case, and
leaves white characters where they are. Applied a second time it changes the text if and only if some
word begins with a letter whose upper case has a further capital behind the first one; a third time it
changes nothing. -/
theorem title_settles (t : Text) (delimiter : Char) (store : Store) :
    ∃ once twice : Text,
      (Value.text t).invoke delimiter "title".toList [] store = (goOn (.text once), store) ∧
      (Value.text once).invoke delimiter "title".toList [] store = (goOn (.text twice), store) ∧
      (Value.text twice).invoke delimiter "title".toList [] store = (goOn (.text twice), store) ∧
      splitWhen isWhite once = (splitWhen isWhite t).map capitalize ∧
      once.filter isWhite = t.filter isWhite ∧
      (twice = once ↔ ∀ w ∈ words t, ∀ c ∈ w.head?, singleCapital c = true) := by
  refine ⟨title t, title (title t), rfl, rfl, ?_, splitWhen_title t, filter_isWhite_title t,
    title_title_iff t⟩
  have hrun : (Value.text (title (title t))).invoke delimiter "title".toList [] store =
      (goOn (.text (title (title (title t)))), store) := rfl
  rw [hrun, title_title_title]

/-- The upper case of `ß` is two capitals, the second of which is not the first letter of its word. -/
theorem title_changes_twice :
    (Value.text ['ß']).invoke ',' "title".toList [] [] = (goOn (.text ['S', 'S']), []) ∧
      (Value.text ['S', 'S']).invoke ',' "title".toList [] [] = (goOn (.text ['S', 's']), []) ∧
      ['S', 's'] ≠ ['S', 'S'] :=
  ⟨rfl, rfl, by decide⟩

end Text

end SeedChain
