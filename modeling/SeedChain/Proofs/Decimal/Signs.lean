import SeedChain.Decimal.Literal
import SeedChain.Proofs.Properties.Lines
/-!
# Signs of number literals

A literal is read by two readers, one for plain literals and one for exponents, once a plus sign in front
of it is gone. Each of them takes one sign itself (`readUnmarked?_plus`, `readUnmarked?_of_two_signs`), so
a plus sign may stand in front of a literal that has its own sign, and changes nothing there.

Main result: `read_with_signs`.
-/

namespace SeedChain.Decimal

variable {t u : Text} {c : Char}

def IsSign (c : Char) : Prop := c = '+' ∨ c = '-'

/-- The text begins with a sign. -/
def Signed (t : Text) : Prop := ∃ c ∈ t.head?, IsSign c

/-- One sign or none, and behind it a text that does not begin with a sign. -/
def SignedOnce (t : Text) : Prop :=
  ∃ sign ∈ [[], ['+'], ['-']], ∃ rest, t = sign ++ rest ∧ ¬ Signed rest

theorem signed_cons_iff : Signed (c :: t) ↔ IsSign c := by
  simp [Signed]

theorem signedOnce_of_not_signed (h : ¬ Signed t) : SignedOnce t :=
  ⟨[], by simp, t, rfl, h⟩

theorem signedOnce_cons_iff (hc : IsSign c) : SignedOnce (c :: t) ↔ ¬ Signed t := by
  constructor
  · rintro ⟨sign, hsign, rest, heq, hrest⟩
    simp only [List.mem_cons, List.not_mem_nil, or_false] at hsign
    rcases hsign with rfl | rfl | rfl
    · obtain rfl : c :: t = rest := heq
      exact absurd (signed_cons_iff.2 hc) hrest
    · obtain ⟨-, rfl⟩ := List.cons.inj heq
      exact hrest
    · obtain ⟨-, rfl⟩ := List.cons.inj heq
      exact hrest
  · intro h
    rcases hc with rfl | rfl
    · exact ⟨['+'], by simp, t, rfl, h⟩
    · exact ⟨['-'], by simp, t, rfl, h⟩

theorem signedOnce_of_behind (h : ∀ c rest, t = c :: rest → IsSign c → ¬ Signed rest) : SignedOnce t := by
  cases t with
  | nil => exact signedOnce_of_not_signed nofun
  | cons c t =>
    by_cases hc : IsSign c
    · exact (signedOnce_cons_iff hc).2 (h c t rfl hc)
    · exact signedOnce_of_not_signed (mt signed_cons_iff.1 hc)

/-! ## Plain literals -/

theorem readDigits_sign (hc : IsSign c) (t : Text) : readDigits 0 0 false false (c :: t) = none := by
  rcases hc with rfl | rfl <;> rfl

theorem readDigits_of_signed (h : Signed t) : readDigits 0 0 false false t = none := by
  cases t with
  | nil => rfl
  | cons c t => exact readDigits_sign (signed_cons_iff.1 h) t

/-- Without a sign in front the text is read as digits. -/
theorem readPlain?_of_not_signed (h : ¬ Signed t) :
    readPlain? t = (readDigits 0 0 false false t).bind fun parts => ofParts? false parts.1 parts.2 := by
  unfold readPlain?
  split
  rename_i negative digits heq
  split at heq
  · exact absurd (signed_cons_iff.2 (.inr rfl)) h
  · exact absurd (signed_cons_iff.2 (.inl rfl)) h
  · obtain ⟨rfl, rfl⟩ := Prod.mk.inj heq
    rfl

theorem readPlain?_minus (t : Text) : readPlain? ('-' :: t) =
    (readDigits 0 0 false false t).bind fun parts => ofParts? true parts.1 parts.2 := rfl

theorem readPlain?_plus (h : ¬ Signed t) : readPlain? ('+' :: t) = readPlain? t := by
  rw [readPlain?_of_not_signed h]
  rfl

theorem readPlain?_of_two_signs (hc : IsSign c) (h : Signed t) : readPlain? (c :: t) = none := by
  have hdigits := readDigits_of_signed h
  rcases hc with rfl | rfl <;> simp only [readPlain?, hdigits, Option.bind_none]

/-! ## Literals with an exponent -/

/-- The characters in front of the exponent. -/
def inBase (c : Char) : Bool := !(c == 'e' || c == 'E')

theorem readScientific?_congr (hbase : readPlain? (t.takeWhile inBase) = readPlain? (u.takeWhile inBase))
    (hexponent : t.dropWhile inBase = u.dropWhile inBase) : readScientific? t = readScientific? u := by
  unfold inBase at hbase hexponent
  simp only [readScientific?, hbase, hexponent]

theorem readScientific?_of_base (h : readPlain? (t.takeWhile inBase) = none) :
    readScientific? t = none := by
  unfold inBase at h
  simp only [readScientific?, h]
  rfl

theorem inBase_of_isSign (hc : IsSign c) : inBase c = true := by
  rcases hc with rfl | rfl <;> rfl

theorem signed_takeWhile_iff : Signed (t.takeWhile inBase) ↔ Signed t := by
  cases t with
  | nil => rfl
  | cons c t =>
    by_cases hc : inBase c = true
    · rw [List.takeWhile_cons_of_pos hc, signed_cons_iff, signed_cons_iff]
    · rw [List.takeWhile_cons_of_neg hc, signed_cons_iff]
      exact iff_of_false nofun fun hsign => hc (inBase_of_isSign hsign)

theorem readScientific?_plus (h : ¬ Signed t) : readScientific? ('+' :: t) = readScientific? t := by
  have hplus : inBase '+' = true := rfl
  refine readScientific?_congr ?_ (List.dropWhile_cons_of_pos hplus)
  rw [List.takeWhile_cons_of_pos hplus, readPlain?_plus (mt signed_takeWhile_iff.1 h)]

theorem readScientific?_of_two_signs (hc : IsSign c) (h : Signed t) : readScientific? (c :: t) = none := by
  refine readScientific?_of_base ?_
  rw [List.takeWhile_cons_of_pos (inBase_of_isSign hc)]
  exact readPlain?_of_two_signs hc (signed_takeWhile_iff.2 h)

/-! ## Both readers -/

/-- What is read once a plus sign in front is gone. -/
def readUnmarked? (t : Text) : Option Decimal := readPlain? t <|> readScientific? t

theorem readUnmarked?_plus (h : ¬ Signed t) : readUnmarked? ('+' :: t) = readUnmarked? t := by
  rw [readUnmarked?, readPlain?_plus h, readScientific?_plus h, readUnmarked?]

theorem readUnmarked?_of_two_signs (hc : IsSign c) (h : Signed t) : readUnmarked? (c :: t) = none := by
  rw [readUnmarked?, readPlain?_of_two_signs hc h, readScientific?_of_two_signs hc h]
  rfl

theorem signedOnce_of_readUnmarked? {d : Decimal} (h : readUnmarked? t = some d) : SignedOnce t := by
  refine signedOnce_of_behind ?_
  rintro c rest rfl hc hrest
  rw [readUnmarked?_of_two_signs hc hrest] at h
  cases h

/-- The text without a plus sign in front. -/
def withoutPlus : Text → Text
  | '+' :: t => t
  | t => t

theorem readUnmarked?_withoutPlus (h : SignedOnce t) :
    readUnmarked? (withoutPlus t) = readUnmarked? t := by
  unfold withoutPlus
  split
  · rw [readUnmarked?_plus ((signedOnce_cons_iff (.inl rfl)).1 h)]
  · rfl

theorem read_ok_iff {d : Decimal} : read t = .ok d ↔ readUnmarked? (withoutPlus t.trim) = some d := by
  simp only [read]
  by_cases hblank : t.trim = []
  · rw [hblank, if_pos rfl]
    exact ⟨nofun, nofun⟩
  · rw [if_neg hblank]
    split
    · rename_i e he
      have hread : readUnmarked? (withoutPlus t.trim) = some e := he
      rw [hread, Except.ok.injEq, Option.some.injEq]
    · rename_i hnone
      have hread : readUnmarked? (withoutPlus t.trim) = none := hnone
      rw [hread]
      exact ⟨nofun, nofun⟩

theorem read_ok_iff_of_signedOnce {d : Decimal} (h : SignedOnce t.trim) :
    read t = .ok d ↔ readUnmarked? t.trim = some d := by
  rw [read_ok_iff, readUnmarked?_withoutPlus h]

/-! ## Signs that are accepted -/

theorem not_white_of_isSign (hc : IsSign c) : Text.isWhite c = false := by
  rcases hc with rfl | rfl <;> rfl

theorem trim_of_signed (h : Signed t) : t.trim = t.trimEnd := by
  cases t with
  | nil => rfl
  | cons c t =>
    have hc := not_white_of_isSign (signed_cons_iff.1 h)
    rw [Text.trim, Text.trimStart, List.dropWhile_cons_of_neg (by simp [hc])]

/-- An accepted literal has one sign or none, or it is a plus sign and an accepted literal with a sign of
its own. A plus sign in front of a literal with a sign is accepted exactly if the literal is accepted and
has no other sign, and it changes nothing. -/
theorem read_with_signs (t : Text) :
    (∀ d, read t = .ok d → SignedOnce t.trim ∨
      ∃ u, t.trim = '+' :: u ∧ Signed u ∧ SignedOnce u ∧ read u = .ok d) ∧
    (Signed t → ∀ d, read ('+' :: t) = .ok d ↔ SignedOnce t.trim ∧ read t = .ok d) := by
  constructor
  · intro d h
    rw [read_ok_iff] at h
    unfold withoutPlus at h
    split at h
    · rename_i u hu
      have honce := signedOnce_of_readUnmarked? h
      by_cases hsigned : Signed u
      · have hend : Text.trimEnd u = u := by
          have hagain := Text.trim_trim t
          rw [hu, Text.trim_cons rfl] at hagain
          exact (List.cons.inj hagain).2
        have htrim : Text.trim u = u := (trim_of_signed hsigned).trans hend
        rw [← htrim] at honce h
        exact .inr ⟨u, hu, hsigned, htrim ▸ honce, (read_ok_iff_of_signedOnce honce).2 h⟩
      · left
        rw [hu]
        exact (signedOnce_cons_iff (.inl rfl)).2 hsigned
    · exact .inl (signedOnce_of_readUnmarked? h)
  · intro hsigned d
    have htrim : Text.trim ('+' :: t) = '+' :: t.trim := by
      rw [Text.trim_cons rfl, trim_of_signed hsigned]
    rw [read_ok_iff, htrim]
    constructor
    · intro h
      have honce := signedOnce_of_readUnmarked? h
      exact ⟨honce, (read_ok_iff_of_signedOnce honce).2 h⟩
    · rintro ⟨honce, h⟩
      exact (read_ok_iff_of_signedOnce honce).1 h

/-- A plus sign in front of a negative literal with an exponent. -/
theorem read_with_signs_negative :
    let t : Text := ['-', '5', 'e', '1', ' ']
    let d : Decimal := ⟨true, 50, 0, by decide, by decide⟩
    Signed t ∧ SignedOnce t.trim ∧ read t = .ok d ∧ read ('+' :: t) = .ok d ∧
      ∃ u, Text.trim ('+' :: t) = '+' :: u ∧ Signed u ∧ SignedOnce u ∧ read u = .ok d := by
  intro t d
  have hsigned : Signed t := ⟨'-', rfl, .inr rfl⟩
  have honce : SignedOnce t.trim :=
    (signedOnce_cons_iff (.inr rfl)).2 (mt signed_cons_iff.1 (by unfold IsSign; decide))
  have hread : read t = .ok d := by decide
  have htwo : ¬ SignedOnce (Text.trim ('+' :: t)) :=
    fun h => (signedOnce_cons_iff (.inl rfl)).1 h ⟨'-', rfl, .inr rfl⟩
  have hplus := ((read_with_signs t).2 hsigned d).2 ⟨honce, hread⟩
  exact ⟨hsigned, honce, hread, hplus, ((read_with_signs ('+' :: t)).1 d hplus).resolve_left htwo⟩

end SeedChain.Decimal
