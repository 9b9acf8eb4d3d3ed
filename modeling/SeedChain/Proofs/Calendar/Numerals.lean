import SeedChain.Proofs.Calendar.Reading
/-!
# Numbers of moments in text

What a pattern writes for a number is read back as this number: two digits, a year with its sign
(`takeYear?_yearText`), and a fraction of the second that is as long as it needs to be
(`takeFraction?_padLeft`).
-/

namespace SeedChain.Calendar

open Pattern

variable {ds t rest : Text} {n k : Nat} {y : Int} {f g : Fields} {p : Pattern} {c : Char}

/-! ## Two digits -/

/-- A number below 100 in two digits. -/
def two (n : Nat) : Text := twoDigits .zero n

theorem two_spec : ∀ n < 100, (two n).length = 2 ∧ (two n).all Char.isDigit = true ∧
    Text.digitsValue 0 (two n) = n := by decide

theorem length_two (h : n < 100) : (two n).length = 2 := (two_spec n h).1

theorem isDigit_of_mem_two (h : n < 100) (hc : c ∈ two n) : c.isDigit = true :=
  List.all_eq_true.1 (two_spec n h).2.1 c hc

theorem isNumeral_two (h : n < 100) : IsNumeral (two n) n :=
  ⟨fun _ => isDigit_of_mem_two h, List.ne_nil_of_length_pos (by rw [length_two h]; decide), (two_spec n h).2.2⟩

theorem readItems?_two {field : NumericField} (h : n < 100) (hset : f.setSmall n field = some g) (p : Pattern)
    (rest : Text) : readItems? (zeros field :: p) f (two n ++ rest) = readItems? p g rest :=
  readItems?_small (isNumeral_two h) (length_two h) hset p rest

/-- Two digits are a year as well, where no further ones stand behind them. -/
theorem readItems?_year_two (h : n < 100) (hend : EndsNumber rest) (p : Pattern) (f : Fields) :
    readItems? (zeros .year :: p) f (two n ++ rest) = readItems? p { f with year := n } rest := by
  have hnumeral := isNumeral_two h
  have hlength := length_two h
  refine readItems?_year (takeYear?_numeral hnumeral (by omega) (.inr hend)) ?_ p f
  obtain ⟨d, ds, heq, hd⟩ := hnumeral.exists_cons
  rw [heq]
  exact trimStart_of_isDigit hd _

/-- Two digits behind others. -/
theorem digitsValue_two (h : n < 100) (k : Nat) : Text.digitsValue k (two n) = k * 100 + n := by
  rw [Text.digitsValue_eq, length_two h, (isNumeral_two h).value]

/-! ## Years -/

theorem isNumeral_padLeft (width n : Nat) : IsNumeral (Text.padLeft width '0' (Text.ofNat n)) n := by
  refine ⟨fun _ => Text.isDigit_of_mem_padLeft, ?_, Text.digitsValue_padLeft width n⟩
  intro hnil
  exact Text.ofNat_ne_nil n (List.append_eq_nil_iff.1 hnil).2

/-- A year in four digits. -/
theorem yearText_of_mem (h : 0 ≤ y ∧ y ≤ 9999) :
    (yearText .zero y).length = 4 ∧ IsNumeral (yearText .zero y) y.toNat := by
  have hle : (Text.ofNat y.toNat).length ≤ 4 :=
    (Text.length_ofNat_le_iff (by decide)).2 (show y.toNat < 10000 by omega)
  have habs : y.natAbs = y.toNat := by omega
  have hnonneg : ¬ y < 0 := by omega
  by_cases hbig : 1000 ≤ y ∧ y ≤ 9999
  · have hlength : ¬ (Text.ofNat y.toNat).length ≤ 3 := by
      rw [Text.length_ofNat_le_iff (by decide)]
      exact Nat.not_lt.2 (show 1000 ≤ y.toNat by omega)
    rw [yearText, if_pos hbig, Text.ofInt, if_neg hnonneg, habs]
    exact ⟨by omega, fun _ => Text.isDigit_of_mem_ofNat, Text.ofNat_ne_nil _, Text.digitsValue_ofNat _⟩
  · have heq : yearText .zero y = Text.padLeft 4 '0' (Text.ofNat y.toNat) := by
      rw [yearText, if_neg hbig, if_pos h, padded, if_neg hnonneg, habs]
      rfl
    rw [heq, Text.length_padLeft]
    exact ⟨by omega, isNumeral_padLeft 4 y.toNat⟩

/-- A year with a sign in front. -/
theorem yearText_of_not_mem (h : ¬ (0 ≤ y ∧ y ≤ 9999)) : ∃ ds, IsNumeral ds y.natAbs ∧ 4 ≤ ds.length ∧
    yearText .zero y = (if y < 0 then '-' else '+') :: ds := by
  have hout : ¬ (1000 ≤ y ∧ y ≤ 9999) := by omega
  refine ⟨Text.padLeft 4 '0' (Text.ofNat y.natAbs), isNumeral_padLeft 4 _, ?_, ?_⟩
  · rw [Text.length_padLeft]
    omega
  · rw [yearText, if_neg hout, if_neg h, padded]
    split <;> rfl

theorem takeYear?_yearText (hend : (0 ≤ y ∧ y ≤ 9999) ∨ EndsNumber rest) :
    takeYear? (yearText .zero y ++ rest) = some (y, rest) := by
  by_cases hmem : 0 ≤ y ∧ y ≤ 9999
  · obtain ⟨hlength, hnumeral⟩ := yearText_of_mem hmem
    have hvalue : ((y.toNat : Nat) : Int) = y := Int.toNat_of_nonneg hmem.1
    rw [takeYear?_numeral hnumeral (Nat.le_of_eq hlength) (.inl hlength), hvalue]
  · obtain ⟨ds, hnumeral, -, heq⟩ := yearText_of_not_mem hmem
    have hrest := hend.resolve_left hmem
    rw [heq, List.cons_append]
    by_cases hneg : y < 0
    · have hvalue : -(y.natAbs : Int) = y := by omega
      rw [if_pos hneg, takeYear?_minus hnumeral hrest, hvalue]
    · have hvalue : (y.natAbs : Int) = y := by omega
      rw [if_neg hneg, takeYear?_plus hnumeral hrest, hvalue]

/-- A year begins with a digit or a sign. -/
theorem exists_yearText_eq (y : Int) :
    ∃ c t, yearText .zero y = c :: t ∧ (c.isDigit = true ∨ c = '+' ∨ c = '-') := by
  by_cases hmem : 0 ≤ y ∧ y ≤ 9999
  · obtain ⟨d, ds, heq, hd⟩ := (yearText_of_mem hmem).2.exists_cons
    exact ⟨d, ds, heq, .inl hd⟩
  · obtain ⟨ds, -, -, heq⟩ := yearText_of_not_mem hmem
    refine ⟨_, ds, heq, ?_⟩
    split
    · exact .inr (.inr rfl)
    · exact .inr (.inl rfl)

theorem trimStart_yearText (y : Int) (rest : Text) :
    Text.trimStart (yearText .zero y ++ rest) = yearText .zero y ++ rest := by
  obtain ⟨c, t, heq, hc⟩ := exists_yearText_eq y
  have hwhite : Text.isWhite c = false := by
    rcases hc with hc | rfl | rfl
    · exact Text.isWhite_of_isDigit hc
    · decide
    · decide
  rw [heq]
  exact trimStart_of_head fun _ hd => Option.some.inj hd ▸ hwhite

theorem readItems?_yearText (hend : (0 ≤ y ∧ y ≤ 9999) ∨ EndsNumber rest) (p : Pattern) (f : Fields) :
    readItems? (zeros .year :: p) f (yearText .zero y ++ rest) = readItems? p { f with year := y } rest :=
  readItems?_year (takeYear?_yearText hend) (trimStart_yearText y rest) p f

/-- A year is no month behind which a slash stands: it has more digits, or a sign. -/
theorem readItems?_month_yearText (y : Int) (rest : Text) (p : Pattern) (f : Fields) :
    readItems? (zeros .month :: sign '/' :: p) f (yearText .zero y ++ rest) = none := by
  by_cases hmem : 0 ≤ y ∧ y ≤ 9999
  · obtain ⟨hlength, hnumeral⟩ := yearText_of_mem hmem
    obtain ⟨ds, ds', heq, htwo, hds, hds'⟩ :=
      exists_cut_digits hnumeral.digits (by decide : 0 < 2) (by omega)
    have hne : ds' ≠ [] := by
      rintro rfl
      rw [heq, List.append_nil] at hlength
      omega
    obtain ⟨d, ds', rfl⟩ := List.exists_cons_of_ne_nil hne
    have hd : d ≠ '/' := ne_of_isDigit (hds' d List.mem_cons_self) rfl
    rw [heq, List.append_assoc, readItems?_small hds htwo rfl, List.cons_append,
      readItems?_sign_ne fun _ he => Option.some.inj he ▸ hd]
  · obtain ⟨ds, -, -, heq⟩ := yearText_of_not_mem hmem
    rw [heq]
    refine readItems?_small_of_head (by decide) ?_ _ f (ds ++ rest)
    split <;> decide

/-! ## Fractions -/

/-- The fraction of a second behind its point, in three, six or nine digits; nothing when it is zero. -/
def fractionText (nanos : Nat) : Text :=
  if nanos = 0 then []
  else if nanos % 1000000 = 0 then '.' :: Text.padLeft 3 '0' (Text.ofNat (nanos / 1000000))
  else if nanos % 1000 = 0 then '.' :: Text.padLeft 6 '0' (Text.ofNat (nanos / 1000))
  else '.' :: Text.padLeft 9 '0' (Text.ofNat nanos)

/-- A fraction in fewer than nine digits, if the others are zeros. -/
theorem takeFraction?_padLeft (hpos : 0 < k) (hle : k ≤ 9) (hn : n < Nat.pow 10 k) :
    takeFraction? (Text.padLeft k '0' (Text.ofNat n)) = some (n * Nat.pow 10 (9 - k), []) := by
  have hnumeral := isNumeral_padLeft k n
  have hshort := (Text.length_ofNat_le_iff hpos).2 hn
  have hlength : (Text.padLeft k '0' (Text.ofNat n)).length = k := by
    rw [Text.length_padLeft]
    omega
  have hdigits := takeWhile_digits hnumeral.digits endsNumber_nil
  have hrest := dropWhile_digits hnumeral.digits endsNumber_nil
  rw [List.append_nil] at hdigits hrest
  simp only [takeFraction?, hdigits, hrest, hnumeral.ne_nil, if_false]
  rw [List.take_of_length_le (by omega), hnumeral.value, hlength]

theorem fractionText_cases (hn : n < 1000000000) : n = 0 ∧ fractionText n = [] ∨
    ∃ t, fractionText n = '.' :: t ∧ takeFraction? t = some (n, []) := by
  unfold fractionText
  split
  · rename_i hzero
    exact .inl ⟨hzero, rfl⟩
  · right
    split
    · have hvalue : n / 1000000 * 1000000 = n := by omega
      have hlt : n / 1000000 < 1000 := by omega
      refine ⟨_, rfl, ?_⟩
      rw [takeFraction?_padLeft (by decide) (by decide) hlt]
      exact congrArg (fun n => some (n, [])) hvalue
    · split
      · have hvalue : n / 1000 * 1000 = n := by omega
        have hlt : n / 1000 < 1000000 := by omega
        refine ⟨_, rfl, ?_⟩
        rw [takeFraction?_padLeft (by decide) (by decide) hlt]
        exact congrArg (fun n => some (n, [])) hvalue
      · refine ⟨_, rfl, ?_⟩
        rw [takeFraction?_padLeft (by decide) (by decide) hn]
        exact congrArg (fun n => some (n, [])) (Nat.mul_one n)

theorem readItem?_fractionText (hn : n < 1000000000) (f : Fields) (hf : f.nanos = 0) :
    readItem? f (fractionText n) .fraction = some ({ f with nanos := n }, []) := by
  rcases fractionText_cases hn with ⟨rfl, heq⟩ | ⟨t, heq, htake⟩
  · rw [heq, ← hf]
    rfl
  · simp only [heq, readItem?, htake, Option.map_some]

end SeedChain.Calendar
