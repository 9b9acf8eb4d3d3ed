import Mathlib.Tactic.Common
import SeedChain.Calendar.Reader
/-!
# Reading moments by patterns

A number field takes the digits at the head of a text, as many as it may (`takeNumber?_numeral`), and what
is left is read by the items behind it (`readItems?`). Texts of digits are too long for every pattern, or
their sign takes all of the digits for the year (`readMoment?_of_digits`, `readMoment?_of_sign`), so they
are counts of milliseconds (`read_of_epoch`).
-/

namespace SeedChain.Calendar

open Pattern

variable {ds t rest : Text} {n most k : Nat} {y : Int} {f g : Fields} {p : Pattern} {c : Char}

/-! ## Numerals -/

/-- Digits, at least one, and the number they denote. -/
structure IsNumeral (ds : Text) (n : Nat) : Prop where
  digits : ∀ c ∈ ds, c.isDigit = true
  ne_nil : ds ≠ []
  value : Text.digitsValue 0 ds = n

/-- No digit stands at the head. -/
def EndsNumber (t : Text) : Prop := ∀ c ∈ t.head?, c.isDigit = false

theorem endsNumber_nil : EndsNumber [] := nofun

theorem endsNumber_cons : EndsNumber (c :: t) ↔ c.isDigit = false := by
  simp [EndsNumber]

theorem EndsNumber.take (h : EndsNumber t) (k : Nat) : EndsNumber (t.take k) := by
  intro c hc
  rw [List.head?_take] at hc
  split at hc
  · cases hc
  · exact h c hc

theorem EndsNumber.takeWhile_eq (h : EndsNumber t) : t.takeWhile Char.isDigit = [] := by
  cases t with
  | nil => rfl
  | cons c t => exact List.takeWhile_cons_of_neg (by simp [endsNumber_cons.1 h])

theorem EndsNumber.dropWhile_eq (h : EndsNumber t) : t.dropWhile Char.isDigit = t := by
  cases t with
  | nil => rfl
  | cons c t => exact List.dropWhile_cons_of_neg (by simp [endsNumber_cons.1 h])

theorem takeWhile_digits (hdigits : ∀ c ∈ ds, c.isDigit = true) (hend : EndsNumber rest) :
    (ds ++ rest).takeWhile Char.isDigit = ds := by
  rw [List.takeWhile_append_of_pos hdigits, hend.takeWhile_eq, List.append_nil]

theorem dropWhile_digits (hdigits : ∀ c ∈ ds, c.isDigit = true) (hend : EndsNumber rest) :
    (ds ++ rest).dropWhile Char.isDigit = rest := by
  rw [List.dropWhile_append_of_pos hdigits, hend.dropWhile_eq]

/-- A number is taken that is as long as it may be, or ends where it does. -/
theorem takeNumber?_numeral (h : IsNumeral ds n) (hle : ds.length ≤ most)
    (hend : ds.length = most ∨ EndsNumber rest) : takeNumber? most (ds ++ rest) = some (n, rest) := by
  have hrest : EndsNumber (rest.take (most - ds.length)) := by
    rcases hend with rfl | hend
    · rw [Nat.sub_self, List.take_zero]
      exact endsNumber_nil
    · exact hend.take _
  have hdigits : ((ds ++ rest).take most).takeWhile Char.isDigit = ds := by
    rw [List.take_append, List.take_of_length_le hle]
    exact takeWhile_digits h.digits hrest
  simp [takeNumber?, hdigits, h.ne_nil, h.value]

theorem takeNumber?_of_ends (h : EndsNumber t) (most : Nat) : takeNumber? most t = none := by
  simp [takeNumber?, (h.take most).takeWhile_eq]

theorem IsNumeral.exists_cons (h : IsNumeral ds n) :
    ∃ d ds', ds = d :: ds' ∧ d.isDigit = true := by
  obtain ⟨d, ds', rfl⟩ := List.exists_cons_of_ne_nil h.ne_nil
  exact ⟨d, ds', rfl, h.digits d (by simp)⟩

theorem ne_of_isDigit {d : Char} (hd : d.isDigit = true) (hc : c.isDigit = false) : d ≠ c := by
  rintro rfl
  rw [hd] at hc
  cases hc

theorem takeYear?_numeral (h : IsNumeral ds n) (hle : ds.length ≤ 4)
    (hend : ds.length = 4 ∨ EndsNumber rest) : takeYear? (ds ++ rest) = some ((n : Int), rest) := by
  have htake := takeNumber?_numeral h hle hend
  obtain ⟨d, ds', rfl, hd⟩ := h.exists_cons
  have hminus : d ≠ '-' := ne_of_isDigit hd rfl
  have hplus : d ≠ '+' := ne_of_isDigit hd rfl
  rw [List.cons_append] at htake ⊢
  unfold takeYear?
  split
  · rename_i heq
    exact absurd (List.cons.inj heq).1 hminus
  · rename_i heq
    exact absurd (List.cons.inj heq).1 hplus
  · rw [htake]
    rfl

theorem takeYear?_minus (h : IsNumeral ds n) (hend : EndsNumber rest) :
    takeYear? ('-' :: (ds ++ rest)) = some (-(n : Int), rest) := by
  rw [takeYear?, takeNumber?_numeral h (by simp) (.inr hend)]
  rfl

theorem takeYear?_plus (h : IsNumeral ds n) (hend : EndsNumber rest) :
    takeYear? ('+' :: (ds ++ rest)) = some ((n : Int), rest) := by
  rw [takeYear?, takeNumber?_numeral h (by simp) (.inr hend)]
  rfl

/-! ## Items -/

/-- Reads the items of a pattern one after the other. -/
def readItems? (p : Pattern) (f : Fields) (t : Text) : Option (Fields × Text) :=
  p.foldlM (fun (f, t) item => readItem? f t item) (f, t)

theorem readItems?_nil (f : Fields) (t : Text) : readItems? [] f t = some (f, t) := rfl

theorem readItems?_cons (item : PatternItem) (p : Pattern) (f : Fields) (t : Text) :
    readItems? (item :: p) f t =
      (readItem? f t item).bind fun parts => readItems? p parts.1 parts.2 := rfl

theorem readMoment?_eq (p : Pattern) (t : Text) : p.readMoment? t =
    (readItems? p {} t).bind fun parts => if parts.2 = [] then parts.1.moment? else none := rfl

theorem readItems?_sign (c : Char) (p : Pattern) (f : Fields) (t : Text) :
    readItems? (sign c :: p) f (c :: t) = readItems? p f t := by
  have hprefix : [c].isPrefixOf? (c :: t) = some t := Text.isPrefixOf?_append [c] t
  simp only [readItems?_cons, readItem?, sign, hprefix, Option.map_some, Option.bind_some]

theorem readItems?_sign_ne (h : ∀ d ∈ t.head?, d ≠ c) (p : Pattern) (f : Fields) :
    readItems? (sign c :: p) f t = none := by
  have hprefix : [c].isPrefixOf? t = none := by
    rw [Text.isPrefixOf?_eq_none_iff]
    rintro ⟨rest, rfl⟩
    exact h c rfl rfl
  simp only [readItems?_cons, readItem?, sign, hprefix, Option.map_none, Option.bind_none]

theorem trimStart_of_head (h : ∀ c ∈ t.head?, Text.isWhite c = false) : t.trimStart = t := by
  cases t with
  | nil => rfl
  | cons c t => exact List.dropWhile_cons_of_neg (by simp [h c rfl])

theorem trimStart_of_isDigit (h : c.isDigit = true) (t : Text) :
    Text.trimStart (c :: t) = c :: t :=
  trimStart_of_head fun _ hd => Option.some.inj hd ▸ Text.isWhite_of_isDigit h

theorem readItems?_year (h : takeYear? t = some (y, rest)) (htrim : t.trimStart = t) (p : Pattern)
    (f : Fields) :
    readItems? (zeros .year :: p) f t = readItems? p { f with year := y } rest := by
  simp only [readItems?_cons, readItem?, zeros, readNumber?, htrim, h, Option.map_some,
    Option.bind_some]

/-- The fields with one number of two digits replaced. -/
def Fields.setSmall (f : Fields) (n : Nat) : NumericField → Option Fields
  | .month => some { f with month := n }
  | .day => some { f with day := n }
  | .hour => some { f with hour := n }
  | .minute => some { f with minute := n }
  | .second => some { f with second := n }
  | _ => none

theorem readNumber?_small {field : NumericField} (hfield : field ≠ .year) (f : Fields) (t : Text) :
    readNumber? field f t =
      (takeNumber? 2 t.trimStart).bind fun parts => (f.setSmall parts.1 field).map (·, parts.2) := by
  cases field with
  | year => exact absurd rfl hfield
  | month | day | hour | minute | second =>
    simp only [readNumber?, Fields.setSmall]
    cases takeNumber? 2 t.trimStart <;> rfl
  | _ =>
    simp only [readNumber?, Fields.setSmall]
    cases takeNumber? 2 t.trimStart <;> rfl

theorem readItems?_small {field : NumericField} (h : IsNumeral ds n) (hlength : ds.length = 2)
    (hset : f.setSmall n field = some g) (p : Pattern) (rest : Text) :
    readItems? (zeros field :: p) f (ds ++ rest) = readItems? p g rest := by
  have hfield : field ≠ .year := by
    rintro rfl
    cases hset
  have htrim : Text.trimStart (ds ++ rest) = ds ++ rest := by
    obtain ⟨d, ds', rfl, hd⟩ := h.exists_cons
    exact trimStart_of_isDigit hd _
  simp only [readItems?_cons, readItem?, zeros, readNumber?_small hfield, htrim,
    takeNumber?_numeral h (Nat.le_of_eq hlength) (.inl hlength), Option.bind_some, hset, Option.map_some]

theorem readItems?_small_of_ends {field : NumericField} (hfield : field ≠ .year)
    (h : EndsNumber t.trimStart) (p : Pattern) (f : Fields) :
    readItems? (zeros field :: p) f t = none := by
  simp only [readItems?_cons, readItem?, zeros, readNumber?_small hfield, takeNumber?_of_ends h,
    Option.bind_none]

theorem readItems?_small_of_head {field : NumericField} (hfield : field ≠ .year)
    (hc : Text.isWhite c = false ∧ c.isDigit = false) (p : Pattern) (f : Fields) (t : Text) :
    readItems? (zeros field :: p) f (c :: t) = none := by
  have htrim : Text.trimStart (c :: t) = c :: t :=
    trimStart_of_head fun _ hd => Option.some.inj hd ▸ hc.1
  have hends : EndsNumber (Text.trimStart (c :: t)) := by
    rw [htrim]
    exact endsNumber_cons.2 hc.2
  exact readItems?_small_of_ends hfield hends p f

/-! ## The forms of a moment -/

/-- A date without anything between its numbers. -/
def compactPattern : Pattern := [zeros .year, zeros .month, zeros .day]

/-- A pattern begins with a year and a hyphen or with a month and a slash, or it is the compact one. -/
theorem readingPatterns_cases (h : p ∈ readingPatterns) :
    (∃ q, p = zeros .year :: sign '-' :: q) ∨ (∃ q, p = zeros .month :: sign '/' :: q) ∨
      p = compactPattern := by
  simp only [readingPatterns, List.mem_cons, List.not_mem_nil, or_false] at h
  rcases h with rfl | rfl | rfl | rfl | rfl | rfl | rfl | rfl | rfl
  · exact .inl ⟨_, rfl⟩
  · exact .inl ⟨_, rfl⟩
  · exact .inl ⟨_, rfl⟩
  · exact .inl ⟨_, rfl⟩
  · exact .inr (.inl ⟨_, rfl⟩)
  · exact .inr (.inl ⟨_, rfl⟩)
  · exact .inl ⟨_, rfl⟩
  · exact .inr (.inl ⟨_, rfl⟩)
  · exact .inr (.inr rfl)

theorem toLower_of_isDigit (h : c.isDigit = true) : c.toLower = c := by
  simp only [Char.isDigit, Bool.and_eq_true, decide_eq_true_eq, UInt32.le_iff_toNat_le] at h
  have hhigh : c.val.toNat ≤ 57 := h.2
  unfold Char.toLower
  refine dif_neg ?_
  rintro ⟨hletter, -⟩
  have hlow : 65 ≤ c.val.toNat := UInt32.le_iff_toNat_le.1 hletter
  omega

theorem readClock?_of_ne_words (hnow : Text.asciiLower t ≠ "now".toList)
    (htoday : Text.asciiLower t ≠ "today".toList) (clock : Option Moment) : readClock? clock t = none := by
  cases clock with
  | none => rfl
  | some now =>
    simp only [readClock?, Option.bind_eq_bind, Option.bind_some]
    rw [if_neg hnow, if_neg htoday]

/-- Words of the clock begin with a letter. -/
theorem readClock?_of_head (h : c.isDigit = true ∨ c = '+' ∨ c = '-') (clock : Option Moment) (t : Text) :
    readClock? clock (c :: t) = none := by
  have hlower : c.toLower ≠ 'n' ∧ c.toLower ≠ 't' := by
    rcases h with h | rfl | rfl
    · rw [toLower_of_isDigit h]
      exact ⟨ne_of_isDigit h rfl, ne_of_isDigit h rfl⟩
    · decide
    · decide
  have hnow : Text.asciiLower (c :: t) ≠ "now".toList := fun heq => hlower.1 (List.cons.inj heq).1
  have htoday : Text.asciiLower (c :: t) ≠ "today".toList := fun heq => hlower.2 (List.cons.inj heq).1
  exact readClock?_of_ne_words hnow htoday clock

theorem readTimestamp?_of_digits (h : ¬ ∀ c ∈ t.take 4, c.isDigit = true) : readTimestamp? t = none := by
  have hall : ¬ ((t.take 4).length = 4 ∧ (t.take 4).all Char.isDigit = true) := by
    rw [List.all_eq_true]
    exact fun hboth => h hboth.2
  have htake : takeDigits? 4 t = none := if_neg hall
  simp only [readTimestamp?, htake, Option.bind_eq_bind, Option.bind_none]

theorem takeSign?_eq_none {signs : List Char} (h : ∀ c ∈ t.head?, c ∉ signs) : takeSign? signs t = none := by
  cases t with
  | nil => rfl
  | cons c t => exact if_neg (h c rfl)

/-- A timestamp has a hyphen behind the digits of its year. -/
theorem readTimestamp?_of_hyphen (h : ∀ c ∈ (t.drop 4).head?, c ≠ '-') : readTimestamp? t = none := by
  have hsign : takeSign? ['-'] (t.drop 4) = none := takeSign?_eq_none (by simpa using h)
  by_cases hdigits : ∀ c ∈ t.take 4, c.isDigit = true
  · simp only [readTimestamp?, takeDigits?]
    split
    · simp only [Option.bind_eq_bind, Option.bind_some, hsign, Option.bind_none]
    · rfl
  · exact readTimestamp?_of_digits hdigits

/-- What is read by no pattern is a count of milliseconds or nothing. -/
theorem read_of_unread {clock : Option Moment} (hclock : readClock? clock t.trim = none)
    (hstamp : readTimestamp? t.trim = none)
    (hpatterns : ∀ p ∈ readingPatterns, p.readMoment? t.trim = none) :
    read clock t = if isEpoch t.trim then
        match (Text.integer? t.trim).bind Moment.ofEpoch? with
        | some moment => .ok (moment, plainPattern)
        | none => .error (.epochOutOfRange t.trim)
      else .error (.notADate t.trim) := by
  have hfind : (readingPatterns.findSome? fun pattern =>
      (pattern.readMoment? t.trim).map (·, pattern)) = none := by
    rw [List.findSome?_eq_none_iff]
    intro p hp
    rw [hpatterns p hp]
    rfl
  simp only [read, hclock, hstamp, hfind, Option.map_none]
  rfl

/-! ## Digits alone -/

theorem isNumeral_of_digits (h : ∀ c ∈ ds, c.isDigit = true) (hne : ds ≠ []) :
    IsNumeral ds (Text.digitsValue 0 ds) := ⟨h, hne, rfl⟩

/-- Digits are cut wherever they are long enough. -/
theorem exists_cut_digits (h : ∀ c ∈ t, c.isDigit = true) (hpos : 0 < k) (hlength : k ≤ t.length) :
    ∃ ds rest, t = ds ++ rest ∧ ds.length = k ∧ IsNumeral ds (Text.digitsValue 0 ds) ∧
      ∀ c ∈ rest, c.isDigit = true := by
  have hk : (t.take k).length = k := by
    rw [List.length_take]
    omega
  refine ⟨t.take k, t.drop k, (List.take_append_drop k t).symm, hk, isNumeral_of_digits ?_ ?_, ?_⟩
  · exact fun c hc => h c (List.mem_of_mem_take hc)
  · exact List.ne_nil_of_length_pos (by omega)
  · exact fun c hc => h c (List.mem_of_mem_drop hc)

theorem ne_of_mem_head? (h : ∀ d ∈ t, d.isDigit = true) (hc : c.isDigit = false) :
    ∀ d ∈ t.head?, d ≠ c :=
  fun d hd => ne_of_isDigit (h d (List.mem_of_mem_head? hd)) hc

theorem trimStart_of_digits (h : ∀ c ∈ t, c.isDigit = true) : t.trimStart = t :=
  trimStart_of_head fun c hc => Text.isWhite_of_isDigit (h c (List.mem_of_mem_head? hc))

/-- Too many digits are read by no pattern. -/
theorem readMoment?_of_digits (h : ∀ c ∈ t, c.isDigit = true) (hlength : 8 < t.length)
    (hp : p ∈ readingPatterns) : p.readMoment? t = none := by
  rw [readMoment?_eq]
  rcases readingPatterns_cases hp with ⟨q, rfl⟩ | ⟨q, rfl⟩ | rfl
  · obtain ⟨ds, rest, rfl, hfour, hds, hrest⟩ := exists_cut_digits h (by decide : 0 < 4) (by omega)
    have hyear := takeYear?_numeral hds (Nat.le_of_eq hfour) (.inl hfour : _ ∨ EndsNumber rest)
    rw [readItems?_year hyear (trimStart_of_digits h),
      readItems?_sign_ne (ne_of_mem_head? hrest rfl), Option.bind_none]
  · obtain ⟨ds, rest, rfl, htwo, hds, hrest⟩ := exists_cut_digits h (by decide : 0 < 2) (by omega)
    rw [readItems?_small hds htwo rfl, readItems?_sign_ne (ne_of_mem_head? hrest rfl),
      Option.bind_none]
  · -- eight digits are taken, and what is left is not empty
    obtain ⟨year, t', rfl, hfour, hyear, ht'⟩ := exists_cut_digits h (by decide : 0 < 4) (by omega)
    rw [List.length_append, hfour] at hlength
    obtain ⟨month, t'', rfl, hmonthTwo, hmonth, ht''⟩ :=
      exists_cut_digits ht' (by decide : 0 < 2) (by omega)
    rw [List.length_append, hmonthTwo] at hlength
    obtain ⟨day, rest, rfl, hdayTwo, hday, -⟩ :=
      exists_cut_digits ht'' (by decide : 0 < 2) (by omega)
    rw [List.length_append, hdayTwo] at hlength
    have hne : rest ≠ [] := List.ne_nil_of_length_pos (by omega)
    have htake := takeYear?_numeral hyear (Nat.le_of_eq hfour)
      (.inl hfour : _ ∨ EndsNumber (month ++ (day ++ rest)))
    rw [compactPattern, readItems?_year htake (trimStart_of_digits h),
      readItems?_small hmonth hmonthTwo rfl, readItems?_small hday hdayTwo rfl, readItems?_nil,
      Option.bind_some, if_neg hne]

/-- A year behind a sign takes all digits. -/
theorem exists_takeYear?_sign (hc : c = '+' ∨ c = '-') (h : IsNumeral ds n) :
    ∃ y, takeYear? (c :: ds) = some (y, []) := by
  have hminus := takeYear?_minus h endsNumber_nil
  have hplus := takeYear?_plus h endsNumber_nil
  rw [List.append_nil] at hminus hplus
  rcases hc with rfl | rfl
  · exact ⟨_, hplus⟩
  · exact ⟨_, hminus⟩

/-- A sign and digits are read by no pattern, because all of them belong to the year. -/
theorem readMoment?_of_sign (hc : c = '+' ∨ c = '-') (h : IsNumeral ds n) (hp : p ∈ readingPatterns) :
    p.readMoment? (c :: ds) = none := by
  obtain ⟨y, hyear⟩ := exists_takeYear?_sign hc h
  have hsign : Text.isWhite c = false ∧ c.isDigit = false := by rcases hc with rfl | rfl <;> decide
  have htrim : Text.trimStart (c :: ds) = c :: ds :=
    trimStart_of_head fun _ hd => Option.some.inj hd ▸ hsign.1
  rw [readMoment?_eq]
  rcases readingPatterns_cases hp with ⟨q, rfl⟩ | ⟨q, rfl⟩ | rfl
  · rw [readItems?_year hyear htrim, readItems?_sign_ne (by simp), Option.bind_none]
  · rw [readItems?_small_of_head (by decide) hsign, Option.bind_none]
  · have hends : EndsNumber (Text.trimStart []) := endsNumber_nil
    rw [compactPattern, readItems?_year hyear htrim, readItems?_small_of_ends (by decide) hends,
      Option.bind_none]

theorem isEpoch_of_digits (h : ∀ c ∈ ds, c.isDigit = true) (hlength : 8 < ds.length) :
    isEpoch ds = true := by
  have hall : 8 < ds.length ∧ ds.all Char.isDigit = true := ⟨hlength, List.all_eq_true.2 h⟩
  unfold isEpoch
  split
  · exact absurd (h '-' (by simp)) (by decide)
  · exact Bool.and_eq_true_iff.2 ⟨decide_eq_true hall.1, hall.2⟩

theorem isEpoch_minus (ds : Text) :
    isEpoch ('-' :: ds) = (decide (8 < ds.length) && ds.all Char.isDigit) := rfl

theorem isEpoch_plus (ds : Text) : isEpoch ('+' :: ds) = false := by
  have hplus : ('+' :: ds).all Char.isDigit = false := rfl
  exact Bool.and_eq_false_iff.2 (.inr hplus)

/-- A sign and digits are a count of milliseconds or nothing. -/
theorem read_of_sign (hc : c = '+' ∨ c = '-') (h : IsNumeral ds n) (htrim : t.trim = c :: ds)
    (clock : Option Moment) :
    read clock t = if isEpoch t.trim then
        match (Text.integer? t.trim).bind Moment.ofEpoch? with
        | some moment => .ok (moment, plainPattern)
        | none => .error (.epochOutOfRange t.trim)
      else .error (.notADate t.trim) := by
  refine read_of_unread ?_ ?_ ?_
  · rw [htrim]
    exact readClock?_of_head (.inr hc) clock ds
  · rw [htrim]
    refine readTimestamp?_of_digits fun hall => ?_
    have hdigit := hall c (by simp)
    rcases hc with rfl | rfl <;> cases hdigit
  · rw [htrim]
    exact fun p hp => readMoment?_of_sign hc h hp

/-- Digits with or without a minus sign, more than eight of them, are a count of milliseconds. -/
theorem read_of_epoch {negative : Bool} (hdigits : ∀ c ∈ ds, c.isDigit = true) (hlength : 8 < ds.length)
    (htrim : t.trim = Text.signed negative ds) (clock : Option Moment) :
    read clock t = match (Text.integer? t.trim).bind Moment.ofEpoch? with
      | some moment => .ok (moment, plainPattern)
      | none => .error (.epochOutOfRange t.trim) := by
  have hne : ds ≠ [] := List.ne_nil_of_length_pos (by omega)
  have hnumeral := isNumeral_of_digits hdigits hne
  cases negative with
  | false =>
    replace htrim : t.trim = ds := htrim
    obtain ⟨d, ds', hcons, hd⟩ := hnumeral.exists_cons
    rw [read_of_unread, if_pos (htrim ▸ isEpoch_of_digits hdigits hlength)]
    · rw [htrim, hcons]
      exact readClock?_of_head (.inl hd) clock ds'
    · rw [htrim]
      refine readTimestamp?_of_hyphen fun c hc => ne_of_isDigit ?_ rfl
      exact hdigits c (List.mem_of_mem_drop (List.mem_of_mem_head? hc))
    · rw [htrim]
      exact fun p hp => readMoment?_of_digits hdigits hlength hp
  | true =>
    replace htrim : t.trim = '-' :: ds := htrim
    have hepoch : isEpoch t.trim = true := by
      rw [htrim, isEpoch_minus]
      simp [hlength, List.all_eq_true.2 hdigits]
    rw [read_of_sign (.inr rfl) hnumeral htrim, if_pos hepoch]

end SeedChain.Calendar
