import SeedChain.Proofs.Calendar.Fields
import SeedChain.Proofs.Calendar.Numerals
/-!
# Forms of moments

A reading pattern is the order of a date and, behind a mark, a time of day up to minutes, seconds or
fractions of them (`Form`). What is written in a form is read by the pattern of this form, and by no other
one (`readMoment?_text`), and it is no timestamp (`readTimestamp?_text`).
-/

namespace SeedChain.Calendar

open Pattern

variable {f g : Fields} {m : Moment} {t rest : Text} {p q : Pattern} {n k : Nat} {c : Char}

/-! ## Forms -/

/-- The order of the numbers of a date. -/
inductive DateOrder where
  | yearFirst
  | monthFirst
  /-- The year first, and nothing between the numbers. -/
  | compact
  deriving DecidableEq

/-- What stands between the date and the time of day. -/
inductive Mark where
  | letter
  | blank
  deriving DecidableEq

/-- How precise a time of day is. -/
inductive Precision where
  | minutes
  | seconds
  | fractions
  deriving DecidableEq

/-- The form of a moment; the time of day can be missing. -/
structure Form where
  order : DateOrder
  clock : Option (Mark × Precision)
  deriving DecidableEq

def DateOrder.pattern : DateOrder → Pattern
  | yearFirst => dayPattern
  | monthFirst => slashPattern .year
  | compact => compactPattern

def Mark.item : Mark → PatternItem
  | letter => sign 'T'
  | blank => space

def Precision.pattern : Precision → Pattern
  | minutes => minutePattern
  | seconds => timePattern
  | fractions => timePattern ++ [.fraction]

def clockPattern : Option (Mark × Precision) → Pattern
  | none => []
  | some (mark, precision) => mark.item :: precision.pattern

def Form.pattern (a : Form) : Pattern := a.order.pattern ++ clockPattern a.clock

/-- The forms that are read, in the order in which they are tried. -/
def readingForms : List Form :=
  [⟨.yearFirst, some (.letter, .fractions)⟩, ⟨.yearFirst, some (.blank, .fractions)⟩,
    ⟨.yearFirst, some (.letter, .minutes)⟩, ⟨.yearFirst, some (.blank, .minutes)⟩,
    ⟨.monthFirst, some (.blank, .seconds)⟩, ⟨.monthFirst, some (.blank, .minutes)⟩,
    ⟨.yearFirst, none⟩, ⟨.monthFirst, none⟩, ⟨.compact, none⟩]

theorem readingPatterns_eq : readingPatterns = readingForms.map Form.pattern := rfl

/-- The form of `plainPattern`, by which moments are written unless they were read by another one. -/
def plainForm : Form := ⟨.yearFirst, some (.blank, .seconds)⟩

/-! ## Texts -/

def DateOrder.text (f : Fields) : DateOrder → Text
  | yearFirst => yearText .zero f.year ++ '-' :: (two f.month ++ '-' :: two f.day)
  | monthFirst => two f.month ++ '/' :: (two f.day ++ '/' :: yearText .zero f.year)
  | compact => yearText .zero f.year ++ (two f.month ++ two f.day)

def Mark.char : Mark → Char
  | letter => 'T'
  | blank => ' '

def minuteText (f : Fields) : Text := two f.hour ++ ':' :: two f.minute

def timeText (f : Fields) : Text := minuteText f ++ ':' :: two f.second

def Precision.text (f : Fields) : Precision → Text
  | minutes => minuteText f
  | seconds => timeText f
  | fractions => timeText f ++ fractionText f.nanos

def clockText (f : Fields) : Option (Mark × Precision) → Text
  | none => []
  | some (mark, precision) => mark.char :: precision.text f

/-- What is written in a form. -/
def Form.text (a : Form) (f : Fields) : Text := a.order.text f ++ clockText f a.clock

theorem writeItem?_fraction (m : Moment) :
    writeItem? m .fraction = some (fractionText m.fields.nanos) := by
  have hthree : Nat.pow 10 (9 - 3) = 1000000 := by decide
  have hsix : Nat.pow 10 (9 - 6) = 1000 := by decide
  have hnine : Nat.pow 10 (9 - 9) = 1 := by decide
  simp only [writeItem?, fractionDigits, fractionText, Moment.fields, hthree, hsix, hnine, Nat.div_one]
  rfl

theorem write?_cons (item : PatternItem) (p : Pattern) (m : Moment) : write? (item :: p) m =
    (writeItem? m item).bind fun t => (write? p m).map (t ++ ·) := by
  simp only [write?, List.mapM_cons]
  cases writeItem? m item with
  | none => rfl
  | some t => cases List.mapM (writeItem? m) p <;> rfl

theorem write?_append {s : Text} (hp : p.write? m = some s) (hq : q.write? m = some t) :
    Pattern.write? (p ++ q) m = some (s ++ t) := by
  induction p generalizing s with
  | nil =>
    obtain rfl := Option.some.inj hp
    exact hq
  | cons item p ih =>
    rw [write?_cons] at hp
    obtain ⟨u, hitem, hrest⟩ := Option.bind_eq_some_iff.1 hp
    obtain ⟨v, hv, rfl⟩ := Option.map_eq_some_iff.1 hrest
    rw [List.cons_append, write?_cons, hitem, Option.bind_some, ih hv, Option.map_some, List.append_assoc]

theorem write?_nil (m : Moment) : write? [] m = some [] := rfl

theorem write?_sign (c : Char) (p : Pattern) (m : Moment) :
    write? (sign c :: p) m = (write? p m).map (c :: ·) := by
  rw [write?_cons]
  rfl

theorem write?_zeros (field : NumericField) (p : Pattern) (m : Moment) :
    write? (zeros field :: p) m = (write? p m).map (writeNumber m .zero field ++ ·) := by
  rw [write?_cons]
  rfl

theorem DateOrder.write?_eq (order : DateOrder) (m : Moment) :
    order.pattern.write? m = some (order.text m.fields) := by
  cases order with
  | yearFirst =>
    simp only [pattern, dayPattern, write?_zeros, write?_sign, write?_nil, Option.map_some, List.append_nil]
    rfl
  | monthFirst =>
    simp only [pattern, slashPattern, write?_zeros, write?_sign, write?_nil, Option.map_some, List.append_nil]
    rfl
  | compact =>
    simp only [pattern, compactPattern, write?_zeros, write?_nil, Option.map_some, List.append_nil]
    rfl

theorem minutePattern_write? (m : Moment) : minutePattern.write? m = some (minuteText m.fields) := by
  simp only [minutePattern, write?_zeros, write?_sign, write?_nil, Option.map_some, List.append_nil]
  rfl

theorem timePattern_write? (m : Moment) : timePattern.write? m = some (timeText m.fields) := by
  refine write?_append (minutePattern_write? m) ?_
  simp only [write?_zeros, write?_sign, write?_nil, Option.map_some, List.append_nil]
  rfl

theorem Precision.write?_eq (precision : Precision) (m : Moment) :
    precision.pattern.write? m = some (precision.text m.fields) := by
  cases precision with
  | minutes => exact minutePattern_write? m
  | seconds => exact timePattern_write? m
  | fractions =>
    refine write?_append (timePattern_write? m) ?_
    rw [write?_cons, writeItem?_fraction, Option.bind_some, write?_nil, Option.map_some, List.append_nil]

theorem clockPattern_write? (clock : Option (Mark × Precision)) (m : Moment) :
    (clockPattern clock).write? m = some (clockText m.fields clock) := by
  match clock with
  | none => rfl
  | some (mark, precision) =>
    have hmark : writeItem? m mark.item = some [mark.char] := by cases mark <;> rfl
    rw [clockPattern, write?_cons, hmark, Option.bind_some, precision.write?_eq, Option.map_some]
    rfl

/-- A moment is written in a form by its pattern. -/
theorem Form.write?_eq (a : Form) (m : Moment) : a.pattern.write? m = some (a.text m.fields) :=
  write?_append (a.order.write?_eq m) (clockPattern_write? a.clock m)

/-! ## Reading dates -/

/-- The numbers fit the places they are written in. -/
structure Fields.Fits (f : Fields) : Prop where
  month_lt : f.month < 100
  day_lt : f.day < 100
  hour_lt : f.hour < 100
  minute_lt : f.minute < 100
  second_lt : f.second < 100
  nanos_lt : f.nanos < 1000000000

/-- The year fits the place in the order: where nothing stands behind it, it has four digits. -/
def DateOrder.FitsYear (order : DateOrder) (year : Int) : Prop :=
  order = .compact → 0 ≤ year ∧ year ≤ 9999

/-- A date is read in the order it is written in. -/
theorem DateOrder.readItems?_text {order : DateOrder} (hf : f.Fits) (hyear : order.FitsYear f.year)
    (hend : EndsNumber rest) (q : Pattern) (g : Fields) :
    readItems? (order.pattern ++ q) g (order.text f ++ rest) =
      readItems? q { g with year := f.year, month := f.month, day := f.day } rest := by
  cases order with
  | yearFirst =>
    simp only [pattern, dayPattern, text, List.append_assoc, List.cons_append, List.nil_append]
    rw [readItems?_yearText (.inr (endsNumber_cons.2 rfl)), readItems?_sign,
      readItems?_two hf.month_lt rfl, readItems?_sign, readItems?_two hf.day_lt rfl]
  | monthFirst =>
    simp only [pattern, slashPattern, text, List.append_assoc, List.cons_append, List.nil_append]
    rw [readItems?_two hf.month_lt rfl, readItems?_sign, readItems?_two hf.day_lt rfl, readItems?_sign,
      readItems?_yearText (.inr hend)]
  | compact =>
    simp only [pattern, compactPattern, text, List.append_assoc, List.cons_append, List.nil_append]
    rw [readItems?_yearText (.inl (hyear rfl)), readItems?_two hf.month_lt rfl,
      readItems?_two hf.day_lt rfl]

/-- A date is not read in another order than it is written in. -/
theorem DateOrder.readItems?_text_ne {order other : DateOrder} (hne : other ≠ order) (hf : f.Fits)
    (hyear : order.FitsYear f.year) (q : Pattern) (g : Fields) (rest : Text) :
    readItems? (other.pattern ++ q) g (order.text f ++ rest) = none := by
  cases other with
  | yearFirst =>
    cases order with
    | yearFirst => exact absurd rfl hne
    | monthFirst =>
      simp only [pattern, dayPattern, text, List.append_assoc, List.cons_append]
      rw [readItems?_year_two hf.month_lt (endsNumber_cons.2 rfl), readItems?_sign_ne (by simp)]
    | compact =>
      simp only [pattern, dayPattern, text, List.append_assoc, List.cons_append]
      obtain ⟨d, ds, heq, hd⟩ := (isNumeral_two hf.month_lt).exists_cons
      have hhyphen : d ≠ '-' := ne_of_isDigit hd rfl
      rw [readItems?_yearText (.inl (hyear rfl)), heq, List.cons_append,
        readItems?_sign_ne fun _ he => Option.some.inj he ▸ hhyphen]
  | monthFirst =>
    cases order with
    | monthFirst => exact absurd rfl hne
    | yearFirst =>
      simp only [pattern, slashPattern, text, List.append_assoc, List.cons_append]
      exact readItems?_month_yearText _ _ _ g
    | compact =>
      simp only [pattern, slashPattern, text, List.append_assoc, List.cons_append]
      exact readItems?_month_yearText _ _ _ g
  | compact =>
    cases order with
    | compact => exact absurd rfl hne
    | yearFirst =>
      simp only [pattern, compactPattern, text, List.append_assoc, List.cons_append]
      rw [readItems?_yearText (.inr (endsNumber_cons.2 rfl)),
        readItems?_small_of_head (by decide) (by decide)]
    | monthFirst =>
      simp only [pattern, compactPattern, text, List.append_assoc, List.cons_append]
      rw [readItems?_year_two hf.month_lt (endsNumber_cons.2 rfl),
        readItems?_small_of_head (by decide) (by decide)]

/-! ## Reading times of day -/

/-- The items of a time of day behind the minutes. -/
def Precision.behind : Precision → Pattern
  | minutes => []
  | seconds => [sign ':', zeros .second]
  | fractions => [sign ':', zeros .second, .fraction]

/-- The text of a time of day behind the minutes. -/
def Precision.textBehind (f : Fields) : Precision → Text
  | minutes => []
  | seconds => ':' :: two f.second
  | fractions => ':' :: (two f.second ++ fractionText f.nanos)

theorem Precision.pattern_eq (precision : Precision) :
    precision.pattern = minutePattern ++ precision.behind := by
  cases precision <;> rfl

theorem Precision.text_eq (precision : Precision) (f : Fields) :
    precision.text f = minuteText f ++ precision.textBehind f := by
  cases precision <;> simp [text, textBehind, timeText]

theorem readItems?_minutes (hf : f.Fits) (p : Pattern) (g : Fields) (rest : Text) :
    readItems? (minutePattern ++ p) g (minuteText f ++ rest) =
      readItems? p { g with hour := f.hour, minute := f.minute } rest := by
  simp only [minutePattern, minuteText, List.append_assoc, List.cons_append, List.nil_append]
  rw [readItems?_two hf.hour_lt rfl, readItems?_sign, readItems?_two hf.minute_lt rfl]

/-- The mark is passed over in front of a number. -/
theorem readItems?_mark (mark : Mark) (h : n < 100) (p : Pattern) (g : Fields) (rest : Text) :
    readItems? (mark.item :: p) g (mark.char :: (two n ++ rest)) = readItems? p g (two n ++ rest) := by
  cases mark with
  | letter => exact readItems?_sign 'T' p g _
  | blank =>
    obtain ⟨d, ds, heq, hd⟩ := (isNumeral_two h).exists_cons
    have htrim : Text.trimStart (' ' :: (two n ++ rest)) = two n ++ rest := by
      rw [heq]
      exact trimStart_of_isDigit hd _
    change readItems? p g (Text.trimStart (' ' :: (two n ++ rest))) = _
    rw [htrim]

theorem readItems?_clock (hf : f.Fits) (mark : Mark) (precision other : Precision) (g : Fields) :
    readItems? (clockPattern (some (mark, other))) g (clockText f (some (mark, precision))) =
      readItems? other.behind { g with hour := f.hour, minute := f.minute } (precision.textBehind f) := by
  have hread := readItems?_minutes hf other.behind g (precision.textBehind f)
  simp only [clockPattern, clockText, Precision.pattern_eq, Precision.text_eq]
  rw [← hread, minuteText, List.append_assoc, readItems?_mark mark hf.hour_lt]

/-- The numbers that stand in the form, and nothing for the others. -/
def Form.stated (a : Form) (f : Fields) : Fields :=
  match a.clock with
  | none => { year := f.year, month := f.month, day := f.day }
  | some (_, .minutes) => { f with second := 0, nanos := 0 }
  | some (_, .seconds) => { f with nanos := 0 }
  | some (_, .fractions) => f

/-- A time of day is read as precisely as it is written. -/
theorem readItems?_clockText (hf : f.Fits) (a : Form) :
    readItems? (clockPattern a.clock) { year := f.year, month := f.month, day := f.day }
      (clockText f a.clock) = some (a.stated f, []) := by
  obtain ⟨order, clock⟩ := a
  match clock with
  | none => rfl
  | some (mark, .minutes) =>
    rw [readItems?_clock hf]
    rfl
  | some (mark, .seconds) =>
    rw [readItems?_clock hf, Precision.behind, Precision.textBehind, readItems?_sign,
      ← List.append_nil (two f.second), readItems?_two hf.second_lt rfl]
    rfl
  | some (mark, .fractions) =>
    rw [readItems?_clock hf, Precision.behind, Precision.textBehind, readItems?_sign,
      readItems?_two hf.second_lt rfl, readItems?_cons, readItem?_fractionText hf.nanos_lt _ rfl]
    rfl

/-- What tells the times of day of two forms apart: the mark, and whether they end with the minutes. -/
def clockShape (clock : Option (Mark × Precision)) : Option (Mark × Bool) :=
  clock.map fun parts => (parts.1, parts.2 == .minutes)

theorem readItems?_mark_ne {mark other : Mark} (hne : other ≠ mark) (p : Pattern) (g : Fields) (t : Text) :
    readItems? (other.item :: zeros .hour :: p) g (mark.char :: t) = none := by
  cases other with
  | letter =>
    cases mark with
    | letter => exact absurd rfl hne
    | blank => rfl
  | blank =>
    cases mark with
    | letter =>
      change readItems? (zeros .hour :: p) g ('T' :: t) = none
      exact readItems?_small_of_head (by decide) (by decide) p g t
    | blank => exact absurd rfl hne

/-- A time of day of another shape is not read, or not to its end. -/
theorem readItems?_clockText_ne {clock other : Option (Mark × Precision)} (hf : f.Fits)
    (hne : clockShape other ≠ clockShape clock) {parts : Fields × Text}
    (h : readItems? (clockPattern other) g (clockText f clock) = some parts) : parts.2 ≠ [] := by
  match other, clock with
  | none, none => exact absurd rfl hne
  | none, some (mark, precision) =>
    obtain rfl := Option.some.inj h
    exact List.cons_ne_nil _ _
  | some (.letter, other), none => cases h
  | some (.blank, other), none => cases other <;> cases h
  | some (shown, other), some (mark, precision) =>
    by_cases hmark : shown = mark
    · subst hmark
      rw [readItems?_clock hf] at h
      have hprecision : (other == .minutes) ≠ (precision == .minutes) :=
        fun heq => hne (congrArg (fun b => some (shown, b)) heq)
      cases other with
      | minutes =>
        obtain rfl := Option.some.inj h
        cases precision with
        | minutes => exact absurd rfl hprecision
        | seconds | fractions => exact List.cons_ne_nil _ _
      | seconds | fractions =>
        cases precision with
        | minutes => cases h
        | seconds | fractions => exact absurd rfl hprecision
    · rw [clockPattern, clockText, Precision.pattern_eq] at h
      exact absurd (h.symm.trans (readItems?_mark_ne hmark _ g _)) (Option.some_ne_none _)

/-! ## Reading forms -/

theorem endsNumber_clockText (f : Fields) (clock : Option (Mark × Precision)) :
    EndsNumber (clockText f clock) := by
  match clock with
  | none => exact endsNumber_nil
  | some (.letter, _) => exact endsNumber_cons.2 rfl
  | some (.blank, _) => exact endsNumber_cons.2 rfl

theorem eq_of_order_of_clockShape : ∀ a ∈ readingForms, ∀ b ∈ readingForms,
    b.order = a.order → clockShape b.clock = clockShape a.clock → b = a := by decide

/-- What is written in a form is read by its pattern, and by no other one. -/
theorem readMoment?_text {a b : Form} (ha : a ∈ readingForms) (hb : b ∈ readingForms) (hf : f.Fits)
    (hyear : a.order.FitsYear f.year) :
    b.pattern.readMoment? (a.text f) = if b = a then (a.stated f).moment? else none := by
  rw [readMoment?_eq, Form.pattern, Form.text]
  by_cases horder : b.order = a.order
  · rw [horder, DateOrder.readItems?_text hf hyear (endsNumber_clockText f a.clock)]
    split
    · rename_i heq
      subst heq
      rw [readItems?_clockText hf, Option.bind_some, if_pos rfl]
    · rename_i hne
      have hshape : clockShape b.clock ≠ clockShape a.clock :=
        fun hshape => hne (eq_of_order_of_clockShape a ha b hb horder hshape)
      rw [Option.bind_eq_none_iff]
      intro parts hparts
      rw [if_neg (readItems?_clockText_ne hf hshape hparts)]
  · rw [DateOrder.readItems?_text_ne horder hf hyear, Option.bind_none, if_neg]
    rintro rfl
    exact horder rfl

/-! ## Timestamps -/

theorem takeDigits?_numeral {ds : Text} (h : IsNumeral ds n) (hlength : ds.length = k) (rest : Text) :
    takeDigits? k (ds ++ rest) = some (n, rest) := by
  subst hlength
  simp only [takeDigits?, List.take_left, List.drop_left, List.all_eq_true.2 h.digits, h.value, and_self,
    if_true]

theorem takeDigits?_two (h : n < 100) (rest : Text) : takeDigits? 2 (two n ++ rest) = some (n, rest) :=
  takeDigits?_numeral (isNumeral_two h) (length_two h) rest

theorem takeSign?_cons {signs : List Char} (h : c ∈ signs) (t : Text) : takeSign? signs (c :: t) = some t :=
  if_pos h

/-- A step that is taken leaves the failure to the next ones. -/
theorem bind_eq_none_of_some {α β : Type} {x : Option α} {y : α} {next : α → Option β} (hx : x = some y)
    (hnext : next y = none) : (x >>= next) = none := by
  rw [hx]
  exact hnext

/-- A date with the year first is the beginning of a timestamp, but no time zone ends it. -/
theorem readTimestamp?_yearFirst (clock : Option (Mark × Precision)) (hf : f.Fits)
    (hyear : 0 ≤ f.year ∧ f.year ≤ 9999) :
    readTimestamp? (Form.text ⟨.yearFirst, clock⟩ f) = none := by
  obtain ⟨hlength, hnumeral⟩ := yearText_of_mem hyear
  have htext : Form.text ⟨.yearFirst, clock⟩ f = yearText .zero f.year ++
      '-' :: (two f.month ++ '-' :: (two f.day ++ clockText f clock)) := by
    simp only [Form.text, DateOrder.text, List.append_assoc, List.cons_append]
  have hhyphen : '-' ∈ ['-'] := List.mem_singleton_self '-'
  have hcolon : ':' ∈ [':'] := List.mem_singleton_self ':'
  rw [htext]
  refine bind_eq_none_of_some (takeDigits?_numeral hnumeral hlength _) ?_
  refine bind_eq_none_of_some (takeSign?_cons hhyphen _) ?_
  refine bind_eq_none_of_some (takeDigits?_two hf.month_lt _) ?_
  refine bind_eq_none_of_some (takeSign?_cons hhyphen _) ?_
  refine bind_eq_none_of_some (takeDigits?_two hf.day_lt _) ?_
  match clock with
  | none => rfl
  | some (mark, precision) =>
    have hmark : mark.char ∈ ['T', 't', ' '] := by cases mark <;> decide
    rw [clockText, Precision.text_eq, minuteText, List.append_assoc, List.cons_append]
    refine bind_eq_none_of_some (takeSign?_cons hmark _) ?_
    refine bind_eq_none_of_some (takeDigits?_two hf.hour_lt _) ?_
    refine bind_eq_none_of_some (takeSign?_cons hcolon _) ?_
    refine bind_eq_none_of_some (takeDigits?_two hf.minute_lt _) ?_
    cases precision with
    | minutes => rfl
    | seconds =>
      rw [Precision.textBehind, ← List.append_nil (two f.second)]
      refine bind_eq_none_of_some (takeSign?_cons hcolon _) ?_
      exact bind_eq_none_of_some (takeDigits?_two hf.second_lt _) rfl
    | fractions =>
      refine bind_eq_none_of_some (takeSign?_cons hcolon _) ?_
      refine bind_eq_none_of_some (takeDigits?_two hf.second_lt _) ?_
      rcases fractionText_cases hf.nanos_lt with ⟨-, heq⟩ | ⟨t, heq, htake⟩
      · rw [heq]
        rfl
      · rw [heq]
        exact bind_eq_none_of_some htake rfl

/-- What is written in a form is no timestamp, as no time zone stands behind it. -/
theorem readTimestamp?_text (a : Form) (hf : f.Fits) (hyear : a.order.FitsYear f.year) :
    readTimestamp? (a.text f) = none := by
  obtain ⟨order, clock⟩ := a
  cases order with
  | yearFirst =>
    by_cases hmem : 0 ≤ f.year ∧ f.year ≤ 9999
    · exact readTimestamp?_yearFirst clock hf hmem
    · obtain ⟨ds, -, -, heq⟩ := yearText_of_not_mem hmem
      refine readTimestamp?_of_digits fun h => ?_
      simp only [Form.text, DateOrder.text, heq, List.cons_append, List.take_succ_cons,
        List.forall_mem_cons] at h
      have hdigit := h.1
      split at hdigit <;> cases hdigit
  | monthFirst =>
    refine readTimestamp?_of_digits fun h => ?_
    have hlength := length_two hf.month_lt
    have hslash : '/' ∈ (Form.text ⟨.monthFirst, clock⟩ f).take 4 := by
      simp [Form.text, DateOrder.text, List.take_append, hlength]
    exact absurd (h '/' hslash) (by decide)
  | compact =>
    obtain ⟨hlength, -⟩ := yearText_of_mem (hyear rfl)
    obtain ⟨d, ds, heq, hd⟩ := (isNumeral_two hf.month_lt).exists_cons
    have hdrop : (Form.text ⟨.compact, clock⟩ f).drop 4 =
        two f.month ++ (two f.day ++ clockText f clock) := by
      rw [Form.text, DateOrder.text, List.append_assoc, List.append_assoc, ← hlength, List.drop_left]
    refine readTimestamp?_of_hyphen fun c hc => ?_
    rw [hdrop, heq] at hc
    obtain rfl := Option.some.inj hc
    exact ne_of_isDigit hd rfl

end SeedChain.Calendar
