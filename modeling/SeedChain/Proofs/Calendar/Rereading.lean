import SeedChain.Proofs.Calendar.Forms
/-!
# Dates as texts and back

What is read of a date by a pattern is all that the pattern writes of it (`stated_of_readMoment?`), so its
text is read as the same moment (`read_text`). Two kinds of dates lose something. A count of milliseconds is
written without the fraction of its second, and a year that has a sign cannot be told from the month and
the day when nothing stands between them (`ne_of_read_signed`).

Main result: `date_read_back_iff`.
-/

namespace SeedChain.Calendar

open Pattern

variable {f g : Fields} {m e : Moment} {t s rest : Text} {p : Pattern} {item : PatternItem} {a : Form}
  {clock : Option Moment} {n : Nat}

/-! ## Numbers that stand in a form -/

theorem number_mem_order {field : NumericField} {pad : Pad} {order : DateOrder}
    (h : .number field pad ∈ order.pattern) : field = .year ∨ field = .month ∨ field = .day := by
  cases order <;>
    simp only [DateOrder.pattern, dayPattern, slashPattern, compactPattern, zeros, sign, List.mem_cons,
      List.not_mem_nil, PatternItem.number.injEq, reduceCtorEq, or_false, false_or] at h <;>
    tauto

theorem fraction_not_mem_order (order : DateOrder) : .fraction ∉ order.pattern := by
  cases order <;> simp [DateOrder.pattern, dayPattern, slashPattern, compactPattern, zeros, sign]

theorem second_not_mem_minutes (mark : Mark) (pad : Pad) :
    .number .second pad ∉ clockPattern (some (mark, .minutes)) ∧
      .fraction ∉ clockPattern (some (mark, .minutes)) := by
  cases mark <;>
    simp [clockPattern, Mark.item, Precision.pattern, minutePattern, zeros, sign, space]

theorem fraction_not_mem_seconds (mark : Mark) : .fraction ∉ clockPattern (some (mark, .seconds)) := by
  cases mark <;>
    simp [clockPattern, Mark.item, Precision.pattern, timePattern, minutePattern, zeros, sign, space]

/-- An item of a form keeps the numbers that do not stand in it. -/
theorem stated_of_reads (hmem : item ∈ a.pattern) (h : Reads f item g) (hf : a.stated f = f) :
    a.stated g = g := by
  obtain ⟨order, clock⟩ := a
  obtain ⟨year, month, day, hour, minute, second, nanos⟩ := f
  rw [Form.pattern, List.mem_append] at hmem
  cases clock with
  | none =>
    have horder : item ∈ order.pattern := hmem.resolve_right List.not_mem_nil
    obtain ⟨-, -, -, rfl, rfl, rfl, rfl⟩ := Fields.mk.inj hf
    cases h with
    | hour | minute | second => simpa using number_mem_order horder
    | fraction => exact absurd horder (fraction_not_mem_order order)
    | _ => rfl
  | some parts =>
    obtain ⟨mark, precision⟩ := parts
    cases precision with
    | minutes =>
      obtain ⟨-, -, -, -, -, rfl, rfl⟩ := Fields.mk.inj hf
      cases h with
      | second n pad =>
        have horder := hmem.resolve_right (second_not_mem_minutes mark pad).1
        simpa using number_mem_order horder
      | fraction =>
        have horder := hmem.resolve_right (second_not_mem_minutes mark .zero).2
        exact absurd horder (fraction_not_mem_order order)
      | _ => rfl
    | seconds =>
      obtain ⟨-, -, -, -, -, -, rfl⟩ := Fields.mk.inj hf
      cases h with
      | fraction =>
        have horder := hmem.resolve_right (fraction_not_mem_seconds mark)
        exact absurd horder (fraction_not_mem_order order)
      | _ => rfl
    | fractions => rfl

theorem stated_of_readMoment? (h : a.pattern.readMoment? t = some m) :
    m.EndsMinute ∧ a.stated m.fields = m.fields := by
  rw [readMoment?_eq] at h
  obtain ⟨⟨f, rest⟩, hread, hmoment⟩ := Option.bind_eq_some_iff.1 h
  split at hmoment
  · obtain ⟨hfields, hleap⟩ := fields_of_moment? (nanos_lt_of_readItems? hread) hmoment
    have hbegin : a.stated {} = {} := by
      unfold Form.stated
      split <;> rfl
    have hstated := readItems?_invariant (fun f => a.stated f = f)
      (fun item hmem f g hreads => stated_of_reads hmem hreads) hbegin hread
    rw [hfields]
    exact ⟨hleap, hstated⟩
  · cases hmoment

theorem endsMinute_of_readTimestamp? (h : readTimestamp? t = some m) : m.EndsMinute := by
  obtain ⟨⟨year, t⟩, -, h⟩ := Option.bind_eq_some_iff.1 h
  obtain ⟨t, -, h⟩ := Option.bind_eq_some_iff.1 h
  obtain ⟨⟨month, t⟩, -, h⟩ := Option.bind_eq_some_iff.1 h
  obtain ⟨t, -, h⟩ := Option.bind_eq_some_iff.1 h
  obtain ⟨⟨day, t⟩, -, h⟩ := Option.bind_eq_some_iff.1 h
  obtain ⟨t, -, h⟩ := Option.bind_eq_some_iff.1 h
  obtain ⟨⟨hour, t⟩, -, h⟩ := Option.bind_eq_some_iff.1 h
  obtain ⟨t, -, h⟩ := Option.bind_eq_some_iff.1 h
  obtain ⟨⟨minute, t⟩, -, h⟩ := Option.bind_eq_some_iff.1 h
  obtain ⟨t, -, h⟩ := Option.bind_eq_some_iff.1 h
  obtain ⟨⟨second, t⟩, -, h⟩ := Option.bind_eq_some_iff.1 h
  dsimp only at h
  split at h
  · obtain ⟨⟨nanos, _⟩, htake, h⟩ := Option.bind_eq_some_iff.1 h
    dsimp only at h
    split at h
    · exact (fields_of_moment? (takeFraction?_lt htake) h).2
    · cases h
  · obtain ⟨⟨nanos, _⟩, htake, h⟩ := Option.bind_eq_some_iff.1 h
    obtain ⟨rfl, -⟩ := Prod.mk.inj (Option.some.inj htake)
    dsimp only at h
    split at h
    · exact (fields_of_moment? (show 0 < 1000000000 by decide) h).2
    · cases h

/-- How a seed other than a word of the clock is read: in a form, or as a count of milliseconds. -/
theorem read_cases (hclock : readClock? clock t.trim = none) (h : read clock t = .ok (m, p)) :
    (∃ a ∈ readingForms, p = a.pattern ∧ m.EndsMinute ∧ a.stated m.fields = m.fields) ∨
      p = plainPattern ∧ m.isLeap = false := by
  cases hstamp : readTimestamp? t.trim with
  | some moment =>
    simp only [read, hclock, hstamp] at h
    obtain ⟨rfl, rfl⟩ := Prod.mk.inj (Except.ok.inj h)
    exact .inl ⟨_, List.mem_cons_self, rfl, endsMinute_of_readTimestamp? hstamp, rfl⟩
  | none =>
    by_cases hunread : ∀ q ∈ readingPatterns, q.readMoment? t.trim = none
    · right
      rw [read_of_unread hclock hstamp hunread] at h
      split at h
      · cases hmoment : (Text.integer? t.trim).bind Moment.ofEpoch? with
        | none =>
          rw [hmoment] at h
          cases h
        | some moment =>
          rw [hmoment] at h
          obtain ⟨rfl, rfl⟩ := Prod.mk.inj (Except.ok.inj h)
          obtain ⟨millis, -, hepoch⟩ := Option.bind_eq_some_iff.1 hmoment
          obtain ⟨-, hnanos⟩ := Moment.ofTimestamp?_eq_some_iff.1 hepoch
          refine ⟨rfl, ?_⟩
          rw [Moment.isLeap, hnanos, decide_eq_false_iff_not]
          omega
      · cases h
    · left
      simp only [read, hclock, hstamp] at h
      cases hfind : readingPatterns.findSome? fun q => (q.readMoment? t.trim).map (·, q) with
      | none =>
        rw [List.findSome?_eq_none_iff] at hfind
        refine absurd (fun q hq => ?_) hunread
        exact Option.map_eq_none_iff.1 (hfind q hq)
      | some found =>
        rw [hfind] at h
        obtain rfl := Except.ok.inj h
        obtain ⟨q, hq, hread⟩ := List.exists_of_findSome?_eq_some hfind
        obtain ⟨moment, hmoment, heq⟩ := Option.map_eq_some_iff.1 hread
        obtain ⟨rfl, rfl⟩ := Prod.mk.inj heq
        rw [readingPatterns_eq] at hq
        obtain ⟨a, ha, rfl⟩ := List.mem_map.1 hq
        exact ⟨a, ha, rfl, stated_of_readMoment? hmoment⟩

/-! ## Reading a text in a form -/

theorem fields_fits (m : Moment) : m.fields.Fits := by
  obtain ⟨hmonth, -, hday⟩ := isValid_iff.1 (isValid_ofDay m.day)
  have hsecond := m.second_lt
  have hnanos := m.nanos_lt
  have hdays : daysInMonth m.date.year m.date.month ≤ 31 := by
    unfold daysInMonth
    split
    · split <;> decide
    · split <;> decide
  refine ⟨?_, ?_, ?_, ?_, ?_, nanos_fields_lt m⟩
  · exact Nat.lt_of_le_of_lt hmonth.2 (by decide)
  · exact Nat.lt_of_le_of_lt (hday.trans hdays) (by decide)
  · simp only [Moment.fields]
    omega
  · simp only [Moment.fields]
    omega
  · simp only [Moment.fields]
    omega

/-- A text that ends with a digit. -/
def EndsInDigit (t : Text) : Prop := ∃ c ∈ t.getLast?, c.isDigit = true

theorem EndsInDigit.append (h : EndsInDigit t) (s : Text) : EndsInDigit (s ++ t) := by
  obtain ⟨c, hc, hdigit⟩ := h
  refine ⟨c, ?_, hdigit⟩
  rw [List.getLast?_append, Option.mem_def.1 hc]
  rfl

theorem EndsInDigit.cons (h : EndsInDigit t) (c : Char) : EndsInDigit (c :: t) := h.append [c]

theorem IsNumeral.endsInDigit {ds : Text} (h : IsNumeral ds n) : EndsInDigit ds :=
  ⟨_, List.getLast?_eq_some_getLast h.ne_nil, h.digits _ (List.getLast_mem h.ne_nil)⟩

theorem endsInDigit_yearText (y : Int) : EndsInDigit (yearText .zero y) := by
  by_cases hmem : 0 ≤ y ∧ y ≤ 9999
  · exact (yearText_of_mem hmem).2.endsInDigit
  · obtain ⟨ds, hnumeral, -, heq⟩ := yearText_of_not_mem hmem
    rw [heq]
    exact hnumeral.endsInDigit.cons _

theorem endsInDigit_fractionText (h : EndsInDigit t) (n : Nat) : EndsInDigit (t ++ fractionText n) := by
  unfold fractionText
  split
  · rwa [List.append_nil]
  · split
    · exact ((isNumeral_padLeft _ _).endsInDigit.cons '.').append t
    · split
      · exact ((isNumeral_padLeft _ _).endsInDigit.cons '.').append t
      · exact ((isNumeral_padLeft _ _).endsInDigit.cons '.').append t

theorem Form.endsInDigit (hf : f.Fits) (a : Form) : EndsInDigit (a.text f) := by
  obtain ⟨order, clock⟩ := a
  have hday := (isNumeral_two hf.day_lt).endsInDigit
  have hminutes : EndsInDigit (minuteText f) := ((isNumeral_two hf.minute_lt).endsInDigit.cons ':').append _
  have hseconds : EndsInDigit (timeText f) := ((isNumeral_two hf.second_lt).endsInDigit.cons ':').append _
  match clock with
  | none =>
    rw [Form.text, clockText, List.append_nil]
    cases order with
    | yearFirst => exact ((((hday.cons '-').append _).cons '-').append _)
    | monthFirst => exact (((((endsInDigit_yearText f.year).cons '/').append _).cons '/').append _)
    | compact => exact (hday.append _).append _
  | some (mark, .minutes) => exact (hminutes.cons _).append _
  | some (mark, .seconds) => exact (hseconds.cons _).append _
  | some (mark, .fractions) => exact ((endsInDigit_fractionText hseconds f.nanos).cons _).append _

/-- What is written begins with a digit or a sign. -/
theorem Form.exists_text_eq (hf : f.Fits) (a : Form) :
    ∃ c t, a.text f = c :: t ∧ (c.isDigit = true ∨ c = '+' ∨ c = '-') := by
  obtain ⟨order, clock⟩ := a
  obtain ⟨c, t, hyear, hc⟩ := exists_yearText_eq f.year
  obtain ⟨d, ds, hmonth, hd⟩ := (isNumeral_two hf.month_lt).exists_cons
  cases order with
  | yearFirst =>
    rw [Form.text, DateOrder.text, hyear]
    exact ⟨c, _, rfl, hc⟩
  | monthFirst =>
    rw [Form.text, DateOrder.text, hmonth]
    exact ⟨d, _, rfl, .inl hd⟩
  | compact =>
    rw [Form.text, DateOrder.text, hyear]
    exact ⟨c, _, rfl, hc⟩

theorem Form.trim_text (hf : f.Fits) (a : Form) : (a.text f).trim = a.text f := by
  obtain ⟨c, t, heq, hc⟩ := a.exists_text_eq hf
  obtain ⟨d, hd, hdigit⟩ := a.endsInDigit hf
  refine Text.trim_of_ends ?_ ?_
  · intro e he
    rw [heq] at he
    obtain rfl := Option.some.inj he
    rcases hc with hc | rfl | rfl
    · exact Text.isWhite_of_isDigit hc
    · decide
    · decide
  · intro e he
    obtain rfl := Option.mem_unique hd he
    exact Text.isWhite_of_isDigit hdigit

theorem Form.readClock?_text (hf : f.Fits) (a : Form) (clock : Option Moment) :
    readClock? clock (a.text f) = none := by
  obtain ⟨c, t, heq, hc⟩ := a.exists_text_eq hf
  rw [heq]
  exact readClock?_of_head hc clock t

/-- What is found in one place only is found first. -/
theorem findSome?_of_only {α β : Type} {l : List α} {look : α → Option β} {a : α} {x : β} (ha : a ∈ l)
    (h : look a = some x) (hother : ∀ b ∈ l, b ≠ a → look b = none) : l.findSome? look = some x := by
  cases hfound : l.findSome? look with
  | none =>
    rw [List.findSome?_eq_none_iff] at hfound
    exact (hfound a ha).symm.trans h
  | some found =>
    obtain ⟨b, hb, hlook⟩ := List.exists_of_findSome?_eq_some hfound
    by_cases heq : b = a
    · subst heq
      exact hlook.symm.trans h
    · rw [hother b hb heq] at hlook
      cases hlook

/-- What is written in a form is read as the moment that the form states. -/
theorem read_text (ha : a ∈ readingForms) (hf : f.Fits) (hyear : a.order.FitsYear f.year)
    (hmoment : (a.stated f).moment? = some m) (clock : Option Moment) :
    read clock (a.text f) = .ok (m, a.pattern) := by
  have hfind : (readingPatterns.findSome? fun q => (q.readMoment? (a.text f)).map (·, q)) =
      some (m, a.pattern) := by
    rw [readingPatterns_eq, List.findSome?_map]
    refine findSome?_of_only ha ?_ fun b hb hne => ?_
    · simp only [Function.comp, readMoment?_text ha ha hf hyear, if_true, hmoment, Option.map_some]
    · simp only [Function.comp, readMoment?_text ha hb hf hyear, if_neg hne, Option.map_none]
  simp only [read, a.trim_text hf, a.readClock?_text hf, readTimestamp?_text a hf hyear, hfind]
  rfl

/-- A moment that is stated by a form is read from its text in the form. -/
theorem read_text_of_stated (ha : a ∈ readingForms) (hyear : a.order.FitsYear m.date.year)
    (hleap : m.EndsMinute) (hstated : a.stated m.fields = m.fields) (clock : Option Moment) :
    read clock (a.text m.fields) = .ok (m, a.pattern) := by
  refine read_text ha (fields_fits m) hyear ?_ clock
  rw [hstated]
  exact moment?_fields hleap

/-! ## What is lost -/

/-- A moment without the fraction of its second. -/
def Moment.whole (m : Moment) : Moment := { m with nanos := 0, nanos_lt := by decide }

theorem whole_eq_iff : m.whole = m ↔ m.nanos = 0 := by
  constructor
  · intro h
    exact (congrArg Moment.nanos h).symm
  · intro h
    exact Moment.eq_of_timestamp rfl h.symm

/-- By the plain form a moment is written like its whole second. -/
theorem plainForm_text (hleap : m.isLeap = false) :
    plainForm.text m.fields = Form.text ⟨.yearFirst, some (.blank, .fractions)⟩ m.whole.fields := by
  have hnanos : m.nanos / 1000000000 = 0 := by
    rw [Moment.isLeap, decide_eq_false_iff_not] at hleap
    omega
  have hfields : m.whole.fields = { m.fields with nanos := 0 } := by
    simp [Moment.fields, Moment.whole, Moment.date, fractionOf, hnanos]
  rw [hfields]
  exact congrArg (DateOrder.text m.fields .yearFirst ++ ' ' :: ·) (List.append_nil _).symm

theorem read_plainForm_text (hleap : m.isLeap = false) (clock : Option Moment) :
    ∃ q, read clock (plainForm.text m.fields) = .ok (m.whole, q) := by
  have hwhole : m.whole.EndsMinute := by
    intro h
    rw [isLeap_iff] at h
    exact absurd h (by simp [Moment.whole])
  rw [plainForm_text hleap]
  exact ⟨_, read_text_of_stated (by decide) (fun h => absurd h (by decide)) hwhole rfl clock⟩

/-- Before year 0 a moment is earlier than the digits of its date would be in milliseconds. -/
theorem epoch_lt_of_year (h : m.date.year < 0) : m.epoch < 10000 * m.date.year - 10000 := by
  have hday : m.date.toDay = m.day := toDay_ofDay m.day
  have heq := toDay_eq m.date
  have hmem := (inYear_of_isValid (isValid_ofDay m.day)).lt_cycle.2
  change m.date.marchYear % 400 * 365 + _ - _ + m.date.marchDay < cycle at hmem
  have hyear : m.date.marchYear ≤ m.date.year := by
    unfold Date.marchYear
    split <;> omega
  have hsecond := m.second_lt
  have hnanos := m.nanos_lt
  unfold Moment.epoch Moment.timestamp
  unfold cycle at heq hmem
  unfold marchOffset at heq
  omega

/-- A sign and digits, if they are read, are milliseconds before 1970. -/
theorem epoch_of_read_sign {c : Char} {ds : Text} (hc : c = '+' ∨ c = '-') (hds : IsNumeral ds n)
    (htrim : t.trim = c :: ds) (h : read clock t = .ok (m, p)) : c = '-' ∧ m.epoch = -n := by
  rw [read_of_sign hc hds htrim, htrim] at h
  rcases hc with rfl | rfl
  · rw [isEpoch_plus, if_neg Bool.false_ne_true] at h
    cases h
  · refine ⟨rfl, ?_⟩
    split at h
    · cases hmoment : (Text.integer? (Text.signed true ds)).bind Moment.ofEpoch? with
      | none =>
        change (Text.integer? ('-' :: ds)).bind _ = none at hmoment
        rw [hmoment] at h
        cases h
      | some moment =>
        obtain ⟨millis, hinteger, hepoch⟩ := Option.bind_eq_some_iff.1 hmoment
        have hvalue := ((Text.integer?_signed hds.digits hds.ne_nil true millis).1 hinteger).1
        change (Text.integer? ('-' :: ds)).bind _ = some moment at hmoment
        rw [hmoment] at h
        obtain ⟨rfl, -⟩ := Prod.mk.inj (Except.ok.inj h)
        rw [Moment.epoch_ofEpoch? hepoch, ← hvalue, Text.signedValue, if_pos rfl, hds.value]
    · cases h

/-- A year with a sign is not told from the month and the day behind it. -/
theorem ne_of_read_signed (hyear : ¬ (0 ≤ m.date.year ∧ m.date.year ≤ 9999))
    (h : read clock (Form.text ⟨.compact, none⟩ m.fields) = .ok (e, p)) : e ≠ m := by
  have hf := fields_fits m
  obtain ⟨ds, hds, -, hsigned⟩ := yearText_of_not_mem hyear
  generalize hdigits : ds ++ (two m.fields.month ++ two m.fields.day) = digits
  have hnumeral : IsNumeral digits ((m.date.year.natAbs * 100 + m.date.month) * 100 + m.date.day) := by
    rw [← hdigits]
    refine ⟨?_, ?_, ?_⟩
    · intro c hc
      rcases List.mem_append.1 hc with hc | hc
      · exact hds.digits c hc
      · rcases List.mem_append.1 hc with hc | hc
        · exact isDigit_of_mem_two hf.month_lt hc
        · exact isDigit_of_mem_two hf.day_lt hc
    · intro hnil
      exact hds.ne_nil (List.append_eq_nil_iff.1 hnil).1
    · rw [Text.digitsValue_append, Text.digitsValue_append, hds.value, digitsValue_two hf.month_lt,
        digitsValue_two hf.day_lt]
      rfl
  have htext : Form.text ⟨.compact, none⟩ m.fields = (if m.date.year < 0 then '-' else '+') :: digits := by
    change (yearText .zero m.date.year ++ (two m.fields.month ++ two m.fields.day)) ++ [] = _
    rw [List.append_nil, hsigned, List.cons_append, hdigits]
  have htrim := (Form.trim_text hf ⟨.compact, none⟩).trans htext
  have hmonth : m.date.month < 100 := hf.month_lt
  have hday : m.date.day < 100 := hf.day_lt
  rintro rfl
  by_cases hneg : e.date.year < 0
  · rw [if_pos hneg] at htrim
    have hepoch := (epoch_of_read_sign (.inr rfl) hnumeral htrim h).2
    have hlt := epoch_lt_of_year hneg
    omega
  · rw [if_neg hneg] at htrim
    exact absurd (epoch_of_read_sign (.inl rfl) hnumeral htrim h).1 (by decide)

end SeedChain.Calendar

namespace SeedChain.DateValue

open Calendar

variable {env : Environment} {t : Text} {d : DateValue}

theorem read_date_iff {v : Value} : Value.read env .date t = .ok v ↔
    ∃ d, v = .date d ∧ Calendar.read env.clock t = .ok (d.moment, d.pattern) := by
  simp only [Value.read]
  cases Calendar.read env.clock t with
  | error reason =>
    constructor
    · intro h
      cases h
    · rintro ⟨_, -, h⟩
      cases h
  | ok parts =>
    constructor
    · intro h
      obtain rfl := Except.ok.inj h
      exact ⟨_, rfl, rfl⟩
    · rintro ⟨d, rfl, h⟩
      obtain rfl := Except.ok.inj h
      rfl

/-- A text is read as a moment. -/
theorem reads_moment_iff {m : Moment} :
    (∃ e : DateValue, Value.read env .date t = .ok (.date e) ∧ e.moment = m) ↔
      ∃ p, Calendar.read env.clock t = .ok (m, p) := by
  constructor
  · rintro ⟨e, h, rfl⟩
    obtain ⟨_, heq, hread⟩ := read_date_iff.1 h
    obtain rfl := Value.date.inj heq
    exact ⟨_, hread⟩
  · rintro ⟨p, h⟩
    exact ⟨⟨m, p⟩, read_date_iff.2 ⟨_, rfl, h⟩, rfl⟩

theorem pattern_ne_plainPattern : ∀ a ∈ readingForms, a.pattern ≠ plainPattern := by decide

theorem eq_compact_iff : ∀ a ∈ readingForms, a.pattern = compactPattern ↔ a = ⟨.compact, none⟩ := by decide

theorem order_compact : ∀ a ∈ readingForms, a.order = .compact → a = ⟨.compact, none⟩ := by decide

/-- A date is read back from its text as the same moment, apart from two kinds of dates: a count of
milliseconds that is no count of whole seconds, and a year outside of four digits in front of a month and a
day with nothing between them. -/
theorem date_read_back_iff (env : Environment) (t : Text) (v : Value)
    (hnow : Text.asciiLower t.trim ≠ "now".toList) (htoday : Text.asciiLower t.trim ≠ "today".toList)
    (h : Value.read env .date t = .ok v) :
    ∃ d u, v = .date d ∧ d.text? = some u ∧
      ((∃ e : DateValue, Value.read env .date u = .ok (.date e) ∧ e.moment = d.moment) ↔
        ¬ (d.pattern = plainPattern ∧ d.moment.nanos ≠ 0) ∧
        ¬ (d.pattern = compactPattern ∧ ¬ (0 ≤ d.moment.date.year ∧ d.moment.date.year ≤ 9999))) := by
  obtain ⟨⟨m, p⟩, rfl, hread⟩ := read_date_iff.1 h
  have hclock := readClock?_of_ne_words hnow htoday env.clock
  rcases read_cases hclock hread with ⟨a, ha, rfl, hleap, hstated⟩ | ⟨rfl, hleap⟩
  · refine ⟨_, a.text m.fields, rfl, a.write?_eq m, ?_⟩
    rw [reads_moment_iff]
    have hplain := pattern_ne_plainPattern a ha
    by_cases hyear : a.order.FitsYear m.date.year
    · have hback := read_text_of_stated ha hyear hleap hstated env.clock
      refine iff_of_true ⟨_, hback⟩ ⟨fun hboth => hplain hboth.1, ?_⟩
      rintro ⟨hcompact, hout⟩
      obtain rfl := (eq_compact_iff a ha).1 hcompact
      exact hout (hyear rfl)
    · obtain ⟨hcompact, hout⟩ := Classical.not_imp.1 hyear
      obtain rfl := order_compact a ha hcompact
      refine iff_of_false ?_ fun hnot => hnot.2 ⟨rfl, hout⟩
      rintro ⟨q, hback⟩
      exact ne_of_read_signed hout hback rfl
  · obtain ⟨q, hback⟩ := read_plainForm_text hleap env.clock
    refine ⟨_, plainForm.text m.fields, rfl, plainForm.write?_eq m, ?_⟩
    have hcompact : plainPattern ≠ compactPattern := by decide
    have hsame : (∃ q, Calendar.read env.clock (plainForm.text m.fields) = .ok (m, q)) ↔ m.nanos = 0 := by
      rw [← whole_eq_iff]
      constructor
      · rintro ⟨q', hsame⟩
        exact (Prod.mk.inj (Except.ok.inj (hback.symm.trans hsame))).1
      · intro heq
        rw [heq] at hback
        exact ⟨q, hback⟩
    rw [reads_moment_iff, hsame]
    simp [hcompact]

/-- A time of which the text keeps the seconds only. -/
theorem date_read_back_iff_milliseconds :
    let env := Environment.plain ','
    let d : DateValue := ⟨⟨19796, 37800, 123000000, by decide, by decide, by decide⟩, plainPattern⟩
    Text.asciiLower (Text.trim "1710412200123".toList) ≠ "now".toList ∧
    Text.asciiLower (Text.trim "1710412200123".toList) ≠ "today".toList ∧
    Value.read env .date "1710412200123".toList = .ok (.date d) ∧
    d.text? = some "2024-03-14 10:30:00".toList ∧
    ¬ ∃ e : DateValue, Value.read env .date "2024-03-14 10:30:00".toList = .ok (.date e) ∧
      e.moment = d.moment := by
  intro env d
  have hnow : Text.asciiLower (Text.trim "1710412200123".toList) ≠ "now".toList := by decide
  have htoday : Text.asciiLower (Text.trim "1710412200123".toList) ≠ "today".toList := by decide
  have hread : Value.read env .date "1710412200123".toList = .ok (.date d) := by rfl
  have htext : d.text? = some "2024-03-14 10:30:00".toList := by decide +kernel
  obtain ⟨_, u, hsame, hu, hiff⟩ := date_read_back_iff env _ _ hnow htoday hread
  obtain rfl := Value.date.inj hsame
  obtain rfl := Option.some.inj (htext.symm.trans hu)
  refine ⟨hnow, htoday, hread, htext, fun hback => ?_⟩
  exact (hiff.1 hback).1 ⟨rfl, by decide⟩

end SeedChain.DateValue
