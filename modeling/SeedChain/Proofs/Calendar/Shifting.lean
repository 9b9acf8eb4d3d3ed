import SeedChain.Operation.Table
import SeedChain.Proofs.Calendar.Reading
import SeedChain.Value.Read
/-!
# Shifts and milliseconds

A moment is its second, counted from the beginning of 1970, and its fraction. Outside of a leap second a
shift by seconds adds to the one and keeps the other (`addSeconds?_eq_some_iff`), so the milliseconds grow
by what was asked for, and the opposite shift leads back. A text of digits is read as the moment of so
many milliseconds (`read_digits`).

Main result: `shifts_agree_with_epoch`.
-/

namespace SeedChain

namespace Calendar.Moment

variable {m m' : Moment} {seconds millis n : Int} {nanos : Nat}

/-! ## Moments by their seconds -/

theorem eq_of_timestamp (hseconds : m.timestamp = m'.timestamp) (hnanos : m.nanos = m'.nanos) : m = m' := by
  have hlt := m.second_lt
  have hlt' := m'.second_lt
  unfold timestamp at hseconds
  have hday : m.day = m'.day := by omega
  have hsecond : m.second = m'.second := by omega
  cases m
  cases m'
  simp only at hday hsecond hnanos
  subst hday hsecond hnanos
  rfl

theorem ofParts?_eq_some_iff {day : Int} {second : Nat} : ofParts? day second nanos = some m ↔
    m.day = day ∧ m.second = second ∧ m.nanos = nanos := by
  unfold ofParts?
  constructor
  · intro h
    split at h
    · obtain rfl := Option.some.inj h
      exact ⟨rfl, rfl, rfl⟩
    · cases h
  · rintro ⟨rfl, rfl, rfl⟩
    exact dif_pos ⟨m.day_mem, m.second_lt, m.nanos_lt⟩

theorem ofTimestamp?_eq_some_iff :
    ofTimestamp? seconds nanos = some m ↔ m.timestamp = seconds ∧ m.nanos = nanos := by
  have hlt := m.second_lt
  rw [ofTimestamp?, ofParts?_eq_some_iff, timestamp]
  omega

/-- A count of seconds has a moment if its day is in the calendar. -/
theorem ofTimestamp?_isSome_iff (hnanos : nanos < 2000000000) : (ofTimestamp? seconds nanos).isSome = true ↔
    firstDay ≤ seconds / 86400 ∧ seconds / 86400 ≤ lastDay := by
  have hsecond : (seconds % 86400).toNat < 86400 := by omega
  simp [ofTimestamp?, ofParts?, hnanos, hsecond]

/-- A shift adds to the seconds and keeps the fraction. -/
theorem addSeconds?_eq_some_iff (h : m.isLeap = false) :
    m.addSeconds? n = some m' ↔ m'.timestamp = m.timestamp + n ∧ m'.nanos = m.nanos := by
  rw [addSeconds?, if_neg (by simp [h]), ofTimestamp?_eq_some_iff]

theorem addSeconds?_isSome_iff (h : m.isLeap = false) : (m.addSeconds? n).isSome = true ↔
    firstDay ≤ (m.timestamp + n) / 86400 ∧ (m.timestamp + n) / 86400 ≤ lastDay := by
  rw [addSeconds?, if_neg (by simp [h]), ofTimestamp?_isSome_iff m.nanos_lt]

theorem isLeap_of_nanos (h : m'.nanos = m.nanos) : m'.isLeap = m.isLeap := by
  rw [isLeap, h, isLeap]

/-- The opposite shift leads back. -/
theorem addSeconds?_neg (hleap : m.isLeap = false) (h : m.addSeconds? n = some m') :
    m'.addSeconds? (-n) = some m := by
  obtain ⟨hseconds, hnanos⟩ := (addSeconds?_eq_some_iff hleap).1 h
  rw [addSeconds?_eq_some_iff ((isLeap_of_nanos hnanos).trans hleap)]
  exact ⟨by omega, hnanos.symm⟩

theorem epoch_addSeconds? (hleap : m.isLeap = false) (h : m.addSeconds? n = some m') :
    m'.epoch = m.epoch + 1000 * n := by
  obtain ⟨hseconds, hnanos⟩ := (addSeconds?_eq_some_iff hleap).1 h
  rw [epoch, epoch, hseconds, hnanos]
  omega

theorem epoch_ofEpoch? (h : ofEpoch? millis = some m) : m.epoch = millis := by
  obtain ⟨hseconds, hnanos⟩ := ofTimestamp?_eq_some_iff.1 h
  rw [epoch, hseconds, hnanos]
  omega

/-- Seconds and milliseconds of the whole calendar fit 64 bits. -/
theorem timestamp_bounds (m : Moment) : -0x1000000000000 < m.timestamp ∧ m.timestamp < 0x1000000000000 := by
  have hfirst : firstDay = -96465292 := by decide
  have hlast : lastDay = 95026236 := by decide
  have hday := m.day_mem
  have hsecond := m.second_lt
  rw [hfirst, hlast] at hday
  unfold timestamp
  omega

end Calendar.Moment

namespace DateValue

open Calendar

variable {d : DateValue} {name : String} {unit n : Int} {m m' : Moment} {arg back t ds : Text}

/-! ## The operations -/

/-- The operations that shift a date by seconds, and the seconds of one unit. -/
def secondUnits : List (String × Int) :=
  [("addSecond", 1), ("addMinute", 60), ("addHour", 3600), ("addDay", 86400)]

/-- `epoch` gives an integer, which fits 64 bits. -/
structure HasEpoch (d : DateValue) (millis : Int) : Prop where
  gives : (Value.date d).Gives "epoch" [] (.number (.ofInt millis))
  bounds : -0x8000000000000000 ≤ millis ∧ millis < 0x8000000000000000

theorem hasEpoch_epoch (d : DateValue) : HasEpoch d d.moment.epoch := by
  have hbounds := d.moment.timestamp_bounds
  have hnanos := d.moment.nanos_lt
  refine ⟨fun _ _ => rfl, ?_⟩
  unfold Moment.epoch
  omega

theorem HasEpoch.unique {millis other : Int} (h : HasEpoch d millis) (hother : HasEpoch d other) :
    millis = other := by
  obtain ⟨hmin, hmax⟩ := h.bounds
  obtain ⟨hminOther, hmaxOther⟩ := hother.bounds
  have hsame := (h.gives ',' []).symm.trans (hother.gives ',' [])
  have hnumber := Value.number.inj (Option.some.inj (Except.ok.inj (Prod.mk.inj hsame).1))
  refine Decimal.ofInt_inj ?_ ?_ hnumber
  · unfold Decimal.limit
    omega
  · unfold Decimal.limit
    omega

theorem run_shifting (shift : Moment → Int → Option Moment) (harg : Text.integer? arg.trim = some n)
    (name : String) (d : DateValue) (delimiter : Char) (store : Store) :
    (shifting name shift).run delimiter (.date d) d ⟨[some arg], []⟩ store =
      (match shift d.moment n with
        | some moment => goOn (.date { d with moment })
        | none => refuse name .dateOutOfRange, store) := by
  have hint : Args.int? ⟨[some arg], []⟩ 0 name = .ok (some n) :=
    Args.int?_of_integer? (show Text.integer? (Args.getD ⟨[some arg], []⟩ 0 []).trim = _ from harg) name
  simp only [shifting, Operation.fixed, Operation.run, hint]
  rfl

theorem unit_cases (hunit : (name, unit) ∈ secondUnits) :
    name = "addSecond" ∧ unit = 1 ∨ name = "addMinute" ∧ unit = 60 ∨ name = "addHour" ∧ unit = 3600 ∨
      name = "addDay" ∧ unit = 86400 := by
  simpa [secondUnits] using hunit

theorem invoke_shift (hunit : (name, unit) ∈ secondUnits) (harg : Text.integer? arg.trim = some n)
    (d : DateValue) (delimiter : Char) (store : Store) :
    (Value.date d).invoke delimiter name.toList [arg] store =
      (match d.moment.addSeconds? (unit * n) with
        | some moment => goOn (.date { d with moment })
        | none => refuse name .dateOutOfRange, store) := by
  rcases unit_cases hunit with ⟨rfl, rfl⟩ | ⟨rfl, rfl⟩ | ⟨rfl, rfl⟩ | ⟨rfl, rfl⟩
  · rw [Int.one_mul]
    exact run_shifting Moment.addSeconds? harg _ d delimiter store
  · exact run_shifting (fun m n => m.addSeconds? (60 * n)) harg _ d delimiter store
  · exact run_shifting (fun m n => m.addSeconds? (3600 * n)) harg _ d delimiter store
  · exact run_shifting (fun m n => m.addSeconds? (86400 * n)) harg _ d delimiter store

/-- A shift within the calendar goes on with the shifted date. -/
theorem gives_shift (hunit : (name, unit) ∈ secondUnits) (harg : Text.integer? arg.trim = some n)
    (h : d.moment.addSeconds? (unit * n) = some m) :
    (Value.date d).Gives name [arg] (.date { d with moment := m }) := by
  intro delimiter store
  rw [invoke_shift hunit harg, h]

/-- The opposite of a shift that succeeds can be written, as it has at most 64 bits. -/
theorem integer?_opposite (hunit : (name, unit) ∈ secondUnits) (hleap : m.isLeap = false)
    (h : m.addSeconds? (unit * n) = some m') : Text.integer? (Text.ofInt (-n)).trim = some (-n) := by
  have hbounds := m.timestamp_bounds
  have hbounds' := m'.timestamp_bounds
  have hseconds := ((Moment.addSeconds?_eq_some_iff hleap).1 h).1
  have hfits : -0x2000000000000 < n ∧ n < 0x2000000000000 := by
    rcases unit_cases hunit with ⟨-, rfl⟩ | ⟨-, rfl⟩ | ⟨-, rfl⟩ | ⟨-, rfl⟩ <;> omega
  rw [Text.trim_ofInt]
  exact Text.integer?_ofInt (by omega) (by omega)

/-! ## Milliseconds as seeds -/

/-- Digits are read as the moment of so many milliseconds. -/
theorem read_digits {env : Environment} {negative : Bool} {v : Value}
    (hdigits : ∀ c ∈ ds, c.isDigit = true) (hlength : 8 < ds.length)
    (htrim : t.trim = Text.signed negative ds) (h : Value.read env .date t = .ok v) :
    ∃ d, v = .date d ∧ d.moment.epoch = Text.signedValue negative ds := by
  have hne : ds ≠ [] := List.ne_nil_of_length_pos (by omega)
  simp only [Value.read, read_of_epoch hdigits hlength htrim, htrim] at h
  cases hinteger : Text.integer? (Text.signed negative ds) with
  | none =>
    rw [hinteger] at h
    cases h
  | some millis =>
    rw [hinteger, Option.bind_some] at h
    obtain ⟨hvalue, -⟩ := (Text.integer?_signed hdigits hne negative millis).1 hinteger
    cases hmoment : Moment.ofEpoch? millis with
    | none =>
      rw [hmoment] at h
      cases h
    | some moment =>
      rw [hmoment] at h
      obtain rfl := Except.ok.inj h
      exact ⟨_, rfl, (Moment.epoch_ofEpoch? hmoment).trans hvalue.symm⟩

/-- Outside of a leap second a shift by a number of units, if it succeeds, gives a date whose milliseconds
are those of the date before and those of the units, and the opposite shift restores the date exactly. It
succeeds if the shifted day is in the calendar. More than eight digits, behind a minus sign or not, are read
as the date of as many milliseconds, if they are read. -/
theorem shifts_agree_with_epoch :
    (∀ (d : DateValue) (name : String) (unit n : Int) (arg : Text), d.moment.isLeap = false →
      (name, unit) ∈ secondUnits → Text.integer? arg.trim = some n →
      (∀ delimiter store store' o,
        (Value.date d).invoke delimiter name.toList [arg] store = (.ok o, store') →
        store' = store ∧ ∃ d' millis, o = some (.date d') ∧ HasEpoch d millis ∧
          HasEpoch d' (millis + n * (unit * 1000)) ∧
          Text.integer? (Text.ofInt (-n)).trim = some (-n) ∧
          ∀ back, Text.integer? back.trim = some (-n) → (Value.date d').Gives name [back] (.date d)) ∧
      (firstDay ≤ (d.moment.timestamp + unit * n) / 86400 ∧
        (d.moment.timestamp + unit * n) / 86400 ≤ lastDay → ∃ v, (Value.date d).Gives name [arg] v)) ∧
    ∀ (env : Environment) (t ds : Text) (negative : Bool) (v : Value),
      (∀ c ∈ ds, c.isDigit = true) → 8 < ds.length → t.trim = Text.signed negative ds →
      Value.read env .date t = .ok v →
      ∃ d, v = .date d ∧ HasEpoch d (Text.signedValue negative ds) := by
  refine ⟨fun d name unit n arg hleap hunit harg => ⟨?_, ?_⟩, ?_⟩
  · intro delimiter store store' o h
    rw [invoke_shift hunit harg, Prod.mk.injEq] at h
    obtain ⟨houtcome, rfl⟩ := h
    cases hshift : d.moment.addSeconds? (unit * n) with
    | none =>
      rw [hshift] at houtcome
      cases houtcome
    | some moment =>
      rw [hshift] at houtcome
      obtain rfl := Except.ok.inj houtcome
      refine ⟨rfl, _, _, rfl, hasEpoch_epoch d, ?_, integer?_opposite hunit hleap hshift, ?_⟩
      · have hepoch := Moment.epoch_addSeconds? hleap hshift
        have hsum : d.moment.epoch + n * (unit * 1000) = moment.epoch := by
          rw [hepoch, Int.mul_comm n, Int.mul_right_comm, Int.mul_comm (unit * n)]
        rw [hsum]
        exact hasEpoch_epoch { d with moment }
      · intro back hback
        have hopposite := Moment.addSeconds?_neg hleap hshift
        rw [← Int.mul_neg] at hopposite
        exact gives_shift hunit hback hopposite
  · intro hday
    have hsome := (Moment.addSeconds?_isSome_iff hleap).2 hday
    obtain ⟨moment, hmoment⟩ := Option.isSome_iff_exists.1 hsome
    exact ⟨_, gives_shift hunit harg hmoment⟩
  · intro env t ds negative v hdigits hlength htrim h
    obtain ⟨d, rfl, hepoch⟩ := read_digits hdigits hlength htrim h
    exact ⟨d, rfl, hepoch ▸ hasEpoch_epoch d⟩

/-- Half a second before 1970, three days back and forth, and the same day as a seed. -/
theorem shifts_agree_with_epoch_before_1970 :
    let moment : Moment := ⟨-1, 86399, 500000000, by decide, by decide, by decide⟩
    let earlier : Moment := ⟨-4, 86399, 500000000, by decide, by decide, by decide⟩
    let d : DateValue := ⟨moment, plainPattern⟩
    let d' : DateValue := ⟨earlier, plainPattern⟩
    moment.isLeap = false ∧ ("addDay", 86400) ∈ secondUnits ∧
    Text.integer? (Text.trim ['-', '3']) = some (-3) ∧
    (Value.date d).invoke ',' "addDay".toList [['-', '3']] [] = (goOn (.date d'), []) ∧
    HasEpoch d (-500) ∧ HasEpoch d' (-500 + -3 * (86400 * 1000)) ∧
    Text.integer? (Text.trim ['3']) = some 3 ∧ (Value.date d').Gives "addDay" [['3']] (.date d) ∧
    Text.trim " -259200500".toList = Text.signed true "259200500".toList ∧
    Value.read (Environment.plain ',') .date " -259200500".toList = .ok (.date d') ∧
    HasEpoch d' (-259200500) := by
  intro moment earlier d d'
  have hleap : moment.isLeap = false := rfl
  have hunit : ("addDay", (86400 : Int)) ∈ secondUnits := by decide
  have harg : Text.integer? (Text.trim ['-', '3']) = some (-3) := by decide
  have hback : Text.integer? (Text.trim ['3']) = some 3 := by decide
  have hshift : (Value.date d).invoke ',' "addDay".toList [['-', '3']] [] = (goOn (.date d'), []) := by rfl
  have htrim : Text.trim " -259200500".toList = Text.signed true "259200500".toList := by decide
  have hread : Value.read (Environment.plain ',') .date " -259200500".toList = .ok (.date d') := by rfl
  obtain ⟨hshifts, hdigits⟩ := shifts_agree_with_epoch
  obtain ⟨-, _, millis, hsome, hepoch, hlater, -, hrestores⟩ :=
    (hshifts d "addDay" 86400 (-3) ['-', '3'] hleap hunit harg).1 ',' [] [] _ hshift
  obtain rfl := Value.date.inj (Option.some.inj hsome)
  have hmillis : d.moment.epoch = -500 := by decide
  obtain rfl : millis = -500 := hmillis ▸ hepoch.unique (hasEpoch_epoch d)
  have hall : ∀ c ∈ "259200500".toList, c.isDigit = true := List.all_eq_true.1 rfl
  obtain ⟨_, hsame, hseed⟩ := hdigits _ _ _ true _ hall (by decide) htrim hread
  obtain rfl := Value.date.inj hsame
  exact ⟨hleap, hunit, harg, hshift, hepoch, hlater, hback, hrestores ['3'] hback, htrim, hread, hseed⟩

end DateValue

end SeedChain
