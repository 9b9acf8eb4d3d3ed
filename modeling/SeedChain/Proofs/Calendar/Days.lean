import Mathlib.Tactic.Common
import Mathlib.Tactic.IntervalCases
import SeedChain.Calendar.Day
/-!
# Days and dates

Every date that exists has one day, and every day one date that exists (`ofDay_toDay`, `toDay_ofDay`,
`isValid_ofDay`). Inside 400 years a day is said by its year and its day of the year (`InYear`), years
beginning in March. Which year that is, is computed with three corrections to a division by 365; they are
checked here by centuries, by groups of four years and by years.
-/

namespace SeedChain.Calendar

/-! ## Years of a cycle -/

/-- The number of a year of the cycle that contains a day. -/
def yearOf (day : Int) : Int := (day - day / 1460 + day / 36524 - day / 146096) / 365

/-- A day of the cycle, in a year of it and on a day of that year. The year ends with 29 February when
that is a leap day. -/
structure InYear (day year dayOfYear : Int) : Prop where
  year_mem : 0 ≤ year ∧ year ≤ 399
  nonneg : 0 ≤ dayOfYear
  le : dayOfYear ≤ 364 ∨
    dayOfYear = 365 ∧ (year + 1) % 4 = 0 ∧ ((year + 1) % 100 ≠ 0 ∨ (year + 1) % 400 = 0)
  day_eq : day = year * 365 + year / 4 - year / 100 + dayOfYear

variable {n day year dayOfYear : Int} {d : Date}

theorem InYear.yearOf_eq (h : InYear day year dayOfYear) : yearOf day = year := by
  obtain ⟨hyear, hnonneg, hle, heq⟩ := h
  -- the year by its century, its group of four years and its place in the group
  obtain ⟨century, group, place, hcentury, hgroup, hplace, rfl⟩ : ∃ century group place : Int,
      (0 ≤ century ∧ century ≤ 3) ∧ (0 ≤ group ∧ group ≤ 24) ∧ (0 ≤ place ∧ place ≤ 3) ∧
      year = 100 * century + 4 * group + place :=
    ⟨year / 100, year % 100 / 4, year % 4, by omega⟩
  have hday : day = 36524 * century + 1461 * group + 365 * place + dayOfYear := by omega
  have hleap : dayOfYear ≤ 364 ∨ place = 3 ∧ dayOfYear = 365 ∧ (group ≤ 23 ∨ century = 3) := by omega
  clear heq hle hyear
  have hbyCentury : day / 36524 = century ∨ day = 146096 := by omega
  have hbyCycle : day / 146096 = 0 ∨ day = 146096 := by omega
  have hbyGroup : day / 1460 =
      25 * century + group + (24 * century + group + 365 * place + dayOfYear) / 1460 := by omega
  rw [yearOf, hbyGroup]
  rcases hbyCentury with hbyCentury | hlast
  · rcases hbyCycle with hbyCycle | hlast
    · rw [hbyCentury, hbyCycle]
      omega
    · omega
  · subst hlast
    omega

theorem exists_inYear (hmin : 0 ≤ day) (hmax : day < cycle) : ∃ year dayOfYear, InYear day year dayOfYear := by
  rw [cycle] at hmax
  obtain ⟨century, inCentury, hcentury, hday⟩ : ∃ century inCentury, (0 ≤ century ∧ century ≤ 3) ∧
      day = 36524 * century + inCentury ∧ 0 ≤ inCentury ∧
      (inCentury ≤ 36523 ∨ century = 3 ∧ inCentury = 36524) :=
    ⟨min 3 (day / 36524), day - 36524 * min 3 (day / 36524), by omega, by omega⟩
  obtain ⟨group, inGroup, hgroup, hinCentury⟩ : ∃ group inGroup, (0 ≤ group ∧ group ≤ 24) ∧
      inCentury = 1461 * group + inGroup ∧ 0 ≤ inGroup ∧
      (inGroup ≤ 1459 ∨ inGroup = 1460 ∧ (group ≤ 23 ∨ century = 3)) :=
    ⟨inCentury / 1461, inCentury % 1461, by omega, by omega⟩
  obtain ⟨inFour, dayOfYear, hinFour, hinGroup⟩ : ∃ inFour dayOfYear, (0 ≤ inFour ∧ inFour ≤ 3) ∧
      inGroup = 365 * inFour + dayOfYear ∧ 0 ≤ dayOfYear ∧
      (dayOfYear ≤ 364 ∨ dayOfYear = 365 ∧ inFour = 3) :=
    ⟨min 3 (inGroup / 365), inGroup - 365 * min 3 (inGroup / 365), by omega, by omega⟩
  refine ⟨100 * century + 4 * group + inFour, dayOfYear, by omega, by omega, ?_, by omega⟩
  omega

/-! ## Dates -/

/-- The number of the day on which a month begins, both counted from March. -/
def monthStart (month : Int) : Int := (153 * month + 2) / 5

/-- The year, beginning in March, that a date lies in. -/
def Date.marchYear (d : Date) : Int := if d.month ≤ 2 then d.year - 1 else d.year

/-- The month counted from March. -/
def Date.marchMonth (d : Date) : Int := if d.month ≤ 2 then d.month + 9 else d.month - 3

/-- The day of the year that begins in March. -/
def Date.marchDay (d : Date) : Int := monthStart d.marchMonth + d.day - 1

theorem toDay_eq (d : Date) : d.toDay + marchOffset = d.marchYear / 400 * cycle +
    (d.marchYear % 400 * 365 + d.marchYear % 400 / 4 - d.marchYear % 400 / 100 + d.marchDay) := by
  simp only [Date.toDay, Date.marchYear, Date.marchDay, Date.marchMonth, monthStart]
  omega

theorem isLeapYear_iff (year : Int) :
    isLeapYear year = true ↔ year % 4 = 0 ∧ (year % 100 ≠ 0 ∨ year % 400 = 0) := by
  simp [isLeapYear]

theorem isValid_iff : d.isValid = true ↔
    (1 ≤ d.month ∧ d.month ≤ 12) ∧ 1 ≤ d.day ∧ d.day ≤ daysInMonth d.year d.month := by
  simp [Date.isValid, and_assoc]

/-- A month other than February ends where the next one begins. -/
theorem monthStart_add_daysInMonth (hmonth : 1 ≤ d.month ∧ d.month ≤ 12) (hne : d.month ≠ 2) :
    monthStart d.marchMonth + daysInMonth d.year d.month = monthStart (d.marchMonth + 1) := by
  obtain ⟨hmin, hmax⟩ := hmonth
  unfold Date.marchMonth
  generalize d.month = month at *
  interval_cases month <;> simp [daysInMonth, monthStart] at hne ⊢

/-- The month of a day of the year. -/
theorem month_of_dayOfYear {month : Int} :
    (5 * dayOfYear + 2) / 153 = month ↔ monthStart month ≤ dayOfYear ∧ dayOfYear < monthStart (month + 1) := by
  unfold monthStart
  omega

theorem daysInMonth_february (year : Int) :
    daysInMonth year 2 = if isLeapYear year then 29 else 28 := rfl

theorem marchDay_mem (h : d.isValid = true) :
    monthStart d.marchMonth ≤ d.marchDay ∧ d.marchDay < monthStart (d.marchMonth + 1) := by
  obtain ⟨hmonth, hmin, hmax⟩ := isValid_iff.1 h
  unfold Date.marchDay
  by_cases hfebruary : d.month = 2
  · have hmarch : d.marchMonth = 11 := by simp [Date.marchMonth, hfebruary]
    rw [hfebruary, daysInMonth_february] at hmax
    rw [hmarch]
    simp only [monthStart]
    split at hmax <;> omega
  · have hend := monthStart_add_daysInMonth hmonth hfebruary
    omega

theorem inYear_of_isValid (h : d.isValid = true) : InYear
    (d.marchYear % 400 * 365 + d.marchYear % 400 / 4 - d.marchYear % 400 / 100 + d.marchDay)
    (d.marchYear % 400) d.marchDay := by
  obtain ⟨hmonth, -, hmax⟩ := isValid_iff.1 h
  have hmem := marchDay_mem h
  have hbounds : 0 ≤ d.marchMonth ∧ (d.month ≠ 2 → d.marchMonth ≤ 10) := by
    unfold Date.marchMonth
    split <;> omega
  refine ⟨by omega, ?_, ?_, rfl⟩
  · unfold monthStart at hmem
    omega
  · by_cases hfebruary : d.month = 2
    · have hleap := isLeapYear_iff d.year
      have hyear : d.marchYear = d.year - 1 := by simp [Date.marchYear, hfebruary]
      have hday : d.marchDay = 336 + d.day := by
        simp only [Date.marchDay, Date.marchMonth, hfebruary, monthStart]
        omega
      rw [hfebruary, daysInMonth_february] at hmax
      split at hmax
      · rename_i hyes
        have hyes := hleap.1 hyes
        omega
      · omega
    · left
      unfold monthStart at hmem
      omega

/-! ## There and back -/

/-- The date in a year that begins in March, by the month and the day counted from 0. -/
def dateInMarchYear (year month day : Int) : Date :=
  ⟨if month < 10 then year else year + 1, (if month < 10 then month + 3 else month - 9).toNat,
    (day + 1).toNat⟩

theorem dateInMarchYear_march (h : 1 ≤ d.month ∧ d.month ≤ 12) (hday : 1 ≤ d.day) :
    dateInMarchYear d.marchYear d.marchMonth (d.marchDay - monthStart d.marchMonth) = d := by
  rcases d with ⟨year, month, day⟩
  simp only [dateInMarchYear, Date.marchYear, Date.marchMonth, Date.marchDay, Date.mk.injEq] at *
  split <;> split <;> omega

theorem march_dateInMarchYear (year : Int) {month day : Int} (hmonth : 0 ≤ month ∧ month ≤ 11)
    (hday : 0 ≤ day) :
    (dateInMarchYear year month day).marchYear = year ∧
    (dateInMarchYear year month day).marchMonth = month ∧
    (dateInMarchYear year month day).marchDay = monthStart month + day ∧
    1 ≤ (dateInMarchYear year month day).month ∧ (dateInMarchYear year month day).month ≤ 12 := by
  have hmarch : (dateInMarchYear year month day).marchMonth = month := by
    simp only [Date.marchMonth, dateInMarchYear]
    split <;> split <;> omega
  refine ⟨?_, hmarch, ?_, ?_⟩
  · simp only [Date.marchYear, dateInMarchYear]
    split <;> split <;> omega
  · rw [Date.marchDay, hmarch]
    simp only [dateInMarchYear]
    omega
  · simp only [dateInMarchYear]
    split <;> omega

theorem InYear.lt_cycle (h : InYear day year dayOfYear) : 0 ≤ day ∧ day < cycle := by
  obtain ⟨hyear, hnonneg, hle, rfl⟩ := h
  unfold cycle
  omega

theorem InYear.month_mem (h : InYear day year dayOfYear) :
    0 ≤ (5 * dayOfYear + 2) / 153 ∧ (5 * dayOfYear + 2) / 153 ≤ 11 := by
  obtain ⟨-, hnonneg, hle, -⟩ := h
  omega

theorem ofDay_of_inYear (h : InYear ((n + marchOffset) % cycle) year dayOfYear) :
    Date.ofDay n = dateInMarchYear ((n + marchOffset) / cycle * 400 + year)
      ((5 * dayOfYear + 2) / 153) (dayOfYear - monthStart ((5 * dayOfYear + 2) / 153)) := by
  have hyear := h.yearOf_eq
  have hmonth := h.month_mem
  obtain ⟨-, -, -, hday⟩ := h
  have hdayOfYear : (n + marchOffset) % cycle - (365 * year + year / 4 - year / 100) = dayOfYear := by
    omega
  unfold yearOf at hyear
  simp only [Date.ofDay, hyear, hdayOfYear, dateInMarchYear, monthStart]
  congr 1
  split <;> split <;> omega

/-- A date that exists is the date of its day. -/
theorem ofDay_toDay (h : d.isValid = true) : Date.ofDay d.toDay = d := by
  obtain ⟨hmonth, hday, -⟩ := isValid_iff.1 h
  have hin := inYear_of_isValid h
  obtain ⟨hmin, hmax⟩ := hin.lt_cycle
  have heq := toDay_eq d
  have hmod : (d.toDay + marchOffset) % cycle = d.marchYear % 400 * 365 + d.marchYear % 400 / 4 -
      d.marchYear % 400 / 100 + d.marchDay := by
    rw [heq, Int.mul_add_emod_self_right]
    exact Int.emod_eq_of_lt hmin hmax
  have hdiv : (d.toDay + marchOffset) / cycle * 400 + d.marchYear % 400 = d.marchYear := by
    unfold cycle at heq hmod hmax ⊢
    omega
  have hspan : (5 * d.marchDay + 2) / 153 = d.marchMonth := month_of_dayOfYear.2 (marchDay_mem h)
  rw [← hmod] at hin
  rw [ofDay_of_inYear hin, hdiv, hspan, dateInMarchYear_march hmonth hday]

/-- Where the date of a day lies in the year that begins in March. -/
theorem exists_march_ofDay (n : Int) : ∃ year dayOfYear : Int,
    InYear ((n + marchOffset) % cycle) year dayOfYear ∧
    (Date.ofDay n).marchYear = (n + marchOffset) / cycle * 400 + year ∧
    (Date.ofDay n).marchMonth = (5 * dayOfYear + 2) / 153 ∧
    (Date.ofDay n).marchDay = dayOfYear ∧
    1 ≤ (Date.ofDay n).month ∧ (Date.ofDay n).month ≤ 12 := by
  have hmin : 0 ≤ (n + marchOffset) % cycle := Int.emod_nonneg _ (by decide)
  have hmax : (n + marchOffset) % cycle < cycle := Int.emod_lt_of_pos _ (by decide)
  obtain ⟨year, dayOfYear, hin⟩ := exists_inYear hmin hmax
  have hspan := month_of_dayOfYear.1 (rfl : (5 * dayOfYear + 2) / 153 = _)
  obtain ⟨hyear, hmonth, hday, hmem⟩ := march_dateInMarchYear
    ((n + marchOffset) / cycle * 400 + year) hin.month_mem (Int.sub_nonneg.2 hspan.1)
  rw [← ofDay_of_inYear hin] at hyear hmonth hday hmem
  exact ⟨year, dayOfYear, hin, hyear, hmonth, by rw [hday]; omega, hmem⟩

/-- A day is the day of its date. -/
theorem toDay_ofDay (n : Int) : (Date.ofDay n).toDay = n := by
  obtain ⟨year, dayOfYear, hin, hyear, -, hday, -⟩ := exists_march_ofDay n
  have heq := toDay_eq (Date.ofDay n)
  obtain ⟨hmem, -, -, hcycle⟩ := hin
  have hplace : ((n + marchOffset) / cycle * 400 + year) % 400 = year := by omega
  have hcycles : ((n + marchOffset) / cycle * 400 + year) / 400 = (n + marchOffset) / cycle := by omega
  rw [hyear, hday, hplace, hcycles, ← hcycle, Int.mul_comm, Int.mul_ediv_add_emod] at heq
  omega

theorem isValid_ofDay (n : Int) : (Date.ofDay n).isValid = true := by
  obtain ⟨year, dayOfYear, ⟨hyearMem, hnonneg, hle, -⟩, hyear, hmonth, hday, hmonthMem⟩ :=
    exists_march_ofDay n
  have hspan := month_of_dayOfYear.1 hmonth.symm
  rw [isValid_iff]
  generalize Date.ofDay n = d at *
  unfold Date.marchDay at hday
  refine ⟨hmonthMem, by omega, ?_⟩
  by_cases hfebruary : d.month = 2
  · have hleap := isLeapYear_iff d.year
    have hmarch : d.marchMonth = 11 := by simp [Date.marchMonth, hfebruary]
    simp only [Date.marchYear, hfebruary, Nat.le_refl, if_true] at hyear
    rw [hmarch, monthStart] at hday
    rw [hfebruary, daysInMonth_february]
    split
    · omega
    · rename_i hno
      rw [hleap] at hno
      omega
  · have hend := monthStart_add_daysInMonth hmonthMem hfebruary
    omega

end SeedChain.Calendar
