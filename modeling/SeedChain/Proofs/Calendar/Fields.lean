import SeedChain.Proofs.Calendar.Days
import SeedChain.Proofs.Calendar.Reading
import SeedChain.Proofs.Calendar.Shifting
/-!
# The numbers of a moment

A moment is stated by its year, month, day and time of day (`Moment.fields`). Numbers that state a moment
are its own (`fields_of_moment?`, `moment?_fields`), where a leap second is the last one of a minute. An
item of a pattern replaces one number, or none (`reads_of_readItem?`), and what all items of a pattern keep
is kept by the pattern (`readItems?_invariant`).
-/

namespace SeedChain.Calendar

open Pattern

variable {f g : Fields} {m : Moment} {t rest : Text} {item : PatternItem} {p : Pattern} {n : Nat}

/-! ## Moments and their numbers -/

/-- The numbers of a moment. Inside a leap second its second goes on past 59. -/
def Moment.fields (m : Moment) : Fields where
  year := m.date.year
  month := m.date.month
  day := m.date.day
  hour := m.second / 3600
  minute := m.second / 60 % 60
  second := m.second % 60 + m.nanos / 1000000000
  nanos := fractionOf m

/-- If the moment is inside a leap second, this is the last one of its minute. -/
def Moment.EndsMinute (m : Moment) : Prop := m.isLeap = true → m.second % 60 = 59

theorem isLeap_iff : m.isLeap = true ↔ 1000000000 ≤ m.nanos := by
  simp [Moment.isLeap]

/-- What the numbers of a moment are made into. -/
theorem moment?_eq_some : f.moment? = some m ↔
    (Date.mk f.year f.month f.day).isValid = true ∧ f.hour < 24 ∧ f.minute < 60 ∧ f.second ≤ 60 ∧
      m.day = (Date.mk f.year f.month f.day).toDay ∧
      m.second = 3600 * f.hour + 60 * f.minute + (if f.second = 60 then 59 else f.second) ∧
      m.nanos = f.nanos + if f.second = 60 then 1000000000 else 0 := by
  simp only [Fields.moment?]
  split
  · rename_i hbounds
    simp only [Moment.ofParts?_eq_some_iff, hbounds, true_and]
  · rename_i hbounds
    constructor
    · intro h
      cases h
    · rintro ⟨hvalid, hhour, hminute, hsecond, -⟩
      exact absurd ⟨hvalid, hhour, hminute, hsecond⟩ hbounds

theorem moment?_fields (h : m.EndsMinute) : m.fields.moment? = some m := by
  have hsecond := m.second_lt
  have hnanos := m.nanos_lt
  have hleap : 1000000000 ≤ m.nanos → m.second % 60 = 59 := fun hle => h (isLeap_iff.2 hle)
  have hsixty : m.fields.second = 60 ↔ 1000000000 ≤ m.nanos := by
    simp only [Moment.fields]
    omega
  have hclock : m.fields.hour < 24 ∧ m.fields.minute < 60 ∧ m.fields.second ≤ 60 := by
    simp only [Moment.fields]
    omega
  have hseconds : m.second = 3600 * m.fields.hour + 60 * m.fields.minute + m.second % 60 := by
    simp only [Moment.fields]
    omega
  have hwritten : m.fields.second = m.second % 60 + m.nanos / 1000000000 := rfl
  have hfraction : m.fields.nanos = m.nanos % 1000000000 := rfl
  obtain ⟨hhour, hminute, hle⟩ := hclock
  rw [moment?_eq_some]
  refine ⟨isValid_ofDay m.day, hhour, hminute, hle, (toDay_ofDay m.day).symm, ?_, ?_⟩
  · by_cases hyes : m.fields.second = 60
    · have hlast := hleap (hsixty.1 hyes)
      rw [if_pos hyes]
      omega
    · rw [hsixty] at hyes
      rw [if_neg (mt hsixty.1 hyes)]
      omega
  · by_cases hyes : m.fields.second = 60
    · have hle := hsixty.1 hyes
      rw [if_pos hyes]
      omega
    · rw [hsixty] at hyes
      rw [if_neg (mt hsixty.1 hyes)]
      omega

/-- Numbers that state a moment are its own. -/
theorem fields_of_moment? (hnanos : f.nanos < 1000000000) (h : f.moment? = some m) :
    m.fields = f ∧ m.EndsMinute := by
  obtain ⟨hvalid, hhour, hminute, hsecond, hday, hseconds, hfraction⟩ := moment?_eq_some.1 h
  have hdate : m.date = ⟨f.year, f.month, f.day⟩ := by
    rw [Moment.date, hday]
    exact ofDay_toDay hvalid
  have hclock : m.second / 3600 = f.hour ∧ m.second / 60 % 60 = f.minute ∧
      m.second % 60 + m.nanos / 1000000000 = f.second ∧ m.nanos % 1000000000 = f.nanos ∧
      (1000000000 ≤ m.nanos → m.second % 60 = 59) := by
    by_cases hsixty : f.second = 60
    · rw [if_pos hsixty] at hseconds hfraction
      omega
    · rw [if_neg hsixty] at hseconds hfraction
      omega
  obtain ⟨hhours, hminutes, hseconds, hnanos, hleap⟩ := hclock
  refine ⟨?_, fun hyes => hleap (isLeap_iff.1 hyes)⟩
  unfold Moment.fields fractionOf
  rw [hdate, hhours, hminutes, hseconds, hnanos]

theorem nanos_fields_lt (m : Moment) : m.fields.nanos < 1000000000 := Nat.mod_lt _ (by decide)

/-! ## What an item reads -/

theorem takeFraction?_lt (h : takeFraction? t = some (n, rest)) : n < 1000000000 := by
  simp only [takeFraction?] at h
  split at h
  · cases h
  · obtain ⟨rfl, -⟩ := Prod.mk.inj (Option.some.inj h)
    generalize hkept : (t.takeWhile Char.isDigit).take 9 = kept
    have hdigits : ∀ c ∈ kept, c.isDigit = true := by
      intro c hc
      rw [← hkept] at hc
      exact List.all_eq_true.1 List.all_takeWhile c (List.mem_of_mem_take hc)
    have hlength : kept.length ≤ 9 := by
      rw [← hkept, List.length_take]
      exact Nat.min_le_left _ _
    calc Text.digitsValue 0 kept * 10 ^ (9 - kept.length)
        < 10 ^ kept.length * 10 ^ (9 - kept.length) := by
          refine Nat.mul_lt_mul_of_pos_right ?_ (Nat.pow_pos (by decide))
          simpa using Text.digitsValue_lt hdigits 0
      _ = 1000000000 := by rw [← Nat.pow_add, Nat.add_sub_cancel' hlength]

/-- What reading an item does: it replaces its own number, or nothing. -/
inductive Reads (f : Fields) : PatternItem → Fields → Prop
  | nothing (item : PatternItem) : Reads f item f
  | year (y : Int) (pad : Pad) : Reads f (.number .year pad) { f with year := y }
  | month (n : Nat) (pad : Pad) : Reads f (.number .month pad) { f with month := n }
  | day (n : Nat) (pad : Pad) : Reads f (.number .day pad) { f with day := n }
  | hour (n : Nat) (pad : Pad) : Reads f (.number .hour pad) { f with hour := n }
  | minute (n : Nat) (pad : Pad) : Reads f (.number .minute pad) { f with minute := n }
  | second (n : Nat) (pad : Pad) : Reads f (.number .second pad) { f with second := n }
  | fraction (n : Nat) (h : n < 1000000000) : Reads f .fraction { f with nanos := n }

theorem reads_of_readItem? (h : readItem? f t item = some (g, rest)) : Reads f item g := by
  cases item with
  | literal l =>
    obtain ⟨_, -, heq⟩ := Option.map_eq_some_iff.1 h
    obtain ⟨rfl, -⟩ := Prod.mk.inj heq
    exact .nothing _
  | blank l =>
    obtain ⟨rfl, -⟩ := Prod.mk.inj (Option.some.inj h)
    exact .nothing _
  | number field pad =>
    cases field with
    | year =>
      obtain ⟨⟨y, _⟩, -, heq⟩ := Option.map_eq_some_iff.1 h
      exact (Prod.mk.inj heq).1 ▸ .year y pad
    | month =>
      obtain ⟨⟨n, _⟩, -, heq⟩ := Option.map_eq_some_iff.1 h
      exact (Prod.mk.inj heq).1 ▸ .month n pad
    | day =>
      obtain ⟨⟨n, _⟩, -, heq⟩ := Option.map_eq_some_iff.1 h
      exact (Prod.mk.inj heq).1 ▸ .day n pad
    | hour =>
      obtain ⟨⟨n, _⟩, -, heq⟩ := Option.map_eq_some_iff.1 h
      exact (Prod.mk.inj heq).1 ▸ .hour n pad
    | minute =>
      obtain ⟨⟨n, _⟩, -, heq⟩ := Option.map_eq_some_iff.1 h
      exact (Prod.mk.inj heq).1 ▸ .minute n pad
    | second =>
      obtain ⟨⟨n, _⟩, -, heq⟩ := Option.map_eq_some_iff.1 h
      exact (Prod.mk.inj heq).1 ▸ .second n pad
    | _ => cases h
  | fraction =>
    simp only [readItem?] at h
    split at h
    · obtain ⟨⟨n, _⟩, htake, heq⟩ := Option.map_eq_some_iff.1 h
      exact (Prod.mk.inj heq).1 ▸ .fraction n (takeFraction?_lt htake)
    · obtain ⟨rfl, -⟩ := Prod.mk.inj (Option.some.inj h)
      exact .nothing _
  | _ => cases h

/-- What every item of a pattern keeps is kept by the pattern. -/
theorem readItems?_invariant (P : Fields → Prop)
    (hstep : ∀ item ∈ p, ∀ f g, Reads f item g → P f → P g) (hbegin : P f)
    (h : readItems? p f t = some (g, rest)) : P g := by
  induction p generalizing f t with
  | nil =>
    obtain ⟨rfl, -⟩ := Prod.mk.inj (Option.some.inj h)
    exact hbegin
  | cons item p ih =>
    rw [readItems?_cons] at h
    obtain ⟨⟨f', t'⟩, hitem, hrest⟩ := Option.bind_eq_some_iff.1 h
    have hnext := hstep item List.mem_cons_self f f' (reads_of_readItem? hitem) hbegin
    exact ih (fun item hmem => hstep item (List.mem_cons_of_mem _ hmem)) hnext hrest

theorem nanos_lt_of_readItems? (h : readItems? p {} t = some (g, rest)) : g.nanos < 1000000000 := by
  refine readItems?_invariant (fun f => f.nanos < 1000000000) ?_ (by decide) h
  intro item _ f g hreads hlt
  cases hreads with
  | fraction n hn => exact hn
  | _ => exact hlt

end SeedChain.Calendar
