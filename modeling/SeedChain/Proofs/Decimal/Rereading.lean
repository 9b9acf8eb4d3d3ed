import SeedChain.Proofs.Decimal.Signs
import SeedChain.Value.Read
/-!
# Numbers and their texts

The text of a number has its digits, with a point in front of as many of them as the scale says. They are
read one by one, and as long as what is read fits, nothing is rounded (`readDigits_append`), so sign,
mantissa and scale are all kept. Only the sign of a zero gets lost.

Main result: `number_read_back`.
-/

namespace SeedChain.Decimal

variable {ds t : Text} {mantissa scale : Nat} {digit : Bool}

/-! ## Digits -/

/-- Digits in front of the point are read as they are if the number fits. -/
theorem readDigits_append (hdigits : ∀ c ∈ ds, c.isDigit = true)
    (hfits : Text.digitsValue mantissa ds < limit) (t : Text) :
    readDigits mantissa 0 false digit (ds ++ t) =
      readDigits (Text.digitsValue mantissa ds) 0 false (digit || ds ≠ []) t := by
  induction ds generalizing mantissa digit with
  | nil => simp [Text.digitsValue]
  | cons c ds ih =>
    obtain ⟨hc, hds⟩ := List.forall_mem_cons.1 hdigits
    have hnext : 10 * mantissa + Text.digitValue c < limit :=
      Nat.lt_of_le_of_lt (Text.le_digitsValue _ ds) hfits
    rw [List.cons_append, readDigits]
    simp only [Bool.false_and, Bool.false_eq_true, if_false, hc, if_true, hnext]
    rw [ih hds hfits]
    simp [Text.digitsValue]

theorem readDigits_fraction (hdigits : ∀ c ∈ ds, c.isDigit = true)
    (hfits : Text.digitsValue mantissa ds < limit) (hscale : scale + ds.length ≤ 28) :
    readDigits mantissa scale true true ds =
      some (Text.digitsValue mantissa ds, scale + ds.length) := by
  induction ds generalizing mantissa scale with
  | nil => rfl
  | cons c ds ih =>
    obtain ⟨hc, hds⟩ := List.forall_mem_cons.1 hdigits
    rw [List.length_cons] at hscale ⊢
    have hnext : 10 * mantissa + Text.digitValue c < limit :=
      Nat.lt_of_le_of_lt (Text.le_digitsValue _ ds) hfits
    have hroom : (scale == 28) = false := by
      rw [beq_eq_false_iff_ne]
      omega
    rw [readDigits]
    simp only [hroom, Bool.and_false, Bool.false_eq_true, if_false, hc, if_true, hnext]
    rw [ih hds hfits (by omega), Nat.add_right_comm, Nat.add_assoc]
    rfl

/-! ## The text of a number -/

/-- The digits that are written in front of the point, and those behind it. -/
structure IsWritten (d : Decimal) (whole fraction : Text) : Prop where
  text_eq : d.text = (if d.negative then ['-'] else []) ++ whole ++
    (if d.scale = 0 then [] else '.' :: fraction)
  digits : ∀ c ∈ whole ++ fraction, c.isDigit = true
  whole_ne_nil : whole ≠ []
  length_fraction : fraction.length = d.scale
  value : Text.digitsValue 0 (whole ++ fraction) = d.mantissa

theorem exists_isWritten (d : Decimal) : ∃ whole fraction, IsWritten d whole fraction := by
  have hlength := Text.length_padLeft (d.scale + 1) '0' (Text.ofNat d.mantissa)
  refine ⟨_, _, ⟨rfl, ?_, ?_, ?_, ?_⟩⟩
  · rw [List.take_append_drop]
    exact fun _ => Text.isDigit_of_mem_padLeft
  · intro hnil
    have hzero := congrArg List.length hnil
    rw [List.length_take, List.length_nil] at hzero
    omega
  · rw [List.length_drop]
    omega
  · rw [List.take_append_drop]
    exact Text.digitsValue_padLeft _ _

variable {d : Decimal} {whole fraction : Text}

theorem ofParts?_parts (d : Decimal) : ofParts? d.negative d.mantissa d.scale =
    some { d with negative := d.negative && d.mantissa != 0 } :=
  dif_pos ⟨d.mantissa_lt, d.scale_le⟩

/-- All digits are read, and the point where it stands. -/
theorem IsWritten.readDigits_eq (h : IsWritten d whole fraction) :
    readDigits 0 0 false false (whole ++ if d.scale = 0 then [] else '.' :: fraction) =
      some (d.mantissa, d.scale) := by
  obtain ⟨hwhole, hfraction⟩ := List.forall_mem_append.1 h.digits
  have hvalue := h.value
  rw [Text.digitsValue_append] at hvalue
  have hmantissa := d.mantissa_lt
  have hfits : Text.digitsValue 0 whole < limit := by
    have hle := Text.le_digitsValue (Text.digitsValue 0 whole) fraction
    omega
  rw [readDigits_append hwhole hfits]
  simp only [Bool.false_or, ne_eq, h.whole_ne_nil, not_false_eq_true, decide_true]
  split
  · rename_i hscale
    obtain rfl : fraction = [] := List.eq_nil_of_length_eq_zero (h.length_fraction.trans hscale)
    rw [hscale, ← hvalue]
    rfl
  · change readDigits (Text.digitsValue 0 whole) 0 true true fraction = _
    have hscale := d.scale_le
    rw [readDigits_fraction hfraction (by omega) (by rw [h.length_fraction]; omega), hvalue,
      h.length_fraction, Nat.zero_add]

theorem IsWritten.not_signed (h : IsWritten d whole fraction) (t : Text) : ¬ Signed (whole ++ t) := by
  obtain ⟨c, rest, rfl⟩ := List.exists_cons_of_ne_nil h.whole_ne_nil
  have hc := h.digits c (by simp)
  intro hsigned
  rcases signed_cons_iff.1 hsigned with rfl | rfl
  · cases hc
  · cases hc

theorem readPlain?_text (d : Decimal) :
    readPlain? d.text = some { d with negative := d.negative && d.mantissa != 0 } := by
  obtain ⟨whole, fraction, h⟩ := exists_isWritten d
  have hread := h.readDigits_eq
  have hsign := h.not_signed (if d.scale = 0 then [] else '.' :: fraction)
  rw [h.text_eq, ← ofParts?_parts d]
  cases d.negative with
  | true =>
    rw [if_pos rfl, List.append_assoc, List.singleton_append, readPlain?_minus, hread, Option.bind_some]
  | false =>
    rw [if_neg Bool.false_ne_true, List.nil_append, readPlain?_of_not_signed hsign, hread,
      Option.bind_some]

theorem trim_text (d : Decimal) : d.text.trim = d.text := by
  obtain ⟨whole, fraction, h⟩ := exists_isWritten d
  refine Text.trim_eq_self fun c hc => ?_
  have hcases : c = '-' ∨ c = '.' ∨ c ∈ whole ++ fraction := by
    rw [h.text_eq] at hc
    simp only [List.mem_append] at hc ⊢
    rcases hc with (hc | hc) | hc
    · split at hc
      · exact .inl (List.mem_singleton.1 hc)
      · cases hc
    · exact .inr (.inr (.inl hc))
    · split at hc
      · cases hc
      · rcases List.mem_cons.1 hc with rfl | hc
        · exact .inr (.inl rfl)
        · exact .inr (.inr (.inr hc))
  rcases hcases with rfl | rfl | hc
  · rfl
  · rfl
  · exact Text.isWhite_of_isDigit (h.digits c hc)

theorem read_text (d : Decimal) :
    read d.text = .ok { d with negative := d.negative && d.mantissa != 0 } := by
  have hread : readUnmarked? d.text = some { d with negative := d.negative && d.mantissa != 0 } := by
    rw [readUnmarked?, readPlain?_text]
    rfl
  have honce : SignedOnce d.text := signedOnce_of_readUnmarked? hread
  rw [← trim_text d] at honce hread
  exact (read_ok_iff_of_signedOnce honce).2 hread

/-- The text of a number is read as a number with the same mantissa and scale, and with the same sign
unless it is a minus zero. -/
theorem number_read_back (d : Decimal) : ∃ t, (Value.number d).text? = some t ∧
    read t = .ok { d with negative := d.negative && d.mantissa != 0 } ∧
    (read t = .ok d ↔ ¬ (d.negative = true ∧ d.mantissa = 0)) := by
  refine ⟨d.text, rfl, read_text d, ?_⟩
  rw [read_text, Except.ok.injEq]
  cases d with
  | mk negative mantissa scale hmantissa hscale => cases negative <;> simp

end SeedChain.Decimal
