import SeedChain.Text.Basic
/-!
# Integers in text

Reading and writing of decimal integers. A literal is an optional sign and ASCII digits, at least
one; leading zeros are allowed, blanks are not.
-/

namespace SeedChain.Text

/-- The value of a digit character. -/
def digitValue (c : Char) : Nat := c.toNat - '0'.toNat

/-- The number a list of digits denotes, read after the number `n`. -/
def digitsValue (n : Nat) (ds : Text) : Nat := ds.foldl (fun n d => 10 * n + digitValue d) n

/-- A number written in digits only. -/
def digits? (t : Text) : Option Nat :=
  if t ≠ [] ∧ t.all Char.isDigit then some (digitsValue 0 t) else none

/-- A number with an optional plus sign, at most `limit`. -/
def natural? (limit : Nat) (t : Text) : Option Nat :=
  (digits? (match t with | '+' :: ds => ds | ds => ds)).filter (· ≤ limit)

/-- An integer with an optional sign that fits 64 bits. -/
def integer? (t : Text) : Option Int :=
  let value : Option Int :=
    match t with
    | '-' :: ds => (digits? ds).map fun n => -(n : Int)
    | '+' :: ds => (digits? ds).map Int.ofNat
    | ds => (digits? ds).map Int.ofNat
  value.filter fun n => decide (-0x8000000000000000 ≤ n) && decide (n < 0x8000000000000000)

/-- The largest number of 64 bits: the bound of sizes and positions. -/
def maxSize : Nat := 0xffffffffffffffff

/-- The digits of a number. -/
def ofNat (n : Nat) : Text := Nat.toDigits 10 n

/-- An integer with a minus sign when it is negative. -/
def ofInt (n : Int) : Text :=
  if n < 0 then '-' :: ofNat n.natAbs else ofNat n.natAbs

/-! ## Values of digits -/

theorem digitsValue_append (n : Nat) (s t : Text) :
    digitsValue n (s ++ t) = digitsValue (digitsValue n s) t := List.foldl_append

/-- Every further digit makes the number larger, or leaves it zero. -/
theorem le_digitsValue (n : Nat) (ds : Text) : n ≤ digitsValue n ds := by
  induction ds generalizing n with
  | nil => exact Nat.le_refl n
  | cons c ds ih =>
    have hnext : n ≤ 10 * n + digitValue c := by omega
    exact Nat.le_trans hnext (ih _)

theorem digitsValue_zeros (k : Nat) (ds : Text) :
    digitsValue 0 (List.replicate k '0' ++ ds) = digitsValue 0 ds := by
  induction k with
  | zero => rfl
  | succ k ih => exact ih

/-- What a number becomes when digits are put behind it. -/
theorem digitsValue_eq (n : Nat) (ds : Text) :
    digitsValue n ds = n * Nat.pow 10 ds.length + digitsValue 0 ds := by
  induction ds generalizing n with
  | nil => simp [digitsValue]
  | cons c ds ih =>
    have hpow : Nat.pow 10 (c :: ds).length = 10 * Nat.pow 10 ds.length := Nat.pow_succ'
    change digitsValue (10 * n + digitValue c) ds = _ + digitsValue (10 * 0 + digitValue c) ds
    rw [ih (10 * n + digitValue c), ih (10 * 0 + digitValue c), hpow, Nat.mul_zero, Nat.zero_add,
      Nat.add_mul, Nat.mul_left_comm, ← Nat.mul_assoc, Nat.add_assoc]

theorem digitValue_lt {c : Char} (h : c.isDigit = true) : digitValue c < 10 := by
  simp only [Char.isDigit, Bool.and_eq_true, decide_eq_true_eq, UInt32.le_iff_toNat_le] at h
  have hhigh : c.toNat ≤ 57 := h.2
  have hzero : '0'.toNat = 48 := rfl
  unfold digitValue
  omega

/-- Digits denote less than the power of ten that has one more digit. -/
theorem digitsValue_lt {ds : Text} (h : ∀ c ∈ ds, c.isDigit = true) (n : Nat) :
    digitsValue n ds < (n + 1) * Nat.pow 10 ds.length := by
  induction ds generalizing n with
  | nil => simp [digitsValue]
  | cons c ds ih =>
    have hc := digitValue_lt (h c List.mem_cons_self)
    have hstep : 10 * n + digitValue c + 1 ≤ (n + 1) * 10 := by omega
    calc digitsValue n (c :: ds)
        < (10 * n + digitValue c + 1) * Nat.pow 10 ds.length :=
          ih (fun d hd => h d (List.mem_cons_of_mem c hd)) _
      _ ≤ (n + 1) * 10 * Nat.pow 10 ds.length := Nat.mul_le_mul_right _ hstep
      _ = (n + 1) * Nat.pow 10 (c :: ds).length := by
          rw [Nat.mul_assoc]
          exact congrArg ((n + 1) * ·) Nat.pow_succ'.symm

/-! ## Reading what is written -/

theorem isDigit_of_mem_ofNat {n : Nat} {c : Char} (h : c ∈ ofNat n) : c.isDigit = true :=
  Nat.isDigit_of_mem_toDigits (by decide) (by decide) h

theorem ofNat_ne_nil (n : Nat) : ofNat n ≠ [] := Nat.toDigits_ne_nil

theorem digitsValue_ofNat (n : Nat) : digitsValue 0 (ofNat n) = n := Nat.ofDigitChars_ten_toDigits

theorem length_ofNat_le_iff {n k : Nat} (hk : 0 < k) : (ofNat n).length ≤ k ↔ n < Nat.pow 10 k :=
  Nat.length_toDigits_le_iff (by decide) hk

theorem digits?_eq {ds : Text} (hdigits : ∀ c ∈ ds, c.isDigit = true) (hne : ds ≠ []) :
    digits? ds = some (digitsValue 0 ds) := if_pos ⟨hne, List.all_eq_true.2 hdigits⟩

/-- Digits with or without a minus sign in front. -/
def signed (negative : Bool) (ds : Text) : Text := if negative then '-' :: ds else ds

/-- What digits with or without a minus sign in front denote. -/
def signedValue (negative : Bool) (ds : Text) : Int :=
  if negative then -(digitsValue 0 ds : Int) else digitsValue 0 ds

theorem integer?_signed {ds : Text} (hdigits : ∀ c ∈ ds, c.isDigit = true) (hne : ds ≠ [])
    (negative : Bool) (n : Int) : integer? (signed negative ds) = some n ↔
      signedValue negative ds = n ∧ -0x8000000000000000 ≤ n ∧ n < 0x8000000000000000 := by
  have hread := digits?_eq hdigits hne
  cases negative with
  | true =>
    rw [signed, if_pos rfl, signedValue, if_pos rfl]
    simp [integer?, hread, Option.filter_eq_some_iff]
  | false =>
    obtain ⟨c, ds', rfl⟩ := List.exists_cons_of_ne_nil hne
    have hdigit : c.isDigit = true := hdigits c List.mem_cons_self
    rw [signed, if_neg Bool.false_ne_true, signedValue, if_neg Bool.false_ne_true]
    unfold integer?
    split
    · rename_i hsign
      obtain ⟨rfl, -⟩ := List.cons.inj hsign
      exact absurd hdigit (by decide)
    · rename_i hsign
      obtain ⟨rfl, -⟩ := List.cons.inj hsign
      exact absurd hdigit (by decide)
    · simp [hread, Option.filter_eq_some_iff]

theorem ofInt_eq_signed (n : Int) : ofInt n = signed (decide (n < 0)) (ofNat n.natAbs) := by
  by_cases h : n < 0 <;> simp [ofInt, signed, h]

/-- An integer of 64 bits is read back from its text. -/
theorem integer?_ofInt {n : Int} (hmin : -0x8000000000000000 ≤ n) (hmax : n < 0x8000000000000000) :
    integer? (ofInt n) = some n := by
  rw [ofInt_eq_signed, integer?_signed (fun _ => isDigit_of_mem_ofNat) (ofNat_ne_nil _)]
  refine ⟨?_, hmin, hmax⟩
  rw [signedValue, digitsValue_ofNat]
  simp only [decide_eq_true_eq]
  split <;> omega

theorem mem_ofInt {n : Int} {c : Char} (h : c ∈ ofInt n) : c = '-' ∨ c.isDigit = true := by
  unfold ofInt at h
  split at h
  · exact (List.mem_cons.1 h).imp_right isDigit_of_mem_ofNat
  · exact .inr (isDigit_of_mem_ofNat h)

theorem isWhite_of_isDigit {c : Char} (h : c.isDigit = true) : isWhite c = false := by
  simp only [Char.isDigit, Bool.and_eq_true, decide_eq_true_eq, UInt32.le_iff_toNat_le] at h
  simp only [isWhite, Bool.or_eq_false_iff, Bool.and_eq_false_iff, decide_eq_false_iff_not,
    beq_eq_false_iff_ne]
  have hlow : 48 ≤ c.toNat := h.1
  have hhigh : c.toNat ≤ 57 := h.2
  omega

theorem trim_ofInt (n : Int) : trim (ofInt n) = ofInt n := by
  refine trim_eq_self fun c hc => ?_
  rcases mem_ofInt hc with rfl | hdigit
  · decide
  · exact isWhite_of_isDigit hdigit

/-- A text filled up with a character on its left. -/
def padLeft (width : Nat) (fill : Char) (t : Text) : Text :=
  List.replicate (width - t.length) fill ++ t

theorem length_padLeft (width : Nat) (fill : Char) (t : Text) :
    (padLeft width fill t).length = max width t.length := by
  rw [padLeft, List.length_append, List.length_replicate]
  omega

theorem digitsValue_padLeft (width n : Nat) : digitsValue 0 (padLeft width '0' (ofNat n)) = n := by
  rw [padLeft, digitsValue_zeros, digitsValue_ofNat]

theorem isDigit_of_mem_padLeft {width n : Nat} {c : Char} (h : c ∈ padLeft width '0' (ofNat n)) :
    c.isDigit = true := by
  rcases List.mem_append.1 h with hzero | hc
  · rw [List.eq_of_mem_replicate hzero]
    rfl
  · exact isDigit_of_mem_ofNat hc

end SeedChain.Text
