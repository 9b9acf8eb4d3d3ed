import SeedChain.Bytes.Utf8
/-!
# Base64

The standard alphabet with required padding. A text is read only if it is the written form of some
bytes: bits that belong to no byte must be zero.

Main fact: what is written is read back (`ofBase64?_toBase64`).
-/

namespace SeedChain.Bytes

/-- The digit for a value below 64. -/
def base64Digit (n : Nat) : Char :=
  if n < 26 then Char.ofNat ('A'.toNat + n)
  else if n < 52 then Char.ofNat ('a'.toNat + (n - 26))
  else if n < 62 then Char.ofNat ('0'.toNat + (n - 52))
  else if n = 62 then '+'
  else '/'

/-- The value of a digit. -/
def base64Value? (c : Char) : Option Nat :=
  if 'A' ≤ c ∧ c ≤ 'Z' then some (c.toNat - 'A'.toNat)
  else if 'a' ≤ c ∧ c ≤ 'z' then some (c.toNat - 'a'.toNat + 26)
  else if '0' ≤ c ∧ c ≤ '9' then some (c.toNat - '0'.toNat + 52)
  else if c = '+' then some 62
  else if c = '/' then some 63
  else none

/-- Three bytes make four digits; one or two left over are padded. -/
def toBase64 : Bytes → Text
  | [] => []
  | [a] => [base64Digit (a.toNat / 4), base64Digit (a.toNat % 4 * 16), '=', '=']
  | [a, b] =>
    [base64Digit (a.toNat / 4), base64Digit (a.toNat % 4 * 16 + b.toNat / 16),
      base64Digit (b.toNat % 16 * 4), '=']
  | a :: b :: c :: bs =>
    base64Digit (a.toNat / 4) :: base64Digit (a.toNat % 4 * 16 + b.toNat / 16) ::
      base64Digit (b.toNat % 16 * 4 + c.toNat / 64) :: base64Digit (c.toNat % 64) :: toBase64 bs

def ofBase64? : Text → Option Bytes
  | [] => some []
  | [a, b, '=', '='] => do
    let v ← base64Value? a
    let w ← base64Value? b
    if w % 16 = 0 then some [UInt8.ofNat (v * 4 + w / 16)] else none
  | [a, b, c, '='] => do
    let v ← base64Value? a
    let w ← base64Value? b
    let x ← base64Value? c
    if x % 4 = 0 then some [UInt8.ofNat (v * 4 + w / 16), UInt8.ofNat (w % 16 * 16 + x / 4)]
    else none
  | a :: b :: c :: d :: t => do
    let v ← base64Value? a
    let w ← base64Value? b
    let x ← base64Value? c
    let y ← base64Value? d
    return UInt8.ofNat (v * 4 + w / 16) :: UInt8.ofNat (w % 16 * 16 + x / 4) ::
      UInt8.ofNat (x % 4 * 64 + y) :: (← ofBase64? t)
  | _ => none

/-! ## Reading what is written -/

theorem base64Value?_base64Digit {n : Nat} (h : n < 64) : base64Value? (base64Digit n) = some n := by
  revert n
  decide

/-- No digit is taken for padding. -/
theorem base64Digit_ne_padding {n : Nat} (h : n < 64) : base64Digit n ≠ '=' := by
  intro heq
  have hvalue := base64Value?_base64Digit h
  rw [heq] at hvalue
  cases hvalue

/-- A group that does not end in padding gives three bytes. -/
theorem ofBase64?_cons {d : Char} (hd : d ≠ '=') (a b c : Char) (t : Text) :
    ofBase64? (a :: b :: c :: d :: t) = (do
      let v ← base64Value? a
      let w ← base64Value? b
      let x ← base64Value? c
      let y ← base64Value? d
      return UInt8.ofNat (v * 4 + w / 16) :: UInt8.ofNat (w % 16 * 16 + x / 4) ::
        UInt8.ofNat (x % 4 * 64 + y) :: (← ofBase64? t)) := by
  rw [ofBase64?]
  · exact fun _ heq _ => hd heq
  · exact fun heq _ => hd heq

theorem ofBase64?_toBase64 (bs : Bytes) : ofBase64? (toBase64 bs) = some bs := by
  fun_induction toBase64 bs with
  | case1 => rfl
  | case2 a =>
    have ha := a.toNat_lt
    have hbits : a.toNat % 4 * 16 % 16 = 0 := by omega
    have hbyte : a.toNat / 4 * 4 + a.toNat % 4 * 16 / 16 = a.toNat := by omega
    simp (disch := omega) only [ofBase64?, base64Value?_base64Digit, Option.bind_eq_bind,
      Option.bind_some, hbits, if_true, hbyte, UInt8.ofNat_toNat]
  | case3 a b =>
    have ha := a.toNat_lt
    have hb := b.toNat_lt
    have hbits : b.toNat % 16 * 4 % 4 = 0 := by omega
    have hfirst : a.toNat / 4 * 4 + (a.toNat % 4 * 16 + b.toNat / 16) / 16 = a.toNat := by omega
    have hsecond : (a.toNat % 4 * 16 + b.toNat / 16) % 16 * 16 + b.toNat % 16 * 4 / 4 = b.toNat := by
      omega
    have hdigit : base64Digit (b.toNat % 16 * 4) ≠ '=' := base64Digit_ne_padding (by omega)
    rw [ofBase64?]
    · simp (disch := omega) only [base64Value?_base64Digit, Option.bind_eq_bind, Option.bind_some,
        hbits, if_true, hfirst, hsecond, UInt8.ofNat_toNat]
    · exact hdigit
  | case4 a b c bs ih =>
    have ha := a.toNat_lt
    have hb := b.toNat_lt
    have hc := c.toNat_lt
    have hfirst : a.toNat / 4 * 4 + (a.toNat % 4 * 16 + b.toNat / 16) / 16 = a.toNat := by omega
    have hsecond : (a.toNat % 4 * 16 + b.toNat / 16) % 16 * 16 + (b.toNat % 16 * 4 + c.toNat / 64) / 4 =
        b.toNat := by omega
    have hthird : (b.toNat % 16 * 4 + c.toNat / 64) % 4 * 64 + c.toNat % 64 = c.toNat := by omega
    have hdigit : base64Digit (c.toNat % 64) ≠ '=' := base64Digit_ne_padding (by omega)
    rw [ofBase64?_cons hdigit, ih]
    simp (disch := omega) only [base64Value?_base64Digit, Option.bind_eq_bind, Option.bind_some,
      Option.pure_def, hfirst, hsecond, hthird, UInt8.ofNat_toNat]

theorem isWhite_base64Digit {n : Nat} (h : n < 64) : Text.isWhite (base64Digit n) = false := by
  revert n
  decide

theorem not_white_of_mem_toBase64 (bs : Bytes) : ∀ c ∈ toBase64 bs, Text.isWhite c = false := by
  have hpadding : Text.isWhite '=' = false := rfl
  fun_induction toBase64 bs with
  | case1 => exact nofun
  | case2 a =>
    have ha := a.toNat_lt
    simp (disch := omega) [isWhite_base64Digit, hpadding]
  | case3 a b =>
    have ha := a.toNat_lt
    have hb := b.toNat_lt
    simp (disch := omega) [isWhite_base64Digit, hpadding]
  | case4 a b c bs ih =>
    have ha := a.toNat_lt
    have hb := b.toNat_lt
    have hc := c.toNat_lt
    simp (disch := omega) only [List.forall_mem_cons, isWhite_base64Digit, true_and]
    exact ih

/-- No byte is read from less than one character. -/
theorem length_of_ofBase64? {t : Text} {bs : Bytes} (h : ofBase64? t = some bs) :
    bs.length ≤ t.length := by
  fun_induction ofBase64? t generalizing bs with
  | case1 =>
    obtain rfl := Option.some.inj h
    exact Nat.le_refl 0
  | case2 a b =>
    simp only [Option.bind_eq_bind, Option.bind_eq_some_iff, Option.ite_none_right_eq_some,
      Option.some.injEq] at h
    obtain ⟨v, -, w, -, -, rfl⟩ := h
    simp
  | case3 a b c =>
    simp only [Option.bind_eq_bind, Option.bind_eq_some_iff, Option.ite_none_right_eq_some,
      Option.some.injEq] at h
    obtain ⟨v, -, w, -, x, -, -, rfl⟩ := h
    simp
  | case4 a b c d t _ _ ih =>
    simp only [Option.bind_eq_bind, Option.bind_eq_some_iff, Option.pure_def, Option.some.injEq] at h
    obtain ⟨v, -, w, -, x, -, y, -, bytes, hbytes, rfl⟩ := h
    have hlength := ih hbytes
    simp only [List.length_cons]
    omega
  | case5 => cases h

end SeedChain.Bytes
