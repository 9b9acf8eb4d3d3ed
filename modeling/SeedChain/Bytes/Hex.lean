import SeedChain.Bytes.Utf8
/-!
# Hexadecimal text

Two digits per byte, written in lower case and read in either case.

Main fact: what is written is read back (`ofHex?_toHex`).
-/

namespace SeedChain

/-- The value of a hexadecimal digit. -/
def Text.hexDigit? (c : Char) : Option Nat :=
  if c.isDigit then some (c.toNat - '0'.toNat)
  else if 'a' ≤ c ∧ c ≤ 'f' then some (c.toNat - 'a'.toNat + 10)
  else if 'A' ≤ c ∧ c ≤ 'F' then some (c.toNat - 'A'.toNat + 10)
  else none

namespace Bytes

def toHex (bs : Bytes) : Text :=
  bs.flatMap fun b => [Nat.digitChar (b.toNat / 16), Nat.digitChar (b.toNat % 16)]

/-- Reads pairs of digits; an odd number of them is refused. -/
def ofHex? : Text → Option Bytes
  | [] => some []
  | [_] => none
  | high :: low :: t => do
    let h ← Text.hexDigit? high
    let l ← Text.hexDigit? low
    return UInt8.ofNat (16 * h + l) :: (← ofHex? t)

/-! ## Reading what is written -/

theorem hexDigit?_digitChar {n : Nat} (h : n < 16) : Text.hexDigit? (Nat.digitChar n) = some n := by
  revert n
  decide

theorem isWhite_digitChar {n : Nat} (h : n < 16) : Text.isWhite (Nat.digitChar n) = false := by
  revert n
  decide

theorem ofHex?_toHex (bs : Bytes) : ofHex? (toHex bs) = some bs := by
  induction bs with
  | nil => rfl
  | cons b bs ih =>
    have hb := b.toNat_lt
    have hbyte : 16 * (b.toNat / 16) + b.toNat % 16 = b.toNat := by omega
    have hcons : toHex (b :: bs) =
        Nat.digitChar (b.toNat / 16) :: Nat.digitChar (b.toNat % 16) :: toHex bs := rfl
    simp (disch := omega) only [hcons, ofHex?, hexDigit?_digitChar, ih, Option.bind_eq_bind,
      Option.bind_some, Option.pure_def, hbyte, UInt8.ofNat_toNat]

theorem not_white_of_mem_toHex (bs : Bytes) : ∀ c ∈ toHex bs, Text.isWhite c = false := by
  intro c hc
  obtain ⟨b, -, hdigit⟩ := List.mem_flatMap.1 hc
  have hb := b.toNat_lt
  simp only [List.mem_cons, List.not_mem_nil, or_false] at hdigit
  rcases hdigit with rfl | rfl
  · exact isWhite_digitChar (by omega)
  · exact isWhite_digitChar (by omega)

/-- No byte is read from less than one character. -/
theorem length_of_ofHex? {t : Text} {bs : Bytes} (h : ofHex? t = some bs) : bs.length ≤ t.length := by
  fun_induction ofHex? t generalizing bs with
  | case1 =>
    obtain rfl := Option.some.inj h
    exact Nat.le_refl 0
  | case2 => cases h
  | case3 high low t ih =>
    simp only [Option.bind_eq_bind, Option.bind_eq_some_iff, Option.pure_def, Option.some.injEq] at h
    obtain ⟨_, -, _, -, bytes, hbytes, rfl⟩ := h
    have hlength := ih hbytes
    simp only [List.length_cons]
    omega

end Bytes

end SeedChain
