import SeedChain.Text.Basic
/-!
# UTF-8

Encoding of texts as bytes, and two ways back: `decode?` accepts exactly well-formed bytes, and
`decodeLossy` writes one replacement character for every longest ill-formed beginning of a
sequence.
-/

namespace SeedChain

/-- A sequence of bytes. -/
abbrev Bytes := List UInt8

namespace Bytes

/-- The bytes of one character. -/
def ofChar (c : Char) : Bytes :=
  let n := c.toNat
  let byte (k : Nat) : UInt8 := UInt8.ofNat k
  if n < 0x80 then [byte n]
  else if n < 0x800 then [byte (0xC0 + n / 0x40), byte (0x80 + n % 0x40)]
  else if n < 0x10000 then
    [byte (0xE0 + n / 0x1000), byte (0x80 + n / 0x40 % 0x40), byte (0x80 + n % 0x40)]
  else
    [byte (0xF0 + n / 0x40000), byte (0x80 + n / 0x1000 % 0x40), byte (0x80 + n / 0x40 % 0x40),
      byte (0x80 + n % 0x40)]

/-- The bytes of a text. -/
def ofText (t : Text) : Bytes := t.flatMap ofChar

/-- The values allowed for the second byte of a sequence, which rule out overlong forms,
surrogates and values past the last code point; `none` for a byte that leads no sequence. -/
def secondRange (lead : Nat) : Option (Nat × Nat) :=
  if 0xC2 ≤ lead ∧ lead ≤ 0xDF then some (0x80, 0xBF)
  else if lead = 0xE0 then some (0xA0, 0xBF)
  else if lead = 0xED then some (0x80, 0x9F)
  else if 0xE1 ≤ lead ∧ lead ≤ 0xEF then some (0x80, 0xBF)
  else if lead = 0xF0 then some (0x90, 0xBF)
  else if 0xF1 ≤ lead ∧ lead ≤ 0xF3 then some (0x80, 0xBF)
  else if lead = 0xF4 then some (0x80, 0x8F)
  else none

/-- The number of bytes after the lead byte, and the value the lead byte contributes. -/
def leadParts (lead : Nat) : Nat × Nat :=
  if lead < 0xE0 then (1, lead % 0x20) else if lead < 0xF0 then (2, lead % 0x10) else (3, lead % 8)

/-- Reads `missing` continuation bytes; on success the code point, on failure nothing, with the
number of bytes taken in both cases. -/
def continuation : (missing taken value : Nat) → Bytes → Option Nat × Nat
  | 0, taken, value, _ => (some value, taken)
  | _ + 1, taken, _, [] => (none, taken)
  | missing + 1, taken, value, b :: bs =>
    if 0x80 ≤ b.toNat ∧ b.toNat ≤ 0xBF then
      continuation missing (taken + 1) (0x40 * value + b.toNat % 0x40) bs
    else (none, taken)

/-- The character at the head of a byte sequence, or nothing when it is ill-formed, and the number
of bytes taken behind the first one. -/
def headChar (b : UInt8) (bs : Bytes) : Option Char × Nat :=
  let lead := b.toNat
  if lead < 0x80 then (some (Char.ofNat lead), 0)
  else
    match secondRange lead, bs with
    | some (low, high), second :: rest =>
      if low ≤ second.toNat ∧ second.toNat ≤ high then
        let (following, value) := leadParts lead
        let (code, taken) :=
          continuation (following - 1) 1 (0x40 * value + second.toNat % 0x40) rest
        (code.map Char.ofNat, taken)
      else (none, 0)
    | _, _ => (none, 0)

/-- The characters of a byte sequence, `none` standing for each ill-formed part. -/
def decodeParts : Bytes → List (Option Char)
  | [] => []
  | b :: bs =>
    let head := headChar b bs
    head.1 :: decodeParts (bs.drop head.2)
termination_by bs => bs.length
decreasing_by
  simp only [List.length_drop, List.length_cons]
  omega

/-- The text that well-formed bytes encode. -/
def decode? (bs : Bytes) : Option Text := (decodeParts bs).mapM id

/-- The text with a replacement character for every ill-formed part. -/
def decodeLossy (bs : Bytes) : Text := (decodeParts bs).map (·.getD '\uFFFD')

end Bytes

end SeedChain
