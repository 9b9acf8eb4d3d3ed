import SeedChain.Bytes.Hex
import SeedChain.Text.Integer
/-!
# References in XML text

Five characters are always written as references. Reading knows their five names and numeric
references; an ampersand that begins no reference is an error.
-/

namespace SeedChain.Xml

def escapeChar : Char → Text
  | '<' => "&lt;".toList
  | '>' => "&gt;".toList
  | '&' => "&amp;".toList
  | '\'' => "&apos;".toList
  | '"' => "&quot;".toList
  | c => [c]

/-- A text with its special characters as references. -/
def escape (t : Text) : Text := t.flatMap escapeChar

/-- The number that hexadecimal digits denote, at least one. -/
def hexValue? (t : Text) : Option Nat :=
  if t = [] then none
  else t.foldlM (fun n c => (Text.hexDigit? c).map (16 * n + ·)) 0

/-- The character with a code other than zero. -/
def charOfCode? (code : Nat) : Option Char :=
  if code ≠ 0 ∧ code.isValidChar then some (Char.ofNat code) else none

/-- The character that a reference names. -/
def reference? : Text → Option Char
  | '#' :: 'x' :: digits => (hexValue? digits).bind charOfCode?
  | '#' :: digits => (Text.digits? digits).bind charOfCode?
  | ['l', 't'] => some '<'
  | ['g', 't'] => some '>'
  | ['a', 'm', 'p'] => some '&'
  | ['a', 'p', 'o', 's'] => some '\''
  | ['q', 'u', 'o', 't'] => some '"'
  | _ => none

/-- The name of a reference goes on with this character. -/
def inReference (c : Char) : Bool := c != ';' && c != '&'

/-- The text with its references resolved. -/
def unescape? : Text → Option Text
  | [] => some []
  | c :: t =>
    if c = '&' then
      match _h : t.dropWhile inReference with
      | ';' :: rest => do
        let char ← reference? (t.takeWhile inReference)
        return char :: (← unescape? rest)
      | _ => none
    else (c :: ·) <$> unescape? t
termination_by t => t.length
decreasing_by
  · have := (List.dropWhile_sublist inReference (l := t)).length_le
    rw [_h] at this
    simp only [List.length_cons] at *
    omega
  · simp

end SeedChain.Xml
