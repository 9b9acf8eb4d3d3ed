import SeedChain.Text.Basic
/-!
# Escaping of structural characters

Parentheses, commas and the closing bracket give an expression its shape; a script that needs one
of them as plain data writes a backslash before it. Before any scanning the codec puts a private-use
placeholder in place of each escaped pair, so the scanners never take it for structure, and later
turns the placeholders back, into the bare character or into the escaped pair.

Placeholders are characters that do not occur in the encoded text, so private-use characters of the
text pass through untouched.
-/

namespace SeedChain

/-- How placeholders are turned back into text. -/
inductive Restore where
  /-- The bare character: the text is final data. -/
  | literal
  /-- The character with its backslash: the text will be scanned again. -/
  | escaped
  deriving DecidableEq, Repr

/-- The characters that can be escaped, each with its placeholder. -/
structure EscapeCodec where
  delimiter : Char
  table : List (Char × Char)
  deriving Repr

namespace EscapeCodec

/-- The characters that always carry structure. -/
def structural : List Char := ['(', ')', ',', ']']

/-- The characters that can be escaped under a delimiter. -/
def escapable (delimiter : Char) : List Char :=
  if delimiter ∈ structural then structural else structural ++ [delimiter]

/-- The characters of the two private-use areas that placeholders are drawn from, in order. -/
def privateUse? (i : Nat) : Option Char :=
  if i < 0x1900 then some (Char.ofNat (0xE000 + i))
  else if i < 0x1900 + 0xFFFE then some (Char.ofNat (0xF0000 + (i - 0x1900)))
  else none

def isPrivateUse (c : Char) : Bool :=
  let n := c.toNat
  (0xE000 ≤ n && n ≤ 0xF8FF) || (0xF0000 ≤ n && n ≤ 0xFFFFD)

/-- The first `count` private-use characters that do not occur in a text; fewer when the text uses
up too many. Each occurrence can rule out one candidate, so that many more are considered. -/
def freePlaceholders (count : Nat) (text : Text) : List Char :=
  let used := text.filter isPrivateUse
  let candidates := (List.range (count + used.length)).filterMap privateUse?
  (candidates.filter fun c => !used.contains c).take count

/-- The codec whose placeholders do not occur in `text`. -/
def avoiding (delimiter : Char) (text : Text) : EscapeCodec :=
  let escapable := escapable delimiter
  ⟨delimiter, escapable.zip (freePlaceholders escapable.length text)⟩

/-- The placeholder of a character that can be escaped. -/
def placeholder? (codec : EscapeCodec) (c : Char) : Option Char := codec.table.lookup c

/-- The character a placeholder stands for. -/
def original? (codec : EscapeCodec) (p : Char) : Option Char :=
  (codec.table.find? (·.2 == p)).map (·.1)

def isPlaceholder (codec : EscapeCodec) (c : Char) : Bool := (codec.original? c).isSome

/-- Puts a placeholder in place of every backslash followed by a character that can be escaped. -/
def encode (codec : EscapeCodec) : Text → Text
  | [] => []
  | [c] => [c]
  | c :: d :: t =>
    if c = '\\' then
      match codec.placeholder? d with
      | some p => p :: encode codec t
      | none => c :: encode codec (d :: t)
    else c :: encode codec (d :: t)

/-- What one character of an encoded text stands for. -/
def decodeChar (codec : EscapeCodec) (restore : Restore) (c : Char) : Text :=
  match codec.original? c, restore with
  | some o, .escaped => ['\\', o]
  | some o, .literal => [o]
  | none, _ => [c]

/-- Turns the placeholders back. -/
def decode (codec : EscapeCodec) (restore : Restore) (t : Text) : Text :=
  t.flatMap (codec.decodeChar restore)

/-- Plain text with its escaped pairs turned into the bare characters. -/
def unescape (delimiter : Char) (t : Text) : Text :=
  let codec := avoiding delimiter t
  codec.decode .literal (codec.encode t)

@[simp]
theorem decode_append (codec : EscapeCodec) (restore : Restore) (s t : Text) :
    codec.decode restore (s ++ t) = codec.decode restore s ++ codec.decode restore t := by
  simp [decode]

end EscapeCodec

end SeedChain
