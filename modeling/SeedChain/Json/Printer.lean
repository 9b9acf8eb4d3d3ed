import SeedChain.Json.Basic
import SeedChain.Bytes.Hex
/-!
# Printing JSON

One printer with two layouts: on one line without blanks, or every item and member on a line of its
own, indented by two blanks per level. Empty containers have no inner lines in either layout.
-/

namespace SeedChain.Json

/-- How a document is laid out. -/
inductive Layout where
  | compact
  | indented
  deriving DecidableEq, Repr

namespace Layout

/-- What goes before an item at a depth. -/
def newline : Layout → Nat → Text
  | compact, _ => []
  | indented, depth => '\n' :: List.replicate (2 * depth) ' '

/-- What goes between a key and its value. -/
def colon : Layout → Text
  | compact => [':']
  | indented => [':', ' ']

end Layout

/-- A character of a string: quotes, backslashes and control characters are escaped. -/
def escapeChar (c : Char) : Text :=
  match c with
  | '"' => ['\\', '"']
  | '\\' => ['\\', '\\']
  | '\x08' => ['\\', 'b']
  | '\x0c' => ['\\', 'f']
  | '\n' => ['\\', 'n']
  | '\r' => ['\\', 'r']
  | '\t' => ['\\', 't']
  | c => if c.toNat < 0x20 then "\\u00".toList ++ Bytes.toHex [c.toNat.toUInt8] else [c]

/-- A string with its quotes. -/
def quote (t : Text) : Text := '"' :: t.flatMap escapeChar ++ ['"']

/-- What separates an item from those that follow. -/
def comma {α : Type} (following : List α) : Text := if following.isEmpty then [] else [',']

mutual

/-- A value that stands at a depth. -/
def render (layout : Layout) (depth : Nat) : Json → Text
  | null => "null".toList
  | bool true => "true".toList
  | bool false => "false".toList
  | number n => n.text
  | string t => quote t
  | array [] => ['[', ']']
  | array items =>
    '[' :: renderItems layout (depth + 1) items ++ layout.newline depth ++ [']']
  | object [] => ['{', '}']
  | object members =>
    '{' :: renderMembers layout (depth + 1) members ++ layout.newline depth ++ ['}']

def renderItems (layout : Layout) (depth : Nat) : List Json → Text
  | [] => []
  | item :: items =>
    layout.newline depth ++ render layout depth item ++ comma items ++
      renderItems layout depth items

def renderMembers (layout : Layout) (depth : Nat) : List (Text × Json) → Text
  | [] => []
  | (key, value) :: members =>
    layout.newline depth ++ quote key ++ layout.colon ++ render layout depth value ++
      comma members ++ renderMembers layout depth members

end

/-- The document in a layout. -/
def print (layout : Layout) (doc : Json) : Text := render layout 0 doc

/-- The document on one line. -/
def compactText (doc : Json) : Text := print .compact doc

end SeedChain.Json
