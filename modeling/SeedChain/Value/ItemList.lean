import SeedChain.Escape
import SeedChain.Decimal.Literal
/-!
# Lists of text items

A list remembers the delimiter it is written with. In text, a delimiter behind a backslash belongs to
its item.
-/

namespace SeedChain

/-- Text items in order. -/
structure ItemList where
  items : List Text
  delimiter : Char
  deriving DecidableEq, Repr

namespace ItemList

/-- The items of a text; an empty text has none. -/
def split (delimiter : Char) (t : Text) : List Text :=
  if t = [] then []
  else
    let codec := EscapeCodec.avoiding delimiter t
    (Text.split delimiter (codec.encode t)).map (codec.decode .literal)

def read (delimiter : Char) (t : Text) : ItemList := ⟨split delimiter t, delimiter⟩

/-- The items with the delimiter between them; nothing is escaped. -/
def text (l : ItemList) : Text := Text.join [l.delimiter] l.items

/-- The position of an index, which counts from the end when it is negative. -/
def position? (l : ItemList) (index : Int) : Option Nat :=
  let position := if index < 0 then (l.items.length : Int) + index else index
  if 0 ≤ position ∧ position < l.items.length then some position.toNat else none

/-- Items in ascending order: by amount if all of them are numbers, else by code points. Items that
are equal in that order keep their places. -/
def sorted (items : List Text) : List Text :=
  match items.mapM Decimal.read? with
  | some numbers => ((numbers.zip items).mergeSort fun a b => a.1.le b.1).map (·.2)
  | none => items.mergeSort Text.ordered

/-- The items without those that stand in the list before. -/
def distinct (items : List Text) : List Text :=
  items.foldl (fun kept item => if kept.contains item then kept else kept ++ [item]) []

/-- The part of a list between two positions, which are moved into the list first. -/
def slice {α : Type} (start stop : Int) (xs : List α) : List α :=
  let inside (n : Int) : Nat := (max 0 (min n xs.length)).toNat
  (xs.take (inside stop)).drop (inside start)

end ItemList

end SeedChain
