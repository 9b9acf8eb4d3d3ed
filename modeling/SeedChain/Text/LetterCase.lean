import SeedChain.Text.Basic
import SeedChain.Text.LetterCase.Data
/-!
# Upper and lower case

Case mapping of characters and texts by the Unicode rules: one letter may become several (`ß` to
`SS`), and in a whole text the letter `Σ` becomes `ς` at the end of a word. `title` works letter by
letter and so knows no end of word.
-/

namespace SeedChain.LetterCase

/-- A letter mapped by the first table entry that names it, else itself. -/
def mapLetter (expansions : List (Nat × List Nat)) (shifts : List Shift) (c : Char) : Text :=
  match expansions.lookup c.toNat with
  | some codes => codes.map Char.ofNat
  | none =>
    match shifts.find? (·.holds c.toNat) with
    | some s => [Char.ofNat (c.toNat + s.offset).toNat]
    | none => [c]

/-- The upper case of one letter. -/
def upperLetter (c : Char) : Text := mapLetter upperExpansions upperShifts c

/-- The lower case of one letter. -/
def lowerLetter (c : Char) : Text := mapLetter lowerExpansions lowerShifts c

def isUpper (c : Char) : Bool := uppercaseRuns.any (·.holds c.toNat)

def isLower (c : Char) : Bool := lowercaseRuns.any (·.holds c.toNat)

def isCased (c : Char) : Bool := casedRuns.any (·.holds c.toNat)

def isCaseIgnorable (c : Char) : Bool := caseIgnorableRuns.any (·.holds c.toNat)

/-- The nearest character that casing does not ignore is a cased letter. -/
def nextIsCased (t : Text) : Bool := ((t.dropWhile isCaseIgnorable).head?.map isCased).getD false

/-- Lower-cases a text whose reversed beginning has been read already: a `Σ` with a cased letter
before it and none behind it stands at the end of a word. -/
def lowerAfter (before : Text) : Text → Text
  | [] => []
  | c :: t =>
    let image :=
      if c = 'Σ' then [if nextIsCased before && !nextIsCased t then 'ς' else 'σ'] else lowerLetter c
    image ++ lowerAfter (c :: before) t

end SeedChain.LetterCase

namespace SeedChain

namespace Text

open LetterCase

def upper (t : Text) : Text := t.flatMap upperLetter

def lower (t : Text) : Text := lowerAfter [] t

/-- Title case, when a word has begun or not: its first letter upper case, the others lower case. -/
def titleFrom (inWord : Bool) : Text → Text
  | [] => []
  | c :: t =>
    if isWhite c then c :: titleFrom false t
    else (if inWord then lowerLetter c else upperLetter c) ++ titleFrom true t

/-- The first letter of every word in upper case, the rest in lower case. -/
def title (t : Text) : Text := titleFrom false t

/-- Hyphenation behind a given character: a hyphen goes before each capital that follows a small
letter or a digit. -/
def hyphenateAfter (previous : Option Char) : Text → Text
  | [] => []
  | c :: t =>
    let breaks := isUpper c && previous.any fun p => isLower p || p.isDigit
    (if breaks then ['-'] else []) ++ lowerLetter c ++ hyphenateAfter (some c) t

/-- The lower-case hyphenated spelling of a camel-case name: `removeStart` is `remove-start`. -/
def hyphenate (t : Text) : Text := hyphenateAfter none t

/-- A text with its ASCII letters in lower case. -/
def asciiLower (t : Text) : Text := t.map Char.toLower

end Text

end SeedChain
