import SeedChain.Table.Basic
/-!
# Tables in text

Every line is a record of cells with a delimiter between them. A cell may be quoted: inside quotes
every character stands for itself, and a quote is written twice. Quotes open only at the beginning of
a cell; what follows a closing quote is taken as it is. Blank lines are skipped. The first record is
the header.

Written cells are quoted only when they hold a delimiter, a quote or a line break, and a record that
would be a blank line is written as a pair of quotes.
-/

namespace SeedChain.Table

/-! ## Reading -/

/-- Where a reader stands. -/
inductive Place where
  | lineStart
  | cellStart
  | inCell
  | inQuotes
  /-- Behind a quote inside quotes: it closes them unless a second one follows. -/
  | behindQuote
  deriving DecidableEq, Repr

/-- A reader between two characters: the cells of the record so far, and the cell so far. -/
structure Reader where
  place : Place
  record : List Text
  cell : Text
  deriving DecidableEq, Repr

namespace Reader

def start : Reader := ⟨.lineStart, [], []⟩

def isLineEnd (c : Char) : Bool := c == '\r' || c == '\n'

def add (r : Reader) (place : Place) (c : Char) : Reader := { r with place, cell := r.cell ++ [c] }

/-- The record with the cell that is being read. -/
def completed (r : Reader) : List Text := r.record ++ [r.cell]

/-- Takes a character outside of quotes: it ends the cell, or the record, or belongs to the cell. -/
def outside (delimiter : Char) (r : Reader) (c : Char) : Option (List Text) × Reader :=
  if c = delimiter then (none, ⟨.cellStart, r.completed, []⟩)
  else if isLineEnd c then (some r.completed, start)
  else (none, r.add .inCell c)

/-- Takes a character; a record when it is complete. -/
def step (delimiter : Char) (r : Reader) (c : Char) : Option (List Text) × Reader :=
  match r.place with
  | .lineStart =>
    if isLineEnd c then (none, r)
    else if c = '"' then (none, { r with place := .inQuotes })
    else outside delimiter r c
  | .cellStart =>
    if c = '"' then (none, { r with place := .inQuotes }) else outside delimiter r c
  | .inCell => outside delimiter r c
  | .inQuotes =>
    if c = '"' then (none, { r with place := .behindQuote }) else (none, r.add .inQuotes c)
  | .behindQuote => if c = '"' then (none, r.add .inQuotes c) else outside delimiter r c

/-- The records of a text, read on from a place. A record at the end needs no line end, and an open
quote no closing one. -/
def records (delimiter : Char) (r : Reader) : Text → List (List Text)
  | [] => if r.place = .lineStart then [] else [r.completed]
  | c :: t =>
    let (record, r) := r.step delimiter c
    record.toList ++ records delimiter r t

end Reader

/-- The delimiter of a table for a delimiter of lists: only ASCII characters can be one. -/
def delimiterFor (c : Char) : Char := if c.toNat < 0x80 then c else ','

/-- Reads a table. A byte order mark at its beginning is left out. -/
def read (delimiter : Char) (t : Text) : Table :=
  let t := match t.trim with | '\uFEFF' :: t => t | t => t
  let records := Reader.start.records delimiter t
  ⟨records.headD [], records.tail, delimiter⟩

/-! ## Writing -/

/-- The cell cannot be written as it is. -/
def needsQuotes (delimiter : Char) (cell : Text) : Bool :=
  cell.any fun c => c == delimiter || c == '"' || Reader.isLineEnd c

/-- A cell, quoted if need be. -/
def writeCell (delimiter : Char) (cell : Text) : Text :=
  if needsQuotes delimiter cell then
    '"' :: cell.flatMap (fun c => if c = '"' then ['"', '"'] else [c]) ++ ['"']
  else cell

/-- A record without its line end. -/
def writeRecord (delimiter : Char) (cells : List Text) : Text :=
  let line := Text.join [delimiter] (cells.map (writeCell delimiter))
  if line = [] then ['"', '"'] else line

/-- The table in text, without line ends behind it. -/
def text (table : Table) : Text :=
  let records := (if table.header = [] then [] else [table.header]) ++ table.rows
  Text.dropEndWhile Reader.isLineEnd
    (records.flatMap fun cells => writeRecord table.delimiter cells ++ ['\n'])

end SeedChain.Table
