import SeedChain.Decimal.Literal
/-!
# Tables

A table has a header and rows of cells; rows may be of any lengths, and a cell that a row does not
have counts as empty. Columns are named by the header or by number.
-/

namespace SeedChain

/-- A delimited table. -/
structure Table where
  header : List Text
  rows : List (List Text)
  /-- The character between cells where the table is written. -/
  delimiter : Char
  deriving DecidableEq, Repr

namespace Table

/-- The cell of a row in a column. -/
def cell (column : Nat) (row : List Text) : Text := row.getD column []

/-- The column that a text names: by the header, else by number. -/
def column? (table : Table) (name : Text) : Option Nat :=
  let name := name.trim
  let byHeader := table.header.findIdx? fun title => title.trim == name
  (byHeader <|> Text.natural? Text.maxSize name).filter (· < table.header.length)

/-- The cells of a column. -/
def column (table : Table) (index : Nat) : List Text := table.rows.map (cell index)

/-! ## Sorting -/

/-- The first cell comes strictly before the second one: by amount when both are numbers, else by
code points. -/
def cellBefore (a b : Text) : Bool :=
  match Decimal.read? a, Decimal.read? b with
  | some x, some y => !y.le x
  | _, _ => decide (a < b)

/-- Puts an element behind those it does not come before, the list being in reverse. -/
def insertBehind {α : Type} (before : α → α → Bool) (x : α) : List α → List α
  | [] => [x]
  | y :: ys => if before x y then y :: insertBehind before x ys else x :: y :: ys

/-- Sorts by insertion. Each element is compared with the sorted ones from the last to the first, so
equal elements keep their order. -/
def insertionSort {α : Type} (before : α → α → Bool) (xs : List α) : List α :=
  (xs.foldl (fun sorted x => insertBehind before x sorted) []).reverse

/-- The comparison ranks the elements: which of two comes first is the same as which has fewer elements
before it. -/
def ranks {α : Type} (before : α → α → Bool) (xs : List α) : Bool :=
  let ranked := xs.map fun x => (x, xs.countP (before · x))
  ranked.all fun (x, i) => ranked.all fun (y, j) => before x y == decide (i < j)

/-- Up to so many elements are sorted by insertion, whatever the comparison is. -/
def insertionLimit : Nat := 20

/-- The elements as stable sorting leaves them: few are inserted, and more are in the order that the
comparison ranks them in. Where it does not rank them the outcome is unspecified: any order, or a stop of the
program. -/
def sorted? {α : Type} (before : α → α → Bool) (xs : List α) : Option (List α) :=
  if xs.length ≤ insertionLimit || ranks before xs then some (insertionSort before xs) else none

/-- One row comes strictly before another one when a column is sorted. -/
def rowBefore (index : Nat) (descending : Bool) (a b : List Text) : Bool :=
  if descending then cellBefore (cell index b) (cell index a)
  else cellBefore (cell index a) (cell index b)

/-- The table with its rows sorted by a column, unless their order is unspecified. -/
def sort? (table : Table) (index : Nat) (descending : Bool) : Option Table :=
  (sorted? (rowBefore index descending) table.rows).map fun rows => { table with rows }

/-- The table without some of its rows. -/
def removeRows (table : Table) (unwanted : List Nat) : Table :=
  let kept := table.rows.zipIdx.filter fun (_, i) => !unwanted.contains i
  { table with rows := kept.map (·.1) }

end Table

end SeedChain
