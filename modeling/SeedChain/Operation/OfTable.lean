import SeedChain.Operation.Basic
/-!
# Operations on tables

Rows are counted from 0 behind the header.
-/

namespace SeedChain.Table

/-- The column in the first argument, which must be there. -/
def requiredColumn (table : Table) (args : Args) (function : String) : Except EvalError Nat :=
  let name := args.getD 0 []
  (table.column? name).elim (refuse function (.noColumn name)) .ok

/-- The cells of a row. -/
def rowAt : Body Table := fun delimiter table args => do
  let index := (← args.int? 0 "row").getD 0
  let row := if 0 ≤ index then table.rows[index.toNat]? else none
  goOnIf (row.map fun cells => .list ⟨cells, delimiter⟩)

/-- The cells of a column. -/
def columnAt : Body Table := fun delimiter table args =>
  goOnIf ((table.column? (args.getD 0 [])).map fun index => .list ⟨table.column index, delimiter⟩)

/-- Keeps the rows with a given cell in a column. -/
def filterRows : Body Table := fun _ table args => do
  let index ← table.requiredColumn args "filter"
  goOn (.csv { table with rows := table.rows.filter fun row => cell index row == args.getD 1 [] })

/-- An operation that sorts the rows by a column. Where their order is unspecified, the refusal stands for
whatever then happens. -/
def sorting (name : String) (descending : Bool) : Operation Table :=
  .fixed name 1 fun _ table args => do
    let index ← table.requiredColumn args name
    match table.sort? index descending with
    | some sorted => goOn (.csv sorted)
    | none => refuse name (.unspecifiedOrder (args.getD 0 []))

/-- The row that an argument names. -/
def rowIndex (t : Text) : Except EvalError Nat :=
  (Text.natural? Text.maxSize t.trim).elim (refuse "removeRows" (.notARowIndex t)) .ok

/-- Changes the delimiter that the table is written with. -/
def setDelimiter : Body Table := fun _ table args =>
  match args.char? 0 with
  | none => goOn (.csv table)
  | some c =>
    if c.toNat < 0x80 then goOn (.csv { table with delimiter := c })
    else refuse "delimiter" (.notAnAsciiDelimiter c)

def operations : List (Operation Table) := Operation.withShared [
  .fixed "headers" 0 fun delimiter table _ => goOn (.list ⟨table.header, delimiter⟩),
  .fixed "row" 1 rowAt,
  .fixed "column" 1 columnAt,
  .fixed "rowCount" 0 fun _ table _ => goOn (.ofCount table.rows.length),
  .fixed "columnCount" 0 fun _ table _ => goOn (.ofCount table.header.length),
  .fixed "filter" 2 filterRows,
  sorting "sortAscending" false,
  sorting "sortDescending" true,
  .variadic "removeRows" fun _ table args => do
    goOn (.csv (table.removeRows (← args.rest.mapM rowIndex))),
  .fixed "delimiter" 1 setDelimiter]

end SeedChain.Table
