import SeedChain.Error
import SeedChain.Json.Basic
/-!
# Paths into documents

A path names one place of a document by fields and indices, as in `items[-1].name`. An empty path is
the document itself. Reading follows it, `assign` writes a value there and creates missing objects on
the way, `delete` takes one member or item out.

`assign` and `delete` return the document also when they fail: what `assign` has created on the way
to a place that cannot be written stays.
-/

namespace SeedChain

/-- One step into a document. -/
inductive PathSegment where
  /-- The member of an object. -/
  | field (name : Text)
  /-- The item of an array; a negative index counts from the end. -/
  | index (n : Int)
  deriving DecidableEq, Repr

/-- A place in a document, from the root on. -/
abbrev JsonPath := List PathSegment

namespace JsonPath

/-! ## Reading a path -/

/-- The text without a quote character that stands at both of its ends. -/
def unquote? (quote : Char) (t : Text) : Option Text :=
  match t with
  | c :: rest => if c = quote then ([quote] : Text).isSuffixOf? rest else none
  | [] => none

/-- The step that the text between brackets stands for: an index if it is an integer, else a field,
which may be quoted. -/
def bracketed (inner : Text) : PathSegment :=
  let inner := inner.trim
  match Text.integer? inner with
  | some n => .index n
  | none => .field ((unquote? '"' inner <|> unquote? '\'' inner).getD inner)

/-- A field that has been read, unless it is empty. -/
def fieldStep (field : Text) : JsonPath := if field = [] then [] else [.field field]

/-- Where reading stands: in a field, or behind an opening bracket. -/
inductive Reading where
  | field (read : Text)
  | bracket (read : Text)

/-- Reads the steps of a path; `none` when a bracket is never closed. -/
def readFrom : Reading → Text → Option JsonPath
  | .field name, [] => some (fieldStep name)
  | .bracket _, [] => none
  | .field name, c :: t =>
    if c = '.' then (fieldStep name ++ ·) <$> readFrom (.field []) t
    else if c = '[' then (fieldStep name ++ ·) <$> readFrom (.bracket []) t
    else readFrom (.field (name ++ [c])) t
  | .bracket inner, c :: t =>
    if c = ']' then (bracketed inner :: ·) <$> readFrom (.field []) t
    else readFrom (.bracket (inner ++ [c])) t

/-- Reads a path. Blanks around it and a leading `$` are left out. -/
def read (t : Text) : Except Reason JsonPath :=
  let path := match t.trim with | '$' :: t => t | t => t
  match readFrom (.field []) path with
  | some steps => .ok steps
  | none => .error (.unclosedBracket t)

end JsonPath

namespace Json

/-- The position of an index among `length` items. -/
def position? (n : Int) (length : Nat) : Option Nat :=
  let position := if n < 0 then (length : Int) + n else n
  if 0 ≤ position ∧ position < length then some position.toNat else none

/-- The item an index names, with its position. -/
def item? (n : Int) (items : List Json) : Option (Nat × Json) :=
  (position? n items.length).bind fun i => items[i]?.map (i, ·)

/-- The value at a path. An index names the member of an object whose key is its text. -/
def lookup : JsonPath → Json → Option Json
  | [], doc => some doc
  | .field name :: path, .object members => (Entries.get? name members).bind (lookup path)
  | .index n :: path, .object members => (Entries.get? (Text.ofInt n) members).bind (lookup path)
  | .index n :: path, .array items => (item? n items).bind fun (_, item) => lookup path item
  | _ :: _, _ => none

/-- Writes a value at a path. A field of `null` turns it into an object. -/
def assign (value : Json) : JsonPath → Json → Except Reason Unit × Json
  | [], _ => (.ok (), value)
  | .field name :: path, .null =>
    let (result, child) := assign value path .null
    (result, .object [(name, child)])
  | .field name :: path, .object members =>
    let (result, child) := assign value path ((Entries.get? name members).getD .null)
    (result, .object (Entries.set name child members))
  | .index n :: path, .array items =>
    match item? n items with
    | some (i, item) =>
      let (result, child) := assign value path item
      (result, .array (items.set i child))
    | none => (.error (.indexOutOfBounds n items.length), .array items)
  | .field name :: _, doc => (.error (.fieldOfNonObject name), doc)
  | .index n :: _, doc => (.error (.indexOfNonArray n), doc)

/-- Takes out what a path names; false when there is nothing. An index names items of arrays
only. -/
def delete : JsonPath → Json → Bool × Json
  | [.field name], .object members =>
    ((Entries.get? name members).isSome, .object (Entries.remove name members))
  | [.index n], .array items =>
    match item? n items with
    | some (i, _) => (true, .array (items.eraseIdx i))
    | none => (false, .array items)
  | .field name :: path, .object members =>
    match Entries.get? name members with
    | some child =>
      let (found, child) := delete path child
      (found, .object (Entries.set name child members))
    | none => (false, .object members)
  | .index n :: path, .array items =>
    match item? n items with
    | some (i, item) =>
      let (found, child) := delete path item
      (found, .array (items.set i child))
    | none => (false, .array items)
  | _, doc => (false, doc)

end Json

end SeedChain
