import SeedChain.Operation.OfNumber
/-!
# Operations on lists

Positions count from 0. Most operations give a list with the same delimiter.
-/

namespace SeedChain.ItemList

/-- An operation on the items alone. -/
def simple (name : String) (f : List Text → List Text) : Operation ItemList :=
  .fixed name 0 fun _ l _ => goOn (.list { l with items := f l.items })

/-- The list with other items. -/
def goOnWith (l : ItemList) (items : List Text) : Outcome := goOn (.list { l with items })

/-- Goes on with an item, if there is one. -/
def goOnItem (item : Option Text) : Outcome := goOnIf (item.map .text)

/-- The item at a position, the first one if none is given. -/
def itemAt : Body ItemList := fun _ l args => do
  let index := (← args.int? 0 "item").getD 0
  goOnItem ((l.position? index).bind fun i => l.items[i]?)

/-- The items with one put in; a position beyond the end is the end. -/
def insertAt : Body ItemList := fun _ l args => do
  let index := ((← args.int? 0 "insert").getD 0).toNat
  l.goOnWith (l.items.take index ++ args.getD 1 [] :: l.items.drop index)

/-- The items without the one at a position; nothing happens without a position. -/
def removeAt : Body ItemList := fun _ l args => do
  match ← args.int? 0 "remove" with
  | none => goOn (.list l)
  | some index => l.goOnWith (((l.position? index).map l.items.eraseIdx).getD l.items)

/-- The items with every item equal to a search text replaced. -/
def substitute (search replacement : Text) (items : List Text) : List Text :=
  items.map fun item => if item = search then replacement else item

/-- The position of the first item equal to a text, -1 without one. -/
def indexOf (needle : Text) (items : List Text) : Int :=
  match items.findIdx? (· == needle) with
  | some i => i
  | none => -1

/-- The items between two positions. -/
def sublist : Body ItemList := fun _ l args => do
  let start ← args.int? 0 "sublist"
  let stop ← args.int? 1 "sublist"
  l.goOnWith (slice (start.getD 0) (stop.getD l.items.length) l.items)

/-- The sum of the items. -/
def total : Body ItemList := fun _ l _ => do
  let d ← argument "sum" (Decimal.sum l.items)
  goOn (.number d)

def operations : List (Operation ItemList) := Operation.withShared [
  simple "ascending" sorted,
  simple "descending" fun items => (sorted items).reverse,
  .fixed "first" 0 fun _ l _ => goOnItem l.items.head?,
  .fixed "last" 0 fun _ l _ => goOnItem l.items.getLast?,
  .fixed "item" 1 itemAt,
  .fixed "size" 0 fun _ l _ => goOn (.ofCount l.items.length),
  .fixed "length" 0 fun _ l _ => goOn (.ofCount l.items.length),
  .variadic "append" fun _ l args => l.goOnWith (l.items ++ args.rest),
  .variadic "prepend" fun _ l args => l.goOnWith (args.rest ++ l.items),
  .fixed "insert" 2 insertAt,
  .fixed "remove" 1 removeAt,
  .variadic "removeItems" fun _ l args =>
    l.goOnWith (l.items.filter fun item => !args.rest.contains item),
  .fixed "replace" 2 fun _ l args => do
    let search ← args.required 0 "replace"
    l.goOnWith (substitute search (args.getD 1 []) l.items),
  simple "distinct" distinct,
  simple "reverse" List.reverse,
  simple "pack" fun items => items.filter fun item => !item.isBlank,
  .fixed "contains" 1 fun _ l args => goOn (.ofBool (l.items.contains (args.getD 0 []))),
  .fixed "index" 1 fun _ l args => goOn (.number (.ofInt (indexOf (args.getD 0 []) l.items))),
  .fixed "sublist" 2 sublist,
  .fixed "join" 1 fun _ l args => goOn (.text (Text.join (args.getD 0 []) l.items)),
  .fixed "sum" 0 total,
  .fixed "count" 1 fun _ l args => goOn (.ofCount (l.items.count (args.getD 0 [])))]

end SeedChain.ItemList
