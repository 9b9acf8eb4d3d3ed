import SeedChain.Xml.Basic
import SeedChain.Xml.Escape
/-!
# Printing XML

One printer with two layouts: everything on one line, or the content of each element that holds
elements on lines of its own, indented by two blanks per level. An element without content is
closed in its own tag, and one that holds only text stays on one line.
-/

namespace SeedChain.Xml

/-- A line break before content at a depth. -/
def newline (depth : Nat) : Text := '\n' :: List.replicate (2 * depth) ' '

/-- The attributes of a tag. -/
def renderAttributes (attributes : Attributes) : Text :=
  attributes.flatMap fun (key, value) => ' ' :: key ++ "=\"".toList ++ escape value ++ ['"']

/-- Content at a depth; `broken` when each part of it begins a line. -/
def Forest.render (indented : Bool) (depth : Nat) (broken : Bool) : Forest → Text
  | nil => []
  | text t rest =>
    (if broken then newline depth else []) ++ escape t ++ render indented depth broken rest
  | element name attributes children rest =>
    let inner := indented && children.hasElements
    let body :=
      match children with
      | nil => "/>".toList
      | children =>
        '>' :: render indented (depth + 1) inner children ++
          (if inner then newline depth else []) ++ "</".toList ++ name ++ ['>']
    (if broken then newline depth else []) ++ '<' :: name ++ renderAttributes attributes ++ body ++
      render indented depth broken rest

/-- The element in one of the layouts. -/
def Element.print (indented : Bool) (e : Element) : Text :=
  (Forest.ofElement e).render indented 0 false

end SeedChain.Xml
