import SeedChain.Text.Basic
/-!
# Chain tokens

The groups a chain of operations is split into, and the ways in which a chain can be malformed.
-/

namespace SeedChain

/-- One call of a chain as written: `upper`, `append(x,y)` or `replace  (a, b)`. -/
structure ChainToken where
  name : Text
  /-- The text between the outer parentheses; absent for a bare name. -/
  params : Option Text
  /-- The exact text of the group, inner blanks included. -/
  source : Text
  deriving DecidableEq, Repr

/-- A call written without parentheses. -/
def ChainToken.bare (name : Text) : ChainToken := ⟨name, none, name⟩

/-- Format errors of a chain. Positions count characters. -/
inductive LexError where
  /-- A closing parenthesis inside a name. -/
  | unbalancedParen (name : Text) (position : Nat)
  /-- A parameter list that the text never closes; the position is that of its parenthesis. -/
  | unterminated (name : Text) (position : Nat)
  /-- A parameter list without a name before it. -/
  | missingName (position : Nat)
  deriving DecidableEq, Repr

/-- The wording of a format error. -/
def LexError.message : LexError → String
  | unbalancedParen name position =>
    s!"Unbalanced ')' in '{name.str}' at position {position}"
  | unterminated name position =>
    s!"Unterminated parameter list for '{name.str}' starting at position {position}"
  | missingName position => s!"Missing function name before '(' at position {position}"

end SeedChain
