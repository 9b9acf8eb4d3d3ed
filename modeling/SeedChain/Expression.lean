import SeedChain.Keyword
/-!
# Bracket expressions

`[KEYWORD(seed) => chain]` as found in a text: the type it names, the seed, the calls of its chain,
and where it stands. Seeds and sources keep their escapes, so an expression can be written back;
names and arguments are final text.
-/

namespace SeedChain

/-- A part of a text, as offsets in UTF-8 bytes: `stop` is the offset behind its last byte. -/
structure Span where
  start : Nat
  stop : Nat
  deriving DecidableEq, Repr

namespace Span

/-- The first span lies inside the second one. -/
def within (inner outer : Span) : Bool := outer.start ≤ inner.start && inner.stop ≤ outer.stop

end Span

/-- A single call of a chain: a name and its positional arguments. -/
structure Invocation where
  name : Text
  args : List Text
  /-- The text the call is written as. -/
  source : Text
  deriving DecidableEq, Repr

/-- The call of an operation, written without blanks. -/
def Invocation.call (name : Text) (args : List Text) : Invocation :=
  ⟨name, args, if args = [] then name else name ++ '(' :: Text.join [','] args ++ [')']⟩

/-- One recognised expression. -/
structure Expression where
  keyword : Keyword
  /-- The seed, escapes in place. -/
  seed : Text
  invocations : List Invocation
  /-- The expression as written, escapes in place. -/
  matched : Text
  /-- Where it stands in the encoded text. -/
  span : Span
  deriving DecidableEq, Repr

/-- The expression in its canonical spelling: `[KEYWORD(seed) => call call]`. -/
def Expression.canonical (e : Expression) : Text :=
  let opening := '[' :: e.keyword.letters ++ '(' :: e.seed ++ [')']
  if e.invocations = [] then opening ++ [']']
  else opening ++ " => ".toList ++ Text.join [' '] (e.invocations.map (·.source)) ++ [']']

end SeedChain
