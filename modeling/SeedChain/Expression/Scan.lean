import SeedChain.Expression.Chain
/-!
# Finding expressions

Every `[KEYWORD(` opens a candidate. The scanners look at encoded text, so escaped structure is
invisible to them. A candidate that is incomplete, or whose chain is malformed, is no expression.

Expressions are listed in the order in which they are resolved: what stands inside an expression
closes before it, and neighbours come in reading order.
-/

namespace SeedChain.EscapeCodec

/-- The text goes on with what may follow a seed: the closing bracket or the arrow. -/
def endsSeed : Text → Bool
  | ']' :: _ => true
  | '=' :: '>' :: _ => true
  | _ => false

/-- Splits at the end of a seed: the first `)` outside inner brackets that only blanks separate from
`]` or `=>`. `depth` counts the brackets open inside; the second part begins with that `]` or `=>`. -/
def cutSeed? (depth : Nat) : Text → Option (Text × Text)
  | [] => none
  | c :: t =>
    if c = ')' ∧ depth = 0 ∧ endsSeed (Text.trimStart t) then some ([], Text.trimStart t)
    else
      let inside := if c = '[' then depth + 1 else if c = ']' then depth - 1 else depth
      (cutSeed? inside t).map fun parts => (c :: parts.1, parts.2)

/-- Splits at the end of a chain: the first `]` outside parentheses, of which `depth` are open. -/
def cutChain? (depth : Nat) : Text → Option (Text × Text)
  | [] => none
  | c :: t =>
    if c = ']' ∧ depth = 0 then some ([], t)
    else
      let inside := if c = '(' then depth + 1 else if c = ')' then depth - 1 else depth
      (cutChain? inside t).map fun parts => (c :: parts.1, parts.2)

/-- The type named behind an opening bracket and the text behind the parenthesis that opens the
seed. -/
def readOpening? (t : Text) : Option (Keyword × Text) := do
  let (keyword, rest) ← Keyword.readPrefix? (Text.trimStart t)
  match Text.trimStart rest with
  | '(' :: seed => some (keyword, seed)
  | _ => none

/-- The calls of an expression, from the `]` or `=>` behind its seed on, and the text behind the
expression. -/
def readCalls? (codec : EscapeCodec) : Text → Option (List Invocation × Text)
  | ']' :: rest => some ([], rest)
  | '=' :: '>' :: t => do
    let (chain, rest) ← cutChain? 0 t
    let calls ← (codec.readChain chain).toOption
    return (calls, rest)
  | _ => none

/-- The expression that begins with the first character of an encoded text, which stands at `offset`. -/
def expressionAt? (codec : EscapeCodec) (offset : Nat) (t : Text) : Option Expression :=
  match t with
  | '[' :: inner => do
    let (keyword, behind) ← readOpening? inner
    let (seed, close) ← cutSeed? 0 behind
    let (invocations, rest) ← codec.readCalls? close
    let matched := t.take (t.length - rest.length)
    return {
      keyword
      seed := codec.decode .escaped seed
      invocations
      matched := codec.decode .escaped matched
      span := ⟨offset, offset + Text.byteLength matched⟩ }
  | _ => none

/-- The expressions of an encoded text that stands at `offset`, in reading order. -/
def expressionsFrom (codec : EscapeCodec) (offset : Nat) : Text → List Expression
  | [] => []
  | c :: t =>
    (codec.expressionAt? offset (c :: t)).toList ++
      codec.expressionsFrom (offset + c.utf8Size) t

/-- Resolution order: by the end, and of two that end together the one that begins later first. -/
def resolvesBefore (e f : Expression) : Bool :=
  e.span.stop < f.span.stop || (e.span.stop == f.span.stop && f.span.start ≤ e.span.start)

/-- All expressions of an encoded text, in resolution order. -/
def findAll (codec : EscapeCodec) (encoded : Text) : List Expression :=
  (codec.expressionsFrom 0 encoded).mergeSort resolvesBefore

end SeedChain.EscapeCodec
