import SeedChain.Evaluator.Expression
import SeedChain.Expression.Scan
/-!
# Resolving a text

Each pass finds the expressions of the text and evaluates them in resolution order until one has a
replacement, which is put in its place; the next pass begins on the new text. An expression without a
replacement is settled: it stays as written, and so does every expression around it. The text is
resolved when a pass makes no substitution. A limit on the substitutions bounds texts that go on
producing expressions.
-/

namespace SeedChain

/-! ## Settled spans -/

/-- The part of a text that a span covers. -/
def Span.slice (s : Span) (t : Text) : Text :=
  Text.takeBytes (s.stop - s.start) (Text.dropBytes s.start t)

/-- A text with the part that a span covers replaced. -/
def Span.replaceIn (s : Span) (replacement t : Text) : Text :=
  Text.takeBytes s.start t ++ replacement ++ Text.dropBytes s.stop t

/-- Where a span is after `replaced` has given way to `length` bytes; nowhere if the two overlap. -/
def Span.shift? (replaced : Span) (length : Nat) (s : Span) : Option Span :=
  if s.stop ≤ replaced.start then some s
  else if replaced.stop ≤ s.start then
    let start := s.start - replaced.stop + replaced.start + length
    some ⟨start, start + (s.stop - s.start)⟩
  else none

/-- The span of an expression in the text before encoding. -/
def EscapeCodec.spanIn (codec : EscapeCodec) (encoded : Text) (e : Expression) : Span :=
  let start := Text.byteLength (codec.decode .escaped (Text.takeBytes e.span.start encoded))
  ⟨start, start + Text.byteLength e.matched⟩

/-! ## Passes -/

/-- A substitution to be made: what is replaced, and by what. -/
structure Substitution where
  span : Span
  replacement : Text
  deriving DecidableEq, Repr

/-- A text on its way, and the spans in it that stay as written. -/
structure Progress where
  text : Text
  settled : List Span
  deriving DecidableEq, Repr

/-- The text and the settled spans after a substitution. -/
def Progress.substitute (p : Progress) (s : Substitution) : Progress where
  text := s.span.replaceIn s.replacement p.text
  settled := p.settled.filterMap (s.span.shift? (Text.byteLength s.replacement))

/-- Evaluates expressions in order until one has a replacement. An expression around a settled span
is passed over; one that is replaced by itself is settled. -/
def Progress.scan (env : Environment) (codec : EscapeCodec) (encoded : Text) (p : Progress) :
    List Expression → Store → Except EvalError (Progress × Option Substitution) × Store
  | [], store => (.ok (p, none), store)
  | e :: es, store =>
    let span := codec.spanIn encoded e
    if p.settled.any (·.within span) then scan env codec encoded p es store
    else
      let settle := { p with settled := p.settled ++ [span] }
      match e.evaluate env store with
      | (.error error, store) => (.error error, store)
      | (.ok none, store) => scan env codec encoded settle es store
      | (.ok (some replacement), store) =>
        if replacement = span.slice p.text then scan env codec encoded settle es store
        else (.ok (p, some ⟨span, replacement⟩), store)

/-- One pass over the text. -/
def Progress.pass (env : Environment) (p : Progress) (store : Store) :
    Except EvalError (Progress × Option Substitution) × Store :=
  let codec := EscapeCodec.avoiding env.delimiter p.text
  let encoded := codec.encode p.text
  p.scan env codec encoded (codec.findAll encoded) store

/-- Makes passes until one makes no substitution, `left` substitutions being allowed. -/
def Progress.resolve (env : Environment) (limit left : Nat) (p : Progress) (store : Store) :
    Except EvalError Text × Store :=
  match p.pass env store with
  | (.error error, store) => (.error error, store)
  | (.ok (p, none), store) => (.ok p.text, store)
  | (.ok (p, some substitution), store) =>
    match left with
    | 0 => (.error (.passLimit limit), store)
    | left + 1 => resolve env limit left (p.substitute substitution) store

/-- Resolves every expression of a text. -/
def process (env : Environment) (limit : Nat) (t : Text) (store : Store) :
    Except EvalError Text × Store :=
  Progress.resolve env limit limit ⟨t, []⟩ store

/-! ## Single expressions -/

/-- The expressions of a text in resolution order. -/
def expressions (delimiter : Char) (t : Text) : List Expression :=
  let codec := EscapeCodec.avoiding delimiter t
  codec.findAll (codec.encode t)

/-- The expression that is resolved first, and its seed. -/
def firstExpression (env : Environment) (t : Text) (store : Store) :
    Except EvalError (Option (Expression × Value)) :=
  match expressions env.delimiter t with
  | [] => .ok none
  | e :: _ => (build env e.keyword e.seed store).map fun seed => some (e, seed)

/-- The same, where a seed that cannot be built means that there is no expression. -/
def checkedExpression (env : Environment) (t : Text) (store : Store) :
    Except EvalError (Option (Expression × Value)) :=
  match firstExpression env t store with
  | .ok found => .ok found
  | .error error => if error.unseenFile?.isSome then .error error else .ok none

end SeedChain
