import SeedChain.Escape
import SeedChain.Chain.Lexer
import SeedChain.Expression
/-!
# Reading a chain

The calls an encoded chain stands for. Arguments are split at the delimiter of the codec, unless the
list holds the separator ` %% `, which then splits it instead: `f(a,b %% c,d)` has the two arguments
`a,b` and `c,d`.
-/

namespace SeedChain.EscapeCodec

/-- Splits arguments in place of the delimiter. -/
def separator : Text := " %% ".toList

/-- The arguments of an encoded parameter list; a blank list has none. -/
def splitParams (codec : EscapeCodec) (params : Text) : List Text :=
  if params.isBlank then []
  else
    let parts :=
      if Text.hasInfix separator params then Text.splitAround separator params
      else Text.split codec.delimiter params
    parts.map (codec.decode .literal)

/-- The call a group stands for. -/
def invocation (codec : EscapeCodec) (token : ChainToken) : Invocation where
  name := codec.decode .literal token.name.trim
  args := (token.params.map codec.splitParams).getD []
  source := codec.decode .escaped token.source

/-- The calls of an encoded chain. -/
def readChain (codec : EscapeCodec) (chain : Text) : Except LexError (List Invocation) :=
  (·.map codec.invocation) <$> Lexer.tokenize chain

end SeedChain.EscapeCodec
