import SeedChain.Keyword
import SeedChain.Operation.Arity
/-!
# Errors of evaluation

`Reason` lists every cause for which a seed cannot be read as its type or an argument cannot be
used; `EvalError` is what stops an evaluation. The wording of each is in one function.
-/

namespace SeedChain

/-- Why a text, an argument or a path cannot be used. -/
inductive Reason where
  /-- A required argument, numbered from 1, is absent. -/
  | missingArgument (position : Nat)
  | notAnInteger (text : Text)
  | emptyNumber
  | notANumber (text : Text)
  | numericOverflow
  | divisionByZero
  /-- A number of decimal places that is negative or does not fit 32 bits. -/
  | invalidPlaces (places : Int)
  | unknownKeyword (text : Text)
  | invalidJson
  /-- The markup itself is broken: an unfinished construct, or an end tag that closes nothing. -/
  | invalidXml
  /-- A text run or an attribute value holds a reference that denotes no character. -/
  | invalidXmlText
  | invalidAttribute (element : Text)
  | invalidAttributeValue (element : Text)
  | unclosedElement (element : Text)
  | secondRoot (element : Text)
  | noRoot
  | missingKey (line : Text)
  | unterminatedHeader (line : Text)
  | invalidBase64
  | invalidHex
  /-- A bracket in a document path is never closed. -/
  | unclosedBracket (path : Text)
  | indexOutOfBounds (index : Int) (length : Nat)
  | fieldOfNonObject (field : Text)
  | indexOfNonArray (index : Int)
  /-- A position in a step of an element path is never closed. -/
  | unclosedPosition (step : Text)
  | invalidPosition (position step : Text)
  | attributeNotLast (path : Text)
  | noColumn (column : Text)
  /-- The cells of a column do not rank the rows: their order after sorting is unspecified, and sorting may
  even stop the program. -/
  | unspecifiedOrder (column : Text)
  | notARowIndex (text : Text)
  | notAnAsciiDelimiter (c : Char)
  | dateOutOfRange
  | invalidDatePattern (pattern : Text)
  /-- A count of milliseconds that lies outside the calendar. -/
  | epochOutOfRange (text : Text)
  | notADate (text : Text)
  | noCollaborator (keyword : Keyword)
  /-- A file that a seed names does not hold UTF-8 text. -/
  | unreadableFile (name : Text)
  /-- The host has not looked yet whether there is a file that a seed names. -/
  | unseenFile (name : Text)
  /-- The host refused the seed, in its own words. -/
  | refused (message : Text)
  deriving DecidableEq, Repr

namespace Reason

/-- The wording of a reason. -/
def message : Reason → String
  | missingArgument n => s!"argument {n} is required"
  | notAnInteger t => s!"'{t.str}' is not an integer"
  | emptyNumber => "empty number"
  | notANumber t => s!"'{t.str}' is not a number"
  | numericOverflow => "numeric overflow"
  | divisionByZero => "division by zero"
  | invalidPlaces n => s!"negative decimal places: {n}"
  | unknownKeyword t => s!"Unknown type keyword: {t.str}"
  | invalidJson => "Invalid JSON"
  | invalidXml => "Invalid XML"
  | invalidXmlText => "Invalid text"
  | invalidAttribute name => s!"Invalid attribute in <{name.str}>"
  | invalidAttributeValue name => s!"Invalid attribute value in <{name.str}>"
  | unclosedElement name => s!"Unclosed element <{name.str}>"
  | secondRoot name => s!"Second root element <{name.str}>"
  | noRoot => "XML document has no root element"
  | missingKey line => s!"Missing key in line '{line.str}'"
  | unterminatedHeader line => s!"Unterminated section header '{line.str}'"
  | invalidBase64 => "Invalid base64"
  | invalidHex => "Invalid hex"
  | unclosedBracket path => s!"Missing ']' in path '{path.str}'"
  | indexOutOfBounds index length => s!"Array index {index} out of bounds (length: {length})"
  | fieldOfNonObject field => s!"Cannot set field '{field.str}' on a non-object"
  | indexOfNonArray index => s!"Cannot set index {index} on a non-array"
  | unclosedPosition step => s!"Missing ']' in path step '{step.str}'"
  | invalidPosition position step =>
    s!"Invalid position '{position.str}' in path step '{step.str}'"
  | attributeNotLast path => s!"Attribute step must be last in '{path.str}'"
  | noColumn column => s!"no column '{column.str}'"
  | unspecifiedOrder column => s!"the cells of column '{column.str}' do not rank the rows"
  | notARowIndex t => s!"'{t.str}' is not a row index"
  | notAnAsciiDelimiter c => s!"'{c}' is not an ASCII delimiter"
  | dateOutOfRange => "date out of range"
  | invalidDatePattern pattern => s!"invalid date pattern '{pattern.str}'"
  | epochOutOfRange t => s!"'{t.str}' is out of range"
  | notADate t => s!"'{t.str}' is not a recognised date"
  | noCollaborator keyword => s!"No collaborator registered for {keyword}"
  | unreadableFile name => s!"Cannot read '{name.str}': stream did not contain valid UTF-8"
  | unseenFile name => s!"File '{name.str}' has not been looked up"
  | refused m => m.str

end Reason

/-- What stops an evaluation. -/
inductive EvalError where
  /-- The seed cannot be read as a value of the type. -/
  | conversion (keyword : Keyword) (value : Text) (reason : Reason)
  /-- The type has no operation of this name. -/
  | unknownFunction (keyword : Keyword) (name : Text)
  /-- More arguments than an operation of fixed arity declares. -/
  | arity (keyword : Keyword) (name : Text) (expected : Arity) (actual : Nat)
  /-- An argument that the operation cannot use. -/
  | invalidArgument (function : String) (reason : Reason)
  /-- The text kept producing expressions past the limit of substitutions. -/
  | passLimit (limit : Nat)
  deriving DecidableEq, Repr

/-- The file that has to be looked up before the evaluation can go on. -/
def EvalError.unseenFile? : EvalError → Option Text
  | conversion _ _ (.unseenFile name) => some name
  | _ => none

/-- The wording of an evaluation error. -/
def EvalError.message : EvalError → String
  | conversion keyword value reason =>
    s!"Cannot convert '{value.str}' to {keyword}: {reason.message}"
  | unknownFunction keyword name => s!"Unknown function '{name.str}' for {keyword}"
  | arity keyword name expected actual =>
    s!"Function '{name.str}' for {keyword} takes {expected} argument(s), got {actual}"
  | invalidArgument function reason => s!"Invalid argument for '{function}': {reason.message}"
  | passLimit limit => s!"Evaluation did not settle after {limit} passes"

end SeedChain
