import SeedChain.Command.Error
import SeedChain.Text.LetterCase
/-!
# The manual

The texts that explain the language, by category.
-/

namespace SeedChain.Manual

/-- The parts of the manual. -/
inductive Category where
  | grammar
  | escaping
  | chains
  | types
  | storage
  | errors
  deriving DecidableEq, Repr

/-- The names of each category. -/
def Category.names : List (String × Category) :=
  [("syntax", .grammar), ("escaping", .escaping), ("escape", .escaping), ("escapes", .escaping),
    ("chains", .chains), ("chain", .chains), ("functions", .chains), ("operations", .chains),
    ("types", .types), ("type", .types), ("variables", .storage), ("variable", .storage),
    ("vars", .storage), ("store", .storage), ("errors", .errors), ("error", .errors)]

/-- The category with a name, whatever the case of its letters. -/
def Category.ofName? (name : Text) : Option Category :=
  Category.names.lookup (Text.lower name).str

/-- Lines that each end with a line break. -/
def ofLines (lines : List String) : Text := lines.flatMap fun line => line.toList ++ ['\n']

/-- The list of the categories, and the basics. -/
def overview : Text := ofLines [
  "TYPEFLOW DOCUMENTATION",
  "",
  "Typeflow resolves typed pipeline expressions embedded in ordinary text. Each",
  "expression turns a seed into a typed value, runs it through a chain of",
  "operations and is replaced by the resulting text.",
  "",
  "DOCUMENTATION CATEGORIES",
  "",
  "  syntax            Expression grammar and how results replace the expression",
  "  escaping          Literal parentheses, commas and brackets inside arguments",
  "  chains            Operation chains, arguments and arity rules",
  "  types             The type keywords and what their seeds look like",
  "  variables         Storing results and resuming them by name",
  "  errors            What happens when an expression cannot be evaluated",
  "",
  "QUICK REFERENCE",
  "",
  "  [TEXT(hello) => upper]              HELLO",
  "  [LIST(b,a,c) => ascending first]    a",
  "  [NUMBER(2.50) => add(1.25)]         3.75",
  "  [TEXT(a\\,b) => append(\\,c)]         a,b,c",
  "  [LIST(x,y) => store(v) size]        2   (and v holds the list)",
  "",
  "Run 'typeflow doc <category>' for detailed documentation.",
  "Run 'typeflow functions [TYPE]' to list the operations of each type.",
  "Run 'typeflow onboard' for a guided tour."]

/-- How expressions are written, and what becomes of them. -/
def grammar : Text := ofLines [
  "SYNTAX - Expression Grammar",
  "",
  "EXPRESSION",
  "  [TYPE(seed)]",
  "  [TYPE(seed) => operation1 operation2(arg) operation3(arg, arg)]",
  "",
  "    TYPE is one of the type keywords (see 'typeflow doc types'). The seed is",
  "    parsed into a value of that type, each operation is applied in order,",
  "    and the final value's text replaces the whole bracket expression.",
  "",
  "    Example:",
  "      Input:  Hello [TEXT(world) => upper]!",
  "      Output: Hello WORLD!",
  "",
  "EMBEDDING",
  "  Expressions may appear anywhere in a larger text. Text around them is left",
  "  untouched, and two identical expressions at different places are each",
  "  replaced on their own.",
  "",
  "NESTING",
  "  An expression may appear inside the seed or arguments of another. The",
  "  innermost expression is resolved first and its result becomes part of the",
  "  outer expression:",
  "",
  "    [LIST(a,[TEXT(b) => upper],c) => join(-)]      a-B-c",
  "",
  "  A result that is itself an expression is resolved again, until no",
  "  expression is left.",
  "",
  "  When a nested expression cannot be evaluated it stays as written, and so",
  "  does the expression around it.",
  "",
  "ORDER",
  "  Side-by-side expressions resolve left to right, so a value stored by one",
  "  can be resumed by a later one:",
  "",
  "    [LIST(a,b,c) => store(x)] has [LIST(x) => size] items",
  "    a,b,c has 3 items",
  "",
  "WHITESPACE",
  "  Whitespace around '=>' and between operations is ignored. Whitespace",
  "  between an operation name and its '(' is allowed:",
  "",
  "    [TEXT(x) => append (y)]                         xy"]

/-- How structural characters are written as data. -/
def escaping : Text := ofLines [
  "ESCAPING - Literal Structure Characters",
  "",
  "Parentheses, commas and the closing bracket give an expression its shape.",
  "To use one of them as plain data, put a backslash in front of it:",
  "",
  "  \\(    literal (",
  "  \\)    literal )",
  "  \\,    literal ,   (also the configured delimiter, if different)",
  "  \\]    literal ]",
  "",
  "  Examples:",
  "    [TEXT(a\\,b) => append(\\,c)]          a,b,c",
  "    [TEXT(f) => append(\\(x\\))]           f(x)",
  "    [LIST(a\\,b,c) => size]               2",
  "",
  "ALTERNATE ARGUMENT SEPARATOR",
  "  When an operation's arguments contain many commas, separate them with",
  "  ' %% ' (space, two percent signs, space) instead. Inside that argument",
  "  list commas are ordinary characters:",
  "",
  "    [TEXT(a-b) => replace(- %% , )]      a, b",
  "",
  "BALANCED PARENTHESES",
  "  Unescaped parentheses inside an argument are fine as long as they pair",
  "  up:",
  "",
  "    [TEXT(x) => append((y))]             x(y)"]

/-- How operations are called. -/
def chains : Text := ofLines [
  "CHAINS - Operations, Arguments and Arity",
  "",
  "CHAIN",
  "  Operations run left to right. Each operation receives the value produced",
  "  by the previous one. Order matters:",
  "",
  "    [LIST(b,a,c) => ascending first]     a",
  "    [LIST(b,a,c) => first ascending]     b",
  "",
  "  An operation may change the type of the value. 'first' turns a LIST into",
  "  TEXT, 'length' turns TEXT into NUMBER, 'extract' pulls TEXT, NUMBER or",
  "  JSON out of a JSON document.",
  "",
  "NAMES",
  "  Every operation answers to its camelCase name and to a hyphenated",
  "  lower-case spelling:",
  "",
  "    removeStart    remove-start",
  "    sortAscending  sort-ascending",
  "",
  "ARGUMENTS",
  "  Arguments are split on the delimiter (',' unless configured otherwise).",
  "  Argument text is used exactly as written, including spaces.",
  "",
  "    [TEXT(a) => append(b,c)]             abc",
  "",
  "ARITY",
  "  Every operation declares how many arguments it takes.",
  "",
  "  - Fewer arguments than declared is fine: missing ones are treated as",
  "    absent and the operation uses its default.",
  "  - More arguments than declared is an error, except for variadic",
  "    operations (listed as 'n+'), which collect any number of extra ones.",
  "",
  "SHARED OPERATIONS",
  "  Every type supports:",
  "",
  "    store(name)    keep a copy of the current value under 'name'",
  "                   (without a name nothing is stored)",
  "    text           continue with the value's text as TEXT",
  "",
  "ENDING A CHAIN",
  "  Some operations find nothing to return (extracting a missing JSON path,",
  "  'between' with an absent marker). The chain stops and the expression is",
  "  left in the text as written.",
  "",
  "Run 'typeflow functions TYPE' for the operations of one type."]

/-- What the seeds of each type look like. -/
def types : Text := ofLines [
  "TYPES - Type Keywords and Seeds",
  "",
  "  TEXT      Any text.",
  "  NUMBER    Exact decimal: 42, -3.5, 2.50, 1e3. Scale is kept (2.50 stays 2.50).",
  "  LIST      Items separated by the delimiter: a,b,c. Empty seed = empty list.",
  "  JSON      A JSON document. Paths: a.b[0], items[-1].name, $ for the root.",
  "  XML       An XML document. Paths: book[2]/title, /catalog/book, item/@id.",
  "  CSV       Delimited table; the first row is the header.",
  "  DATE      2024-03-14, 2024-03-14 09:30:00, 2024-03-14T09:30:00Z,",
  "            03/14/2024, now, today, or epoch milliseconds.",
  "  CONFIG    Properties: key=value lines, '#' and '!' comments.",
  "  INI       [section] headers with key=value lines, ';' and '#' comments.",
  "  BINARY    base64:SGk=, hex:4869, or plain text taken as UTF-8 bytes.",
  "  SQL       Result of the host's SQL runner for the seed.",
  "  EXCEL     Result of the host's spreadsheet engine for the seed.",
  "  WEB       Result of the host's web client for the seed.",
  "",
  "SQL, EXCEL and WEB need a collaborator registered by the host program. A",
  "failure reported by the collaborator does not stop the chain: it is",
  "available through the 'error' operation.",
  "",
  "A seed that cannot be read as its type (NUMBER(abc), JSON(\x7b)) is an error."]

/-- How values are stored and resumed. -/
def storage : Text := ofLines [
  "VARIABLES - Storing and Resuming Values",
  "",
  "STORE",
  "  store(name) keeps an independent copy of the current value. The chain",
  "  continues with the value unchanged, and later operations never affect",
  "  the stored copy.",
  "",
  "    [LIST(c,a,b) => store(items) ascending]      a,b,c   (items is c,a,b)",
  "",
  "RESUME",
  "  When a seed is a bare name (letters, digits, '_', '.', '-') and a value",
  "  of the same type is stored under that name, the stored value is used",
  "  instead of parsing the name as text:",
  "",
  "    [LIST(items) => size]                        3",
  "",
  "  LIST also resumes host arrays and JSON arrays. A name with no stored",
  "  value of the right type is parsed as ordinary text.",
  "",
  "HOST VARIABLES",
  "  typeflow process --var name=value        stores TEXT",
  "  typeflow process --vars vars.json        strings -> TEXT, numbers -> NUMBER,",
  "                                           arrays -> lists, objects -> JSON"]

/-- What happens when an evaluation fails. -/
def errors : Text := ofLines [
  "ERRORS - When Evaluation Fails",
  "",
  "CONVERSION ERRORS",
  "  The seed cannot be read as its type: NUMBER(abc), JSON(\x7b). Evaluation",
  "  stops with an error. With --syntax-only the expression is reported as",
  "  not found instead.",
  "",
  "UNKNOWN FUNCTIONS AND TOO MANY ARGUMENTS",
  "  Authoring mistakes. Evaluation stops with an error naming the type and",
  "  the operation:",
  "",
  "    [TEXT(a) => shout]                Unknown function 'shout' for TEXT",
  "    [TEXT(a) => upper(x)]             Function 'upper' for TEXT takes 0",
  "                                      argument(s), got 1",
  "",
  "MALFORMED CHAINS",
  "  Unbalanced parentheses in a chain are reported as a warning on stderr",
  "  and the expression is left in the text as written.",
  "",
  "PASS LIMIT",
  "  Every substituted expression counts as one pass. Text that keeps",
  "  producing new expressions stops with an error after --max-passes",
  "  passes (1024 by default)."]

/-- A tour in steps. -/
def tour : Text := ofLines [
  "WELCOME TO TYPEFLOW",
  "",
  "Typeflow resolves typed pipeline expressions embedded in text.",
  "",
  "STEP 1: A PLAIN VALUE",
  "---------------------",
  "An expression names a type and a seed.",
  "",
  "  typeflow process '[TEXT(hello)]'",
  "  => hello",
  "",
  "STEP 2: OPERATIONS",
  "------------------",
  "After '=>' come the operations, applied left to right.",
  "",
  "  typeflow process '[TEXT(hello) => upper append(!)]'",
  "  => HELLO!",
  "",
  "STEP 3: EMBEDDING",
  "-----------------",
  "Expressions can sit anywhere in a larger text.",
  "",
  "  echo 'Total: [NUMBER(19.99) => multiply(3)]' | typeflow process",
  "  => Total: 59.97",
  "",
  "STEP 4: CHANGING TYPE",
  "---------------------",
  "Some operations produce a different type.",
  "",
  "  typeflow process '[JSON(\x7b\"user\": \x7b\"name\": \"Ada\"\x7d\x7d) => extract(user.name) upper]'",
  "  => ADA",
  "",
  "STEP 5: NESTING",
  "---------------",
  "Inner expressions are resolved first.",
  "",
  "  typeflow process '[LIST(b,[TEXT(a) => upper],c) => ascending join(-)]'",
  "  => A-b-c",
  "",
  "STEP 6: ESCAPING",
  "----------------",
  "Backslash makes ( ) , ] literal.",
  "",
  "  typeflow process '[TEXT(a\\,b) => append(\\,c)]'",
  "  => a,b,c",
  "",
  "STEP 7: VARIABLES",
  "-----------------",
  "Seeds can name variables supplied by the host.",
  "",
  "  typeflow process --vars vars.json '[LIST(names) => size]'",
  "  => 3          (with vars.json = \x7b\"names\": [\"x\", \"y\", \"z\"]\x7d)",
  "",
  "NEXT STEPS",
  "----------",
  "  typeflow docs              List all documentation categories",
  "  typeflow doc chains        Operations and arity",
  "  typeflow functions LIST    Every LIST operation"]

/-- The text of a category. -/
def Category.text : Category → Text
  | .grammar => Manual.grammar
  | .escaping => Manual.escaping
  | .chains => Manual.chains
  | .types => Manual.types
  | .storage => Manual.storage
  | .errors => Manual.errors

/-- The text of the category with a name. -/
def read (name : Text) : Except CommandError Text :=
  match Category.ofName? name with
  | some category => .ok category.text
  | none => .error (.unknownCategory name)

end SeedChain.Manual
