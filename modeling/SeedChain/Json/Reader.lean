import SeedChain.Bytes.Hex
import SeedChain.Json.Basic
/-!
# Reading JSON

The text is split into tokens; a machine with a stack of open containers then takes them one by
one. Containers may be nested 127 deep. No two values of a document stand side by side, so splitting
first loses no error.
-/

namespace SeedChain.Json

/-! ## Tokens -/

inductive Token where
  | openArray
  | closeArray
  | openObject
  | closeObject
  | comma
  | colon
  | string (t : Text)
  | number (n : JsonNumber)
  | null
  | bool (b : Bool)
  deriving Repr

/-- The blanks of the format. -/
def isBlank (c : Char) : Bool := c == ' ' || c == '\n' || c == '\t' || c == '\r'

/-- A code unit from four hexadecimal digits. -/
def codeUnit? (a b c d : Char) : Option Nat := do
  return 0x1000 * (← Text.hexDigit? a) + 0x100 * (← Text.hexDigit? b) +
    0x10 * (← Text.hexDigit? c) + (← Text.hexDigit? d)

/-- The character of a code unit that is no surrogate. -/
def unitChar? (unit : Nat) : Option Char :=
  if 0xD800 ≤ unit ∧ unit ≤ 0xDFFF then none else some (Char.ofNat unit)

/-- The character of a surrogate pair. -/
def pairChar? (high low : Nat) : Option Char :=
  if 0xD800 ≤ high ∧ high ≤ 0xDBFF ∧ 0xDC00 ≤ low ∧ low ≤ 0xDFFF then
    some (Char.ofNat (0x10000 + 0x400 * (high - 0xD800) + (low - 0xDC00)))
  else none

/-- The character of a one-letter escape. -/
def shortEscape? : Char → Option Char
  | '"' => some '"'
  | '\\' => some '\\'
  | '/' => some '/'
  | 'b' => some '\x08'
  | 'f' => some '\x0c'
  | 'n' => some '\n'
  | 'r' => some '\r'
  | 't' => some '\t'
  | _ => none

/-- The character an escape stands for, from the character behind the backslash on, and the rest. -/
def takeEscape? : Text → Option (Char × Text)
  | 'u' :: a :: b :: c :: d :: t => do
    let unit ← codeUnit? a b c d
    match unitChar? unit, t with
    | some char, _ => some (char, t)
    | none, '\\' :: 'u' :: a :: b :: c :: d :: rest => do
      let char ← pairChar? unit (← codeUnit? a b c d)
      return (char, rest)
    | none, _ => none
  | c :: t => (shortEscape? c).map (·, t)
  | [] => none

theorem length_of_takeEscape? {t rest : Text} {c : Char} (h : takeEscape? t = some (c, rest)) :
    rest.length < t.length := by
  unfold takeEscape? at h
  split at h
  · obtain ⟨unit, _, h⟩ := Option.bind_eq_some_iff.1 h
    split at h
    · obtain ⟨_, rfl⟩ := Prod.mk.inj (Option.some.inj h)
      simp only [List.length_cons]
      omega
    · obtain ⟨low, _, h⟩ := Option.bind_eq_some_iff.1 h
      obtain ⟨char, _, h⟩ := Option.bind_eq_some_iff.1 h
      obtain ⟨_, rfl⟩ := Prod.mk.inj (Option.some.inj h)
      simp only [List.length_cons]
      omega
    · simp at h
  · obtain ⟨_, _, h⟩ := Option.map_eq_some_iff.1 h
    obtain ⟨_, rfl⟩ := Prod.mk.inj h
    simp
  · simp at h

/-- The rest of a string behind its opening quote, and what follows its closing quote. -/
def takeString? (t : Text) : Option (Text × Text) :=
  match t with
  | [] => none
  | '"' :: rest => some ([], rest)
  | '\\' :: t =>
    match h : takeEscape? t with
    | some (c, rest) =>
      have := length_of_takeEscape? h
      (takeString? rest).map fun (s, rest) => (c :: s, rest)
    | none => none
  | c :: t => if c.toNat < 0x20 then none else (takeString? t).map fun (s, rest) => (c :: s, rest)
termination_by t.length

/-- The words that are values. -/
def wordTokens : List (Text × Token) :=
  [("null".toList, .null), ("true".toList, .bool true), ("false".toList, .bool false)]

/-- A token that is one character. -/
def markToken? : Char → Option Token
  | '[' => some .openArray
  | ']' => some .closeArray
  | '{' => some .openObject
  | '}' => some .closeObject
  | ',' => some .comma
  | ':' => some .colon
  | _ => none

/-- The first token of a text that does not begin with a blank, and the rest. -/
def takeToken? (c : Char) (t : Text) : Option (Token × Text) :=
  if c = '"' then (takeString? t).map fun (s, rest) => (.string s, rest)
  else if c = '-' ∨ c.isDigit then do
    let (literal, rest) ← JsonNumber.takeLiteral? (c :: t)
    let n ← JsonNumber.ofLiteral? literal
    return (.number n, rest)
  else
    match markToken? c with
    | some token => some (token, t)
    | none => wordTokens.findSome? fun (word, token) => (word.isPrefixOf? (c :: t)).map (token, ·)

/-- The tokens of a text. Each token leaves a rest at the end of the text, so the number of
characters it took says where to go on. -/
def tokens? : Text → Option (List Token)
  | [] => some []
  | c :: t =>
    if isBlank c then tokens? t
    else
      match takeToken? c t with
      | none => none
      | some (token, rest) => (tokens? (t.drop (t.length - rest.length))).map (token :: ·)
termination_by t => t.length
decreasing_by
  · simp
  · simp only [List.length_drop, List.length_cons]
    omega

/-! ## Trees -/

/-- A container that is still open. -/
inductive Frame where
  /-- An array with the items read so far, the newest first. -/
  | array (items : List Json)
  /-- An object with the members read so far, and the key whose value is being read. -/
  | object (members : Entries Json) (key : Text)

/-- What the machine waits for. -/
inductive Wanted where
  | value
  /-- The first item of an array, or its end. -/
  | firstItem
  /-- The first key of an object, or its end. -/
  | firstKey
  | key (members : Entries Json)
  | colon (members : Entries Json) (key : Text)
  /-- A value is complete; it belongs to the innermost open container. -/
  | separator (value : Json)

/-- The machine between two tokens. -/
structure Machine where
  wanted : Wanted
  stack : List Frame

/-- The number of containers that can be open at a time. -/
def maxDepth : Nat := 127

namespace Machine

def start : Machine := ⟨.value, []⟩

/-- Begins a value with its first token. -/
def beginValue (stack : List Frame) : Token → Option Machine
  | .null => some ⟨.separator .null, stack⟩
  | .bool b => some ⟨.separator (.bool b), stack⟩
  | .number n => some ⟨.separator (.number n), stack⟩
  | .string t => some ⟨.separator (.string t), stack⟩
  | .openArray =>
    if stack.length < maxDepth then some ⟨.firstItem, .array [] :: stack⟩ else none
  | .openObject => if stack.length < maxDepth then some ⟨.firstKey, stack⟩ else none
  | _ => none

/-- Goes on behind a complete value. -/
def afterValue (value : Json) : List Frame → Token → Option Machine
  | .array items :: stack, .comma => some ⟨.value, .array (value :: items) :: stack⟩
  | .array items :: stack, .closeArray =>
    some ⟨.separator (.array (value :: items).reverse), stack⟩
  | .object members key :: stack, .comma => some ⟨.key (Entries.set key value members), stack⟩
  | .object members key :: stack, .closeObject =>
    some ⟨.separator (.object (Entries.set key value members)), stack⟩
  | _, _ => none

/-- Takes one token. -/
def step (m : Machine) (token : Token) : Option Machine :=
  match m.wanted, token, m.stack with
  | .value, token, stack => beginValue stack token
  | .firstItem, .closeArray, _ :: stack => some ⟨.separator (.array []), stack⟩
  | .firstItem, token, stack => beginValue stack token
  | .firstKey, .closeObject, stack => some ⟨.separator (.object []), stack⟩
  | .firstKey, .string key, stack => some ⟨.colon [] key, stack⟩
  | .key members, .string key, stack => some ⟨.colon members key, stack⟩
  | .colon members key, .colon, stack => some ⟨.value, .object members key :: stack⟩
  | .separator value, token, stack => afterValue value stack token
  | _, _, _ => none

/-- The document, if the machine has read one. -/
def result? (m : Machine) : Option Json :=
  match m.wanted, m.stack with
  | .separator value, [] => some value
  | _, _ => none

end Machine

/-- The document a text holds. -/
def read? (t : Text) : Option Json := do
  let machine ← (← tokens? t).foldlM Machine.step Machine.start
  machine.result?

end SeedChain.Json
