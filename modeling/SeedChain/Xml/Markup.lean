import SeedChain.Text.Basic
/-!
# Markup

A document is split into texts, character data sections and tags. Comments, processing
instructions, declarations and document types leave nothing behind. Where a construct is not
finished or not known, the document is broken, and nothing behind it is looked at.

Texts are trimmed at both ends, and blank ones vanish. A quoted `>` does not end a tag.
-/

namespace SeedChain.Xml

/-- A part of a document, as written. -/
inductive Markup where
  | text (raw : Text)
  | data (t : Text)
  /-- A start tag without its angle brackets and closing slash; `empty` when it has that slash. -/
  | tag (content : Text) (empty : Bool)
  | close (name : Text)
  | broken
  deriving DecidableEq, Repr

namespace Markup

/-- The blanks of the format. -/
def isBlank (c : Char) : Bool := c == ' ' || c == '\t' || c == '\r' || c == '\n'

/-- Splits at the end of a tag; `quote` is the quote character of the value that is being read. -/
def cutTag? (quote : Option Char) : Text → Option (Text × Text)
  | [] => none
  | c :: t =>
    if quote = none ∧ c = '>' then some ([], t)
    else
      let quote :=
        match quote with
        | some q => if c = q then none else some q
        | none => if c = '"' ∨ c = '\'' then some c else none
      (cutTag? quote t).map fun (before, after) => (c :: before, after)

/-- Splits at the end of a document type, inside which `depth` angle brackets are open. -/
def cutDoctype? (depth : Nat) : Text → Option (Text × Text)
  | [] => none
  | c :: t =>
    if depth = 0 ∧ c = '>' then some ([], t)
    else
      let inside := if c = '<' then depth + 1 else if c = '>' then depth - 1 else depth
      (cutDoctype? inside t).map fun (before, after) => (c :: before, after)

theorem length_of_cutTag? {quote : Option Char} {t before after : Text}
    (h : cutTag? quote t = some (before, after)) : after.length < t.length := by
  induction t generalizing quote before with
  | nil => simp [cutTag?] at h
  | cons c t ih =>
    simp only [cutTag?] at h
    split at h
    · obtain ⟨_, rfl⟩ := Prod.mk.inj (Option.some.inj h)
      simp
    · obtain ⟨⟨b, a⟩, hc, heq⟩ := Option.map_eq_some_iff.1 h
      obtain ⟨_, rfl⟩ := Prod.mk.inj heq
      exact Nat.lt_succ_of_lt (ih hc)

theorem length_of_cutDoctype? {depth : Nat} {t before after : Text}
    (h : cutDoctype? depth t = some (before, after)) : after.length < t.length := by
  induction t generalizing depth before with
  | nil => simp [cutDoctype?] at h
  | cons c t ih =>
    simp only [cutDoctype?] at h
    split at h
    · obtain ⟨_, rfl⟩ := Prod.mk.inj (Option.some.inj h)
      simp
    · obtain ⟨⟨b, a⟩, hc, heq⟩ := Option.map_eq_some_iff.1 h
      obtain ⟨_, rfl⟩ := Prod.mk.inj heq
      exact Nat.lt_succ_of_lt (ih hc)

/-- The part that ends at a marker, and the text behind it. -/
def upTo? (marker : Text) (part : Text → Option Markup) (t : Text) :
    Option (Option Markup × Text) :=
  (Text.cut? marker t).map fun (before, after) => (part before, after)

/-- A document type: its word in any case, and something behind it. -/
def doctype? (t : Text) : Option (Option Markup × Text) :=
  let word := "doctype".toList
  if (t.take word.length).map Char.toLower = word then
    (cutDoctype? 0 (t.drop word.length)).bind fun (content, after) =>
      if content.all isBlank then none else some (none, after)
  else none

/-- The name in a closing tag, without blanks behind it; blanks alone are taken for a name. -/
def closedName (content : Text) : Text :=
  if content.all isBlank then content else Text.dropEndWhile isBlank content

/-- The construct behind an opening angle bracket, if it leaves anything, and the text behind it. -/
def construct? : Text → Option (Option Markup × Text)
  | '!' :: '-' :: '-' :: t => upTo? "-->".toList (fun _ => none) t
  | '!' :: t =>
    match "[CDATA[".toList.isPrefixOf? t with
    | some t => upTo? "]]>".toList (fun content => some (.data content)) t
    | none => doctype? t
  | '?' :: '>' :: _ => none
  | '?' :: t => upTo? "?>".toList (fun _ => none) t
  | '/' :: t =>
    (cutTag? none t).map fun (content, after) => (some (.close (closedName content)), after)
  | t =>
    (cutTag? none t).map fun (content, after) =>
      match content.getLast? with
      | some '/' => (some (.tag content.dropLast true), after)
      | _ => (some (.tag content false), after)

theorem length_of_upTo? {marker t after : Text} {part : Text → Option Markup}
    {item : Option Markup} (h : upTo? marker part t = some (item, after)) :
    after.length ≤ t.length := by
  obtain ⟨⟨b, a⟩, hc, heq⟩ := Option.map_eq_some_iff.1 h
  obtain ⟨_, rfl⟩ := Prod.mk.inj heq
  have := congrArg List.length (Text.eq_of_cut? hc)
  simp only [List.length_append] at this
  omega

theorem length_of_doctype? {t after : Text} {item : Option Markup}
    (h : doctype? t = some (item, after)) : after.length ≤ t.length := by
  simp only [doctype?] at h
  split at h
  · obtain ⟨⟨b, a⟩, hc, h⟩ := Option.bind_eq_some_iff.1 h
    have := length_of_cutDoctype? hc
    simp only at h
    split at h
    · simp at h
    · obtain ⟨_, rfl⟩ := Prod.mk.inj (Option.some.inj h)
      simp only [List.length_drop] at this
      omega
  · simp at h

theorem length_of_construct? {t after : Text} {item : Option Markup}
    (h : construct? t = some (item, after)) : after.length ≤ t.length := by
  unfold construct? at h
  split at h
  · have := length_of_upTo? h
    simp only [List.length_cons]
    omega
  · split at h
    · rename_i hp
      have := congrArg List.length (Text.eq_of_isPrefixOf? hp)
      have := length_of_upTo? h
      simp only [List.length_cons, List.length_append] at *
      omega
    · have := length_of_doctype? h
      simp only [List.length_cons]
      omega
  · simp at h
  · have := length_of_upTo? h
    simp only [List.length_cons]
    omega
  · obtain ⟨⟨b, a⟩, hc, heq⟩ := Option.map_eq_some_iff.1 h
    obtain ⟨_, rfl⟩ := Prod.mk.inj heq
    have := length_of_cutTag? hc
    simp only [List.length_cons]
    omega
  · obtain ⟨⟨b, a⟩, hc, heq⟩ := Option.map_eq_some_iff.1 h
    have := length_of_cutTag? hc
    obtain rfl : a = after := by
      simp only at heq
      split at heq <;> exact (Prod.mk.inj heq).2
    exact Nat.le_of_lt this

/-- The text that a run between tags leaves. -/
def run (t : Text) : List Markup :=
  let t := Text.dropEndWhile isBlank (t.dropWhile isBlank)
  if t = [] then [] else [.text t]

/-- The parts of a document in order. -/
def split (t : Text) : List Markup :=
  match t with
  | [] => []
  | '<' :: t =>
    match h : construct? t with
    | none => [.broken]
    | some (item, after) =>
      have := length_of_construct? h
      item.toList ++ split after
  | c :: t =>
    have := (List.dropWhile_sublist (· != '<') (l := t)).length_le
    run (c :: t.takeWhile (· != '<')) ++ split (t.dropWhile (· != '<'))
termination_by t.length
decreasing_by
  · simp only [List.length_cons]
    omega
  · simp only [List.length_cons]
    omega

end Markup

end SeedChain.Xml
