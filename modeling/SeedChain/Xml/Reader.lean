import SeedChain.Error
import SeedChain.Xml.Escape
import SeedChain.Xml.Basic
import SeedChain.Xml.Markup
/-!
# Reading XML

The parts of a document are taken one by one, with a stack of the elements that are still open. Of
several faults the first one in the document is reported. Text outside the root element must be well
formed too, but is left out.
-/

namespace SeedChain.Xml

/-! ## Attributes -/

/-- The name of a tag or a key goes on with this character. -/
def inKey (c : Char) : Bool := !Markup.isBlank c && c != '='

/-- Splits off the attribute that begins with `c`: its key, its value as written, and the rest. The
first character belongs to the key whatever it is. -/
def takeAttribute? (c : Char) (t : Text) : Option (Text × Text × Text) :=
  let key := c :: t.takeWhile inKey
  match (t.dropWhile inKey).dropWhile Markup.isBlank with
  | '=' :: t =>
    match t.dropWhile Markup.isBlank with
    | q :: t =>
      if q = '"' ∨ q = '\'' then
        match t.dropWhile (· != q) with
        | _ :: rest => some (key, t.takeWhile (· != q), rest)
        | [] => none
      else none
    | [] => none
  | _ => none

theorem length_of_takeAttribute? {c : Char} {t key raw rest : Text}
    (h : takeAttribute? c t = some (key, raw, rest)) : rest.length ≤ t.length := by
  simp only [takeAttribute?] at h
  have h₁ := (List.dropWhile_sublist inKey (l := t)).length_le
  have h₂ := (List.dropWhile_sublist Markup.isBlank (l := t.dropWhile inKey)).length_le
  split at h
  · rename_i u hu
    rw [hu] at h₂
    have h₃ := (List.dropWhile_sublist Markup.isBlank (l := u)).length_le
    split at h
    · rename_i q v hv
      rw [hv] at h₃
      have h₄ := (List.dropWhile_sublist (· != q) (l := v)).length_le
      split at h
      · split at h
        · rename_i d w hw
          rw [hw] at h₄
          simp only [Option.some.injEq, Prod.mk.injEq] at h
          obtain ⟨_, _, rfl⟩ := h
          simp only [List.length_cons] at *
          omega
        · simp at h
      · simp at h
    · simp at h
  · simp at h

/-- The attributes of an element, of which the ones with the keys `seen` have been read. -/
def readAttributes (element : Text) (seen : List Text) (t : Text) : Except Reason Attributes :=
  match h : t.dropWhile Markup.isBlank with
  | [] => .ok []
  | c :: u =>
    match ha : takeAttribute? c u with
    | none => .error (.invalidAttribute element)
    | some (key, raw, rest) =>
      if key ∈ seen then .error (.invalidAttribute element)
      else
        match unescape? raw with
        | none => .error (.invalidAttributeValue element)
        | some value =>
          have : rest.length < t.length := by
            have := length_of_takeAttribute? ha
            have := (List.dropWhile_sublist Markup.isBlank (l := t)).length_le
            rw [h] at this
            simp only [List.length_cons] at this
            omega
          ((key, value) :: ·) <$> readAttributes element (key :: seen) rest
termination_by t.length

/-- The element that a tag opens. -/
def readTag (content : Text) : Except Reason Element := do
  let inName (c : Char) := !Markup.isBlank c
  let name := content.takeWhile inName
  return ⟨name, ← readAttributes name [] (content.dropWhile inName), .nil⟩

/-! ## The tree -/

/-- What has been read: the elements still open, the innermost first, and the root once it is
closed. -/
structure Progress where
  opened : List Element
  root : Option Element

namespace Progress

/-- Adds content to the innermost open element; outside of all elements it is left out. -/
def addContent (p : Progress) (content : Forest) : Progress :=
  match p.opened with
  | parent :: outer => { p with opened := { parent with children := parent.children ++ content } :: outer }
  | [] => p

/-- Adds a closed element: to the innermost open one, or as the root. -/
def addElement (p : Progress) (e : Element) : Except Reason Progress :=
  match p.opened, p.root with
  | _ :: _, _ => .ok (p.addContent (.ofElement e))
  | [], none => .ok { p with root := some e }
  | [], some _ => .error (.secondRoot e.name)

/-- Takes one part of the document. -/
def step (p : Progress) : Markup → Except Reason Progress
  | .text raw =>
    match unescape? raw with
    | some t => .ok (p.addContent (.text t .nil))
    | none => .error .invalidXmlText
  | .data t => .ok (p.addContent (.text t .nil))
  | .tag content empty => do
    let e ← readTag content
    if empty then p.addElement e else return { p with opened := e :: p.opened }
  | .close name =>
    match p.opened with
    | e :: outer =>
      if e.name = name then addElement { p with opened := outer } e else .error .invalidXml
    | [] => .error .invalidXml
  | .broken => .error .invalidXml

/-- The root, when the document has ended. -/
def result (p : Progress) : Except Reason Element :=
  match p.opened, p.root with
  | e :: _, _ => .error (.unclosedElement e.name)
  | [], some root => .ok root
  | [], none => .error .noRoot

end Progress

/-- The root element of the document that a text holds between blanks. -/
def read (t : Text) : Except Reason Element := do
  let progress ← (Markup.split t.trim).foldlM Progress.step ⟨[], none⟩
  progress.result

end SeedChain.Xml
