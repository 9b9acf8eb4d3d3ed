/-!
# Text

A text is the list of its characters (Unicode scalar values). This module holds the operations on
texts that everything else is built from: blank characters and trimming, splitting at a character
or at a marker, the first occurrence of a marker, lines and words, and lengths in UTF-8 bytes.

Main facts: a cut loses nothing (`eq_of_cut?`), and a byte offset that is the length of a leading
part takes and drops exactly that part (`takeBytes_append`, `dropBytes_append`).
-/

namespace SeedChain

/-- A text as the sequence of its characters. -/
abbrev Text := List Char

/-- The text as a machine string. -/
abbrev Text.str (t : Text) : String := String.ofList t

namespace Text

/-! ## Blanks -/

/-- The 25 characters with the Unicode property `White_Space`. -/
def isWhite (c : Char) : Bool :=
  let n := c.toNat
  (9 ≤ n && n ≤ 13) || n == 0x20 || n == 0x85 || n == 0xA0 || n == 0x1680 ||
    (0x2000 ≤ n && n ≤ 0x200A) || n == 0x2028 || n == 0x2029 || n == 0x202F || n == 0x205F ||
    n == 0x3000

/-- Only white characters, or none at all. -/
def isBlank (t : Text) : Bool := t.all isWhite

def trimStart (t : Text) : Text := t.dropWhile isWhite

/-- The text without the characters of a class at its end. -/
def dropEndWhile (p : Char → Bool) (t : Text) : Text := (t.reverse.dropWhile p).reverse

def trimEnd (t : Text) : Text := dropEndWhile isWhite t

def trim (t : Text) : Text := trimEnd (trimStart t)

theorem length_trimStart_le (t : Text) : (trimStart t).length ≤ t.length :=
  (List.dropWhile_sublist _).length_le

/-- Nothing is trimmed from a text that begins and ends with another character than a white one. -/
theorem trim_of_ends {t : Text} (hhead : ∀ c ∈ t.head?, isWhite c = false)
    (hlast : ∀ c ∈ t.getLast?, isWhite c = false) : trim t = t := by
  have hkeep {s : Text} (hs : ∀ c ∈ s.head?, isWhite c = false) : s.dropWhile isWhite = s := by
    cases s with
    | nil => rfl
    | cons c s => exact List.dropWhile_cons_of_neg (by simp [hs c rfl])
  rw [trim, trimStart, hkeep hhead, trimEnd, dropEndWhile, hkeep, List.reverse_reverse]
  rwa [List.head?_reverse]

theorem trim_eq_self {t : Text} (h : ∀ c ∈ t, isWhite c = false) : trim t = t :=
  trim_of_ends (fun c hc => h c (List.mem_of_mem_head? hc)) (fun c hc => h c (List.mem_of_getLast? hc))

theorem trim_between {c d : Char} (hc : isWhite c = false) (hd : isWhite d = false) (t : Text) :
    trim (c :: t ++ [d]) = c :: t ++ [d] := by
  refine trim_of_ends ?_ ?_
  · rintro _ ⟨⟩
    exact hc
  · intro e he
    rw [List.getLast?_append] at he
    exact Option.some.inj he ▸ hd

/-! ## Splitting -/

/-- The pieces between the characters of a class, which are left out; always at least one piece. -/
def splitWhen (p : Char → Bool) : Text → List Text
  | [] => [[]]
  | c :: t =>
    if p c then [] :: splitWhen p t
    else match splitWhen p t with
      | [] => [[c]]
      | piece :: pieces => (c :: piece) :: pieces

/-- The pieces between the occurrences of a character. -/
def split (d : Char) (t : Text) : List Text := splitWhen (· == d) t

/-- The maximal runs of characters that are not white. -/
def words (t : Text) : List Text := (splitWhen isWhite t).filter (· ≠ [])

/-- What stands before and after the first occurrence of a marker. -/
def cut? (marker : Text) (t : Text) : Option (Text × Text) :=
  match marker.isPrefixOf? t with
  | some rest => some ([], rest)
  | none =>
    match t with
    | [] => none
    | c :: t => (cut? marker t).map fun parts => (c :: parts.1, parts.2)

/-- The marker occurs in the text. -/
def hasInfix (marker : Text) (t : Text) : Bool := (cut? marker t).isSome

theorem eq_of_isPrefixOf? {p t r : Text} (h : p.isPrefixOf? t = some r) : t = p ++ r := by
  induction p generalizing t with
  | nil => exact Option.some.inj h
  | cons c p ih =>
    cases t with
    | nil => exact nomatch (show (none : Option Text) = some r from h)
    | cons d t =>
      change (if c == d then p.isPrefixOf? t else none) = some r at h
      split at h
      · rename_i hcd
        rw [ih h, eq_of_beq hcd, List.cons_append]
      · exact nomatch h

theorem isPrefixOf?_append (p t : Text) : p.isPrefixOf? (p ++ t) = some t := by
  induction p with
  | nil => rfl
  | cons c p ih =>
    change (if c == c then p.isPrefixOf? (p ++ t) else none) = some t
    rw [if_pos (beq_self_eq_true c), ih]

theorem isPrefixOf?_eq_none_iff {p t : Text} : p.isPrefixOf? t = none ↔ ¬ p <+: t := by
  rw [Option.eq_none_iff_forall_not_mem]
  constructor
  · rintro h ⟨r, rfl⟩
    exact h r (isPrefixOf?_append p r)
  · intro h r hr
    exact h ⟨r, (eq_of_isPrefixOf? hr).symm⟩

/-- A cut loses nothing. -/
theorem eq_of_cut? {marker t before after : Text} (h : cut? marker t = some (before, after)) :
    t = before ++ marker ++ after := by
  induction t generalizing before with
  | nil =>
    rw [cut?] at h
    split at h
    · rename_i r hr
      obtain ⟨rfl, rfl⟩ := Prod.mk.inj (Option.some.inj h)
      simpa using eq_of_isPrefixOf? hr
    · simp at h
  | cons c t ih =>
    rw [cut?] at h
    split at h
    · rename_i r hr
      obtain ⟨rfl, rfl⟩ := Prod.mk.inj (Option.some.inj h)
      simpa using eq_of_isPrefixOf? hr
    · obtain ⟨⟨b, a⟩, hc, heq⟩ := Option.map_eq_some_iff.1 h
      obtain ⟨rfl, rfl⟩ := Prod.mk.inj heq
      simp [ih hc]

/-- The pieces between the occurrences of a marker, found from left to right and never
overlapping. An empty marker does not split. -/
def splitAround (marker : Text) (t : Text) : List Text :=
  if hm : marker = [] then [t]
  else
    match h : cut? marker t with
    | none => [t]
    | some (before, after) =>
      have : after.length < t.length := by
        have := congrArg List.length (eq_of_cut? h)
        have := List.length_pos_iff.2 hm
        simp only [List.length_append] at *
        omega
      before :: splitAround marker after
termination_by t.length

/-- The pieces with a separator between neighbours. -/
def join (separator : Text) (pieces : List Text) : Text := separator.intercalate pieces

theorem join_cons (separator p : Text) (pieces : List Text) :
    join separator (p :: pieces) =
      p ++ if pieces = [] then [] else separator ++ join separator pieces := by
  cases pieces with
  | nil => simp [join]
  | cons q pieces => rw [join, List.intercalate_cons_cons, List.append_assoc]; rfl

/-- Every occurrence of a marker replaced, from left to right. -/
def replaceAll (marker replacement : Text) (t : Text) : Text :=
  join replacement (splitAround marker t)

/-- The lines of a text: each ends at a line feed, a carriage return before the line feed belongs
to the line's end, and a text that ends with a line feed has no further line. -/
def lines (t : Text) : List Text :=
  let pieces := split '\n' t
  let unended := pieces.getLastD []
  let ended := pieces.dropLast.map fun line => (['\r'].isSuffixOf? line).getD line
  if unended = [] then ended else ended ++ [unended]

/-! ## Lengths in bytes -/

/-- The length of the text in UTF-8. -/
def byteLength : Text → Nat
  | [] => 0
  | c :: t => c.utf8Size + byteLength t

/-- The characters that end within the first `n` bytes; a character that the offset falls into is
taken whole. -/
def takeBytes (n : Nat) : Text → Text
  | [] => []
  | c :: t => if n = 0 then [] else c :: takeBytes (n - c.utf8Size) t

/-- What `takeBytes` leaves. -/
def dropBytes (n : Nat) : Text → Text
  | [] => []
  | c :: t => if n = 0 then c :: t else dropBytes (n - c.utf8Size) t

@[simp]
theorem byteLength_append (s t : Text) : byteLength (s ++ t) = byteLength s + byteLength t := by
  induction s with
  | nil => simp [byteLength]
  | cons c s ih => simp [byteLength, ih, Nat.add_assoc]

theorem takeBytes_append (s t : Text) : takeBytes (byteLength s) (s ++ t) = s := by
  induction s with
  | nil => cases t <;> simp [byteLength, takeBytes]
  | cons c s ih =>
    have : c.utf8Size ≠ 0 := Nat.ne_of_gt c.utf8Size_pos
    simp [byteLength, takeBytes, this, ih]

theorem dropBytes_append (s t : Text) : dropBytes (byteLength s) (s ++ t) = t := by
  induction s with
  | nil => cases t <;> simp [byteLength, dropBytes]
  | cons c s ih =>
    have : c.utf8Size ≠ 0 := Nat.ne_of_gt c.utf8Size_pos
    simp [byteLength, dropBytes, this, ih]

theorem takeBytes_append_dropBytes (n : Nat) (t : Text) : takeBytes n t ++ dropBytes n t = t := by
  induction t generalizing n with
  | nil => rfl
  | cons c t ih => by_cases h : n = 0 <;> simp [takeBytes, dropBytes, h, ih]

/-! ## Order -/

/-- Texts in the order of their code points, a leading part before the longer text. -/
def ordered (s t : Text) : Bool := !decide (t < s)

end Text

end SeedChain
