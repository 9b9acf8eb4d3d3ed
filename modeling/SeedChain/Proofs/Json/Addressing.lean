import Mathlib.Data.List.Basic
import SeedChain.Proofs.Entries
import SeedChain.Proofs.Variables
/-!
# Written paths

A path can be written in two ways. Between brackets every place has a spelling, whatever characters its
names hold but the closing bracket (`JsonPath.read_inBrackets`). With dots between them, names are read as
they stand, but a first name that begins with `$` loses this character, which is taken for the root
(`JsonPath.read_join_dots_iff`, `JsonPath.read_join_root`). So it is with the keys of a document as paths to
its members (`dotted_names_address`).
-/

namespace SeedChain

namespace JsonPath

variable {name s : Text} {path : JsonPath} {n : Int}

/-! ## What the reader passes through -/

theorem readFrom_field_append (hdot : '.' ∉ s) (hbracket : '[' ∉ s) (name t : Text) :
    readFrom (.field name) (s ++ t) = readFrom (.field (name ++ s)) t := by
  induction s generalizing name with
  | nil => simp
  | cons c s ih =>
    simp only [List.mem_cons, not_or] at hdot hbracket
    rw [List.cons_append, readFrom, if_neg (Ne.symm hdot.1), if_neg (Ne.symm hbracket.1),
      ih hdot.2 hbracket.2, List.append_assoc, List.singleton_append]

theorem readFrom_bracket_append (h : ']' ∉ s) (inner t : Text) :
    readFrom (.bracket inner) (s ++ ']' :: t) =
      (bracketed (inner ++ s) :: ·) <$> readFrom (.field []) t := by
  induction s generalizing inner with
  | nil => simp [readFrom]
  | cons c s ih =>
    simp only [List.mem_cons, not_or] at h
    rw [List.cons_append, readFrom, if_neg (Ne.symm h.1), ih h.2, List.append_assoc, List.singleton_append]

/-- A text without blanks at its ends and without the mark of the root is read from its first character
on. -/
theorem read_of_readFrom {t : Text} (htrim : t.trim = t) (hroot : t.head? ≠ some '$')
    (h : readFrom (.field []) t = some path) : read t = .ok path := by
  cases t with
  | nil => simp [read, htrim, h]
  | cons c t =>
    have hc : c ≠ '$' := by simpa using hroot
    simp [read, htrim, hc, h]

/-! ## Brackets -/

/-- A segment between brackets, the name of a field in quotation marks. -/
def inBrackets : PathSegment → Text
  | .field name => '[' :: '"' :: name ++ ['"', ']']
  | .index n => '[' :: Text.ofInt n ++ [']']

/-- The names and indices that brackets can hold: all but a closing bracket, and the integers of 64 bits. -/
def FitsBrackets : PathSegment → Prop
  | .field name => ']' ∉ name
  | .index n => -0x8000000000000000 ≤ n ∧ n < 0x8000000000000000

/-- Quotation marks make a field of any name. -/
theorem bracketed_quoted (name : Text) : bracketed ('"' :: name ++ ['"']) = .field name := by
  have htrim : Text.trim ('"' :: name ++ ['"']) = '"' :: name ++ ['"'] :=
    Text.trim_between (by decide) (by decide) name
  have hinteger : Text.integer? ('"' :: name ++ ['"']) = none := by
    simp [Text.integer?, Text.digits?]
  have hunquote : unquote? '"' ('"' :: name ++ ['"']) = some name := by
    simp [unquote?, List.isSuffixOf?, List.isPrefixOf?]
  simp only [bracketed, htrim, hinteger, hunquote]
  rfl

theorem bracketed_ofInt (h : FitsBrackets (.index n)) : bracketed (Text.ofInt n) = .index n := by
  simp only [bracketed, Text.trim_ofInt, Text.integer?_ofInt h.1 h.2]

/-- A text between brackets is one step, and reading goes on behind it. -/
theorem readFrom_inBrackets {segment : PathSegment} (h : FitsBrackets segment) (t : Text) :
    readFrom (.field []) (inBrackets segment ++ t) = (segment :: ·) <$> readFrom (.field []) t := by
  have hopen (inner : Text) (hinner : ']' ∉ inner) (hsegment : bracketed inner = segment) :
      readFrom (.field []) ('[' :: inner ++ ']' :: t) = (segment :: ·) <$> readFrom (.field []) t := by
    rw [List.cons_append, readFrom, if_neg (by decide), if_pos rfl, readFrom_bracket_append hinner,
      List.nil_append, hsegment]
    simp [fieldStep]
  cases segment with
  | field name =>
    have hname : ']' ∉ name := h
    have hinner : ']' ∉ '"' :: name ++ ['"'] := by simpa using hname
    simpa [inBrackets] using hopen _ hinner (bracketed_quoted name)
  | index n =>
    have hinner : ']' ∉ Text.ofInt n := by
      intro hmem
      rcases Text.mem_ofInt hmem with hminus | hdigit
      · exact absurd hminus (by decide)
      · exact absurd hdigit (by decide)
    simpa [inBrackets] using hopen _ hinner (bracketed_ofInt h)

theorem readFrom_flatMap_inBrackets {path : JsonPath} (h : ∀ segment ∈ path, FitsBrackets segment) :
    readFrom (.field []) (path.flatMap inBrackets) = some path := by
  induction path with
  | nil => rfl
  | cons segment path ih =>
    obtain ⟨hsegment, hpath⟩ := List.forall_mem_cons.1 h
    rw [List.flatMap_cons, readFrom_inBrackets hsegment, ih hpath]
    rfl

/-- A path of brackets begins with an opening one and ends with a closing one. -/
theorem ends_flatMap_inBrackets (path : JsonPath) :
    path.flatMap inBrackets = [] ∨ ∃ inner, path.flatMap inBrackets = '[' :: inner ++ [']'] := by
  have hsegment (segment : PathSegment) : ∃ inner, inBrackets segment = '[' :: inner ++ [']'] := by
    cases segment with
    | field name => exact ⟨'"' :: name ++ ['"'], by simp [inBrackets]⟩
    | index n => exact ⟨Text.ofInt n, rfl⟩
  induction path with
  | nil => exact .inl rfl
  | cons segment path ih =>
    obtain ⟨first, hfirst⟩ := hsegment segment
    right
    rcases ih with hnil | ⟨rest, hrest⟩
    · exact ⟨first, by rw [List.flatMap_cons, hnil, hfirst, List.append_nil]⟩
    · exact ⟨first ++ [']'] ++ '[' :: rest, by rw [List.flatMap_cons, hrest, hfirst]; simp⟩

/-- Written between brackets, every path of names without a closing bracket and of integers of 64 bits is
read back. -/
theorem read_inBrackets {path : JsonPath} (h : ∀ segment ∈ path, FitsBrackets segment) :
    read (path.flatMap inBrackets) = .ok path := by
  have hread := readFrom_flatMap_inBrackets h
  rcases ends_flatMap_inBrackets path with hnil | ⟨inner, hinner⟩
  · rw [hnil] at hread ⊢
    obtain rfl : [] = path := Option.some.inj hread
    rfl
  · rw [hinner] at hread ⊢
    exact read_of_readFrom (Text.trim_between (by decide) (by decide) inner) (by simp) hread

/-- Names that look like other things, and the two ends of the range of indices. -/
theorem read_inBrackets_quoted :
    let path : JsonPath :=
      [.field "a.'[\"$".toList, .field [], .index (-0x8000000000000000), .field " 1 ".toList,
        .index 0x7fffffffffffffff]
    (∀ segment ∈ path, FitsBrackets segment) ∧
    path.flatMap inBrackets =
      "[\"a.'[\"$\"][\"\"][-9223372036854775808][\" 1 \"][9223372036854775807]".toList ∧
    read (path.flatMap inBrackets) = .ok path := by
  intro path
  have hfits : ∀ segment ∈ path, FitsBrackets segment := by simp [path, FitsBrackets]
  exact ⟨hfits, by decide, read_inBrackets hfits⟩

/-! ## Dots -/

/-- A name that stands for itself between dots. -/
structure IsPlainName (name : Text) : Prop where
  ne_nil : name ≠ []
  dot : '.' ∉ name
  bracket : '[' ∉ name
  head : ∀ c ∈ name.head?, Text.isWhite c = false
  last : ∀ c ∈ name.getLast?, Text.isWhite c = false

variable {first : Text} {rest : List Text}

theorem IsPlainName.fieldStep_eq (h : IsPlainName name) : fieldStep name = [.field name] :=
  if_neg h.ne_nil

/-- The first name may be empty: then the path begins with the second one. -/
theorem readFrom_join_dots (hdot : '.' ∉ first) (hbracket : '[' ∉ first)
    (hrest : ∀ name ∈ rest, IsPlainName name) :
    readFrom (.field []) (Text.join ['.'] (first :: rest)) = some (fieldStep first ++ rest.map .field) := by
  induction rest generalizing first with
  | nil =>
    rw [Text.join_cons, if_pos rfl, readFrom_field_append hdot hbracket, List.nil_append, readFrom]
    simp
  | cons second rest ih =>
    obtain ⟨hsecond, hrest⟩ := List.forall_mem_cons.1 hrest
    have hbehind := ih hsecond.dot hsecond.bracket hrest
    rw [hsecond.fieldStep_eq] at hbehind
    rw [Text.join_cons, if_neg (List.cons_ne_nil _ _), readFrom_field_append hdot hbracket, List.nil_append,
      List.singleton_append, readFrom, if_pos rfl, hbehind]
    rfl

theorem trim_join_dots (h : ∀ name ∈ first :: rest, IsPlainName name) :
    Text.trim (Text.join ['.'] (first :: rest)) = Text.join ['.'] (first :: rest) := by
  have hfirst := h first List.mem_cons_self
  refine Text.trim_of_ends ?_ ?_
  · rw [Text.join_cons, List.head?_append_of_ne_nil _ hfirst.ne_nil]
    exact hfirst.head
  · clear hfirst
    induction rest generalizing first with
    | nil => simpa [Text.join] using (h first List.mem_cons_self).last
    | cons second rest ih =>
      have hrest : ∀ name ∈ second :: rest, IsPlainName name := fun name hname =>
        h name (List.mem_cons_of_mem _ hname)
      have hne : Text.join ['.'] (second :: rest) ≠ [] := by
        rw [Text.join_cons]
        simp [(hrest second List.mem_cons_self).ne_nil]
      rw [Text.join_cons, if_neg (List.cons_ne_nil _ _), List.singleton_append,
        List.getLast?_append_of_ne_nil _ (List.cons_ne_nil _ _), List.getLast?_cons_of_ne_nil hne]
      exact ih hrest

/-- A leading `$` is the root, also when a name follows it at once. -/
theorem read_join_root (h : ∀ n ∈ ('$' :: name) :: rest, IsPlainName n) :
    read (Text.join ['.'] (('$' :: name) :: rest)) = .ok (fieldStep name ++ rest.map .field) := by
  obtain ⟨hfirst, hrest⟩ := List.forall_mem_cons.1 h
  have hdot : '.' ∉ name := fun hmem => hfirst.dot (List.mem_cons_of_mem _ hmem)
  have hbracket : '[' ∉ name := fun hmem => hfirst.bracket (List.mem_cons_of_mem _ hmem)
  have hjoin : Text.join ['.'] (('$' :: name) :: rest) = '$' :: Text.join ['.'] (name :: rest) := by
    rw [Text.join_cons, Text.join_cons, List.cons_append]
  have htrim := trim_join_dots h
  rw [hjoin] at htrim ⊢
  simp only [read, htrim, readFrom_join_dots hdot hbracket hrest]

/-- Names are read as they stand if and only if the first one does not begin with the mark of the
root. -/
theorem read_join_dots_iff (h : ∀ n ∈ first :: rest, IsPlainName n) :
    read (Text.join ['.'] (first :: rest)) = .ok ((first :: rest).map .field) ↔ first.head? ≠ some '$' := by
  obtain ⟨hfirst, hrest⟩ := List.forall_mem_cons.1 h
  constructor
  · intro hread hroot
    obtain ⟨name, rfl⟩ := List.head?_eq_some_iff.1 hroot
    rw [read_join_root h] at hread
    have hsteps := Except.ok.inj hread
    cases name with
    | nil => simpa [fieldStep] using congrArg List.length hsteps
    | cons c name => simpa [fieldStep] using congrArg (List.head? ·) hsteps
  · intro hroot
    have hread := readFrom_join_dots hfirst.dot hfirst.bracket hrest
    rw [hfirst.fieldStep_eq] at hread
    refine read_of_readFrom (trim_join_dots h) ?_ hread
    rwa [Text.join_cons, List.head?_append_of_ne_nil _ hfirst.ne_nil]

end JsonPath

/-! ## Keys as paths -/

namespace JsonDocument

variable {place key : Text}

/-- The operations extract, replace and remove take this text for the place of the member of this key. -/
structure IsAddress (place key : Text) (members : Entries Json) (layout : Json.Layout) : Prop where
  extract : ∀ delimiter store, (Value.json ⟨.object members, layout⟩).invoke delimiter "extract".toList
    [place] store = (goOnIf ((Entries.get? key members).bind (Json.carrier? layout)), store)
  replace : ∀ delimiter raw store, (Value.json ⟨.object members, layout⟩).invoke delimiter
    "replace".toList [place, raw] store =
      (goOn (.json ⟨.object (Entries.set key ((Json.read? raw).getD (.string raw)) members), layout⟩), store)
  remove : ∀ delimiter store, (Value.json ⟨.object members, layout⟩).invoke delimiter "remove".toList
    [place] store = (goOn (.json ⟨.object (Entries.remove key members), layout⟩), store)

theorem isAddress_of_read (h : JsonPath.read place = .ok [.field key]) (members : Entries Json)
    (layout : Json.Layout) : IsAddress place key members layout where
  extract delimiter store := by
    have hbody : JsonDocument.extract delimiter ⟨.object members, layout⟩ (Args.bind (.fixed 1) [place]) =
        goOnIf ((Entries.get? key members).bind (Json.carrier? layout)) := by
      have hlookup : Json.lookup [.field key] (.object members) = Entries.get? key members := by
        rw [Json.lookup]
        cases Entries.get? key members <;> rfl
      rw [JsonDocument.extract, path_of_read h rfl]
      exact congrArg (fun found : Option Json => goOnIf (found.bind (Json.carrier? layout))) hlookup
    exact congrArg (·, store) hbody
  replace delimiter raw store := by
    have hbody : JsonDocument.replace delimiter ⟨.object members, layout⟩
        (Args.bind (.fixed 2) [place, raw]) =
          goOn (.json ⟨.object (Entries.set key ((Json.read? raw).getD (.string raw)) members), layout⟩) := by
      rw [JsonDocument.replace, path_of_read h rfl]
      rfl
    exact congrArg (·, store) hbody
  remove delimiter store := by
    have hbody : JsonDocument.remove delimiter ⟨.object members, layout⟩ (Args.bind (.fixed 1) [place]) =
        goOn (.json ⟨.object (Entries.remove key members), layout⟩) := by
      rw [JsonDocument.remove, path_of_read h rfl]
      rfl
    exact congrArg (·, store) hbody

/-- The operation keys reports nothing but the keys of the root, when it is an object. -/
theorem exists_member_of_keys {doc : JsonDocument} {delimiter : Char} {store : Store}
    {reported : ItemList}
    (h : (Value.json doc).invoke delimiter "keys".toList [] store = (goOn (.list reported), store))
    (hkey : key ∈ reported.items) :
    ∃ members v, doc.root = .object members ∧ Entries.get? key members = some v := by
  have hbody : JsonDocument.keys delimiter doc (Args.bind (.fixed 1) []) = goOn (.list reported) :=
    congrArg Prod.fst h
  have hroot : JsonPath.read [] = .ok [] := rfl
  rw [JsonDocument.keys, path_of_read hroot rfl] at hbody
  obtain rfl := Value.list.inj (Option.some.inj (Except.ok.inj hbody))
  obtain ⟨root, layout⟩ := doc
  cases root with
  | object members =>
    obtain ⟨v, hv⟩ := Option.ne_none_iff_exists'.1 fun hnone => Entries.get?_eq_none_iff.1 hnone hkey
    exact ⟨members, v, rfl, hv⟩
  | _ => cases hkey

end JsonDocument

/-- Names joined by dots are read as the fields with these names, if and only if the first one does not
begin with `$`; if it does, this character is taken for the root and the rest for the name. So a key that
the operation keys reports is where extract, replace and remove find its member, if it does not begin with
`$`. If it does, they look for the member of another key. -/
theorem dotted_names_address {first : Text} {rest : List Text}
    (h : ∀ name ∈ first :: rest, JsonPath.IsPlainName name) :
    (JsonPath.read (Text.join ['.'] (first :: rest)) = .ok ((first :: rest).map .field) ↔
      first.head? ≠ some '$') ∧
    (∀ name, first = '$' :: name → JsonPath.read (Text.join ['.'] (first :: rest)) =
      .ok (JsonPath.fieldStep name ++ rest.map .field)) ∧
    ∀ (doc : JsonDocument) (delimiter : Char) (store : Store) (reported : ItemList),
      (Value.json doc).invoke delimiter "keys".toList [] store = (goOn (.list reported), store) →
      ∀ key ∈ reported.items, JsonPath.IsPlainName key →
        ∃ members v, doc.root = .object members ∧ Entries.get? key members = some v ∧
          (key.head? ≠ some '$' → JsonDocument.IsAddress key key members doc.layout) ∧
          ∀ name, key = '$' :: name → name ≠ [] → JsonDocument.IsAddress key name members doc.layout := by
  refine ⟨JsonPath.read_join_dots_iff h, ?_, ?_⟩
  · rintro name rfl
    exact JsonPath.read_join_root h
  · intro doc delimiter store reported hkeys key hkey hplain
    obtain ⟨members, v, hobject, hv⟩ := JsonDocument.exists_member_of_keys hkeys hkey
    have hjoin (name : Text) : Text.join ['.'] [name] = name := by simp [Text.join]
    refine ⟨members, v, hobject, hv, fun hroot => ?_, ?_⟩
    · have hread := (JsonPath.read_join_dots_iff (List.forall_mem_singleton.2 hplain)).2 hroot
      rw [hjoin] at hread
      exact JsonDocument.isAddress_of_read hread members doc.layout
    · rintro name rfl hname
      have hread := JsonPath.read_join_root (List.forall_mem_singleton.2 hplain)
      rw [hjoin, JsonPath.fieldStep, if_neg hname] at hread
      exact JsonDocument.isAddress_of_read hread members doc.layout

/-- Among the keys `$id`, `id` and `a]b c`, only the first one is misread: `remove` takes out another
member. -/
theorem dotted_names_address_root :
    let members : Entries Json :=
      [("$id".toList, .bool true), ("id".toList, .bool false), ("a]b c".toList, .null)]
    let doc : JsonDocument := ⟨.object members, .compact⟩
    let left : Entries Json := [("$id".toList, .bool true), ("a]b c".toList, .null)]
    (∀ name ∈ ["$id".toList, "a]b c".toList], JsonPath.IsPlainName name) ∧
    JsonPath.read "$id.a]b c".toList = .ok [.field "id".toList, .field "a]b c".toList] ∧
    (Value.json doc).invoke ',' "keys".toList [] [] =
      (goOn (.list ⟨["$id".toList, "id".toList, "a]b c".toList], ','⟩), []) ∧
    (Value.json doc).invoke ',' "remove".toList ["$id".toList] [] =
      (goOn (.json ⟨.object left, .compact⟩), []) := by
  intro members doc left
  have hplain : ∀ name ∈ ["$id".toList, "a]b c".toList], JsonPath.IsPlainName name := by
    simp only [List.forall_mem_cons, List.not_mem_nil, false_implies, implies_true, and_true]
    exact ⟨⟨by decide, by decide, by decide, by rintro _ ⟨⟩; rfl, by rintro _ ⟨⟩; rfl⟩,
      ⟨by decide, by decide, by decide, by rintro _ ⟨⟩; rfl, by rintro _ ⟨⟩; rfl⟩⟩
  have hkeys : (Value.json doc).invoke ',' "keys".toList [] [] =
      (goOn (.list ⟨["$id".toList, "id".toList, "a]b c".toList], ','⟩), []) := rfl
  obtain ⟨-, hroot, haddress⟩ := dotted_names_address hplain
  obtain ⟨members', v, hobject, -, -, hother⟩ := haddress doc ',' [] _ hkeys "$id".toList
    List.mem_cons_self (hplain _ List.mem_cons_self)
  obtain rfl := Json.object.inj hobject
  exact ⟨hplain, hroot "id".toList rfl, hkeys, (hother "id".toList rfl (by decide)).remove ',' []⟩

end SeedChain
