import SeedChain.Command.Variables
import SeedChain.Evaluator.Seed
import SeedChain.Operation.Table
/-!
# Variables and documents

A JSON value can come into a chain as a variable of the host, or out of a document: a list resumes the
document itself, and the operations of documents take parts out of it. Each of these ways turns JSON
values into texts and typed values by rules of its own. They agree: items are the same for a variable
and for an array (`Stored.resume?_ofJson_array`), and a variable is what `extract` goes on with
(`Stored.exists_ofJson_eq`).

Main result: lists resumed from a variable, resumed from a document and taken out of a document are the
same, and so are variables and the values taken out of a document (`variables_agree_with_documents`).
-/

namespace SeedChain

/-- What stands at a place of a document, the place being written as a path. -/
def JsonDocument.Holds (doc : JsonDocument) (place : Text) (v : Json) : Prop :=
  ∃ path, JsonPath.read place = .ok path ∧ doc.root.lookup path = some v

/-- A seed that names the stored value resumes it as this list. -/
def Stored.IsResumedAs (env : Environment) (stored : Stored) (l : ItemList) : Prop :=
  ∀ (seed : Text) (store : Store), isIdentifier seed.trim = true →
    Entries.get? seed.trim store = some stored → build env .list seed store = .ok (.list l)

/-! ## Items -/

theorem Json.itemText_of_scalarText? {v : Json} {t : Text} (h : v.scalarText? = some t) :
    v.itemText = t := by
  cases v with
  | null => exact Option.some.inj h
  | bool b => cases b <;> exact Option.some.inj h
  | number n => exact Option.some.inj h
  | string s => exact Option.some.inj h
  | array items => cases h
  | object members => cases h

theorem Json.map_itemText_of_mapM {items : List Json} {texts : List Text}
    (h : items.mapM Json.scalarText? = some texts) : items.map Json.itemText = texts := by
  induction items generalizing texts with
  | nil => exact Option.some.inj h
  | cons v items ih =>
    simp only [List.mapM_cons, Option.bind_eq_bind, Option.bind_eq_some_iff] at h
    obtain ⟨t, ht, rest, hrest, heq⟩ := h
    rw [List.map_cons, itemText_of_scalarText? ht, ih hrest]
    exact Option.some.inj heq

/-- Kept as items or as a document, an array is resumed with the same items. -/
theorem Stored.resume?_ofJson_array (delimiter : Char) (items : List Json) :
    (Stored.ofJson (.array items)).resume? .list delimiter =
      some (.list ⟨items.map Json.itemText, delimiter⟩) := by
  cases hscalars : items.mapM Json.scalarText? with
  | some texts =>
    simp only [Stored.ofJson, hscalars, Stored.resume?, if_true, Json.map_itemText_of_mapM hscalars]
  | none =>
    simp only [Stored.ofJson, hscalars]
    rfl

theorem Stored.isResumedAs {env : Environment} {stored : Stored} {l : ItemList}
    (h : stored.resume? .list env.delimiter = some (.list l)) : stored.IsResumedAs env l := by
  intro seed store hname hstored
  have hresume : SeedChain.resume? env.delimiter .list seed store = some (.list l) := by
    simp only [SeedChain.resume?, hname, if_true, hstored, Option.bind_some, h]
  simp only [build, hresume]

/-! ## Single values -/

/-- What is stored for a value is what goes on when it is taken out of a document on one line. -/
theorem Stored.exists_ofJson_eq {v : Json} (hnull : v ≠ .null) (harray : ∀ items, v ≠ .array items) :
    ∃ w, Stored.ofJson v = .value w ∧ v.carrier? .compact = some w := by
  cases v with
  | null => exact absurd rfl hnull
  | array items => exact absurd rfl (harray items)
  | number n =>
    cases hread : Decimal.read n.text with
    | ok d => exact ⟨.number d, by simp only [Stored.ofJson, hread],
        by simp only [Json.carrier?, Decimal.read?, hread, Except.toOption]⟩
    | error reason => exact ⟨.text n.text, by simp only [Stored.ofJson, hread],
        by simp only [Json.carrier?, Decimal.read?, hread, Except.toOption]⟩
  | bool b => exact ⟨_, rfl, rfl⟩
  | string t => exact ⟨_, rfl, rfl⟩
  | object members => exact ⟨_, rfl, rfl⟩

/-! ## Taking parts out of a document -/

namespace JsonDocument

variable {doc : JsonDocument} {place : Text} {v : Json}

theorem path_of_read {path : JsonPath} (h : JsonPath.read place = .ok path) {args : Args}
    (hplace : args.getD 0 [] = place) (function : String) : args.path function = .ok path := by
  rw [Args.path, hplace, h]
  rfl

theorem Holds.path_eq (h : doc.Holds place v) (function : String) :
    ∃ path, Args.path (Args.bind (.fixed 1) [place]) function = .ok path ∧
      doc.root.lookup path = some v := by
  obtain ⟨path, hread, hlookup⟩ := h
  exact ⟨path, path_of_read hread rfl function, hlookup⟩

theorem Holds.invoke_extract (h : doc.Holds place v) (delimiter : Char) (store : Store) :
    (Value.json doc).invoke delimiter "extract".toList [place] store =
      (goOnIf (v.carrier? doc.layout), store) := by
  obtain ⟨path, hpath, hlookup⟩ := h.path_eq "extract"
  have hbody : extract delimiter doc (Args.bind (.fixed 1) [place]) = goOnIf (v.carrier? doc.layout) := by
    rw [extract, hpath]
    exact congrArg (fun found : Option Json => goOnIf (found.bind (Json.carrier? doc.layout))) hlookup
  exact congrArg (·, store) hbody

theorem Holds.invoke_list {items : List Json} (h : doc.Holds place (.array items)) (delimiter : Char)
    (store : Store) :
    (Value.json doc).invoke delimiter "list".toList [place] store =
      (goOn (.list ⟨items.map Json.itemText, delimiter⟩), store) := by
  obtain ⟨path, hpath, hlookup⟩ := h.path_eq "list"
  have hbody : list delimiter doc (Args.bind (.fixed 1) [place]) =
      goOn (.list ⟨items.map Json.itemText, delimiter⟩) := by
    rw [list, hpath]
    exact congrArg (fun found : Option Json =>
      goOn (.list ⟨(found.bind Json.itemTexts?).getD [], delimiter⟩)) hlookup
  exact congrArg (·, store) hbody

end JsonDocument

/-! ## Agreement -/

/-- For an array, the list resumed from a variable, the list resumed from a document that is the array,
and the list taken out of a document are the same. For any other value but `null`, the variable is the
value that is taken out of a document on one line. -/
theorem variables_agree_with_documents (env : Environment) :
    (∀ items : List Json, ∃ l : ItemList,
      l.items = items.map Json.itemText ∧ l.delimiter = env.delimiter ∧
      (Stored.ofJson (.array items)).IsResumedAs env l ∧
      (∀ layout, (Stored.value (.json ⟨.array items, layout⟩)).IsResumedAs env l) ∧
      ∀ (doc : JsonDocument) (place : Text) (store : Store), doc.Holds place (.array items) →
        (Value.json doc).invoke env.delimiter "list".toList [place] store = (goOn (.list l), store)) ∧
    ∀ v : Json, v ≠ .null → (∀ items, v ≠ .array items) →
      ∃ w, Stored.ofJson v = .value w ∧
        ∀ (doc : JsonDocument) (place : Text) (store : Store), doc.layout = .compact →
          doc.Holds place v →
          (Value.json doc).invoke env.delimiter "extract".toList [place] store = (goOn w, store) := by
  refine ⟨fun items => ?_, fun v hnull harray => ?_⟩
  · refine ⟨⟨items.map Json.itemText, env.delimiter⟩, rfl, rfl, ?_, fun layout => ?_,
      fun doc place store h => h.invoke_list env.delimiter store⟩
    · exact Stored.isResumedAs (Stored.resume?_ofJson_array env.delimiter items)
    · exact Stored.isResumedAs rfl
  · obtain ⟨w, hstored, hcarrier⟩ := Stored.exists_ofJson_eq hnull harray
    refine ⟨w, hstored, fun doc place store hlayout h => ?_⟩
    rw [h.invoke_extract, hlayout, hcarrier]
    rfl

/-- An array that holds an object is kept as a document, and resumed as a list with the object's text. -/
theorem variables_agree_with_documents_nested :
    let env := Environment.plain ';'
    let inner : Json := .object [(['k'], .array [.null])]
    let items : List Json := [.string "a;b".toList, .null, .bool true, inner]
    let doc : JsonDocument := ⟨.object [("rows".toList, .array items), (['m'], inner)], .compact⟩
    doc.Holds "rows".toList (.array items) ∧ doc.Holds ['m'] inner ∧
    (∃ l : ItemList, l.items = items.map Json.itemText ∧ l.delimiter = ';' ∧
      build env .list ['v'] [(['v'], Stored.ofJson (.array items))] = .ok (.list l) ∧
      build env .list ['v'] [(['v'], .value (.json ⟨.array items, .indented⟩))] = .ok (.list l) ∧
      (Value.json doc).invoke ';' "list".toList ["rows".toList] [] = (goOn (.list l), [])) ∧
    ∃ w, Stored.ofJson inner = .value w ∧
      (Value.json doc).invoke ';' "extract".toList [['m']] [] = (goOn w, []) := by
  intro env inner items doc
  have hrows : doc.Holds "rows".toList (.array items) := ⟨[.field "rows".toList], rfl, rfl⟩
  have hinner : doc.Holds ['m'] inner := ⟨[.field ['m']], rfl, rfl⟩
  obtain ⟨harrays, hothers⟩ := variables_agree_with_documents env
  obtain ⟨l, hitems, hdelimiter, hvariable, hdocument, hlist⟩ := harrays items
  obtain ⟨w, hstored, hextract⟩ := hothers inner (by simp [inner]) (by simp [inner])
  exact ⟨hrows, hinner, ⟨l, hitems, hdelimiter, hvariable ['v'] _ rfl rfl,
    hdocument .indented ['v'] _ rfl rfl, hlist doc _ [] hrows⟩, w, hstored, hextract doc _ [] rfl hinner⟩

end SeedChain
