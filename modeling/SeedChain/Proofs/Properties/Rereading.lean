import SeedChain.Proofs.Properties
import SeedChain.Proofs.Properties.Lines
/-!
# Reading printed properties

Nothing is escaped when properties are printed, so they are read back if they are such as lines can say:
keys begin a line with content and hold no separator, and keys, values and names of sections have no blanks
around them and no line feed in them (`Written`). All that is read is such (`written_of_read`), and all
that is such is read back (`read_text`). So the text that is printed for what has been read is a normal
form (`printed_read_back`).

A call of `set` takes any text, and what it makes is read back if and only if its arguments are such as
lines can say (`set_read_back_iff`).
-/

namespace SeedChain

open Text (OnLine)

/-! ## Entries -/

namespace Properties

variable {marks others : List Char} {p q : Properties} {key value line t : Text}

/-- A key as it is read: it begins a line with content, and holds no separator. -/
structure IsKey (marks : List Char) (key : Text) : Prop extends IsContent marks key where
  no_separator : ∀ c ∈ key, c ≠ '=' ∧ c ≠ ':'

/-- All entries are such as lines can say. -/
def Written (marks : List Char) (p : Properties) : Prop := ∀ e ∈ p, IsKey marks e.1 ∧ OnLine e.2

/-- The line that an entry is printed on. -/
def entryLine (e : Text × Text) : Text := e.1 ++ '=' :: e.2

theorem IsContent.of_subset (h : IsContent marks line) (hsub : others ⊆ marks) :
    IsContent others line where
  toOnLine := h.toOnLine
  visible := by
    have hvisible := h.visible
    cases line with
    | nil => cases hvisible
    | cons c line =>
      simp only [isComment, List.contains_eq_mem, decide_eq_false_iff_not] at hvisible ⊢
      exact fun hmem => hvisible (hsub hmem)

theorem IsContent.exists_cons (h : IsContent marks line) :
    ∃ c rest, line = c :: rest ∧ c ∉ marks ∧ Text.isWhite c = false := by
  cases hline : line with
  | nil =>
    have hvisible := h.visible
    rw [hline] at hvisible
    cases hvisible
  | cons c rest =>
    subst hline
    refine ⟨c, rest, rfl, ?_, h.head?_not_white c rfl⟩
    simpa [isComment] using h.visible

/-- An entry stands on a line with content. -/
theorem isContent_entryLine (hkey : IsKey marks key) (hvalue : OnLine value) :
    IsContent marks (entryLine (key, value)) := by
  obtain ⟨c, rest, rfl, hmarks, hwhite⟩ := hkey.exists_cons
  refine ⟨⟨Text.trim_of_ends ?_ ?_, ?_⟩, ?_⟩
  · rintro _ ⟨⟩
    exact hwhite
  · intro d hd
    rw [entryLine, List.getLast?_append, List.getLast?_cons] at hd
    obtain rfl : value.getLast?.getD '=' = d := Option.some.inj hd
    cases hlast : value.getLast? with
    | none => decide
    | some d => exact hvalue.getLast?_not_white d hlast
  · intro hmem
    rcases List.mem_append.1 hmem with hmem | hmem
    · exact hkey.no_lineFeed hmem
    · exact hvalue.no_lineFeed ((List.mem_cons.1 hmem).resolve_left (by decide))
  · simpa [entryLine, isComment] using hmarks

theorem readEntry_entryLine (hkey : IsKey marks key) (hvalue : OnLine value) :
    readEntry (entryLine (key, value)) = (key, value) := by
  have hplain : ∀ c ∈ key, (!(c == '=' || c == ':')) = true := by
    intro c hc
    simp [hkey.no_separator c hc]
  have htake := Text.takeWhile_append_stop (p := fun c => !(c == '=' || c == ':')) hplain
    (show (!('=' == '=' || '=' == ':')) = false from rfl) value
  have hdrop := Text.dropWhile_append_stop (p := fun c => !(c == '=' || c == ':')) hplain
    (show (!('=' == '=' || '=' == ':')) = false from rfl) value
  simp only [readEntry, entryLine, htake, hdrop, List.drop_one, List.tail_cons, hkey.trim_eq,
    hvalue.trim_eq]

theorem addLine_entryLine (hkey : IsKey marks key) (hvalue : OnLine value) (p : Properties) :
    addLine (entryLine (key, value)) p = .ok (Entries.set key value p) := by
  obtain ⟨c, rest, rfl, -⟩ := hkey.exists_cons
  simp only [addLine, readEntry_entryLine hkey hvalue, List.cons_ne_nil, if_false]

/-- What a line with content sets is such as a line can say. -/
theorem exists_set_of_addLine (hline : IsContent marks line) (h : addLine line p = .ok q) :
    ∃ key value, IsKey marks key ∧ OnLine value ∧ q = Entries.set key value p := by
  let isSeparator (c : Char) := c == '=' || c == ':'
  let before : Text := line.takeWhile fun c => !isSeparator c
  let behind : Text := (line.dropWhile fun c => !isSeparator c).drop 1
  change (if before.trim = [] then Except.error (Reason.missingKey line)
    else .ok (Entries.set before.trim behind.trim p)) = .ok q at h
  have hbefore : before ⊆ line := (List.takeWhile_sublist _).subset
  have hbehind : behind ⊆ line :=
    ((List.drop_sublist _ _).trans (List.dropWhile_sublist _)).subset
  split at h
  · cases h
  · rename_i hne
    cases h
    refine ⟨before.trim, behind.trim, ?_, Text.onLine_trim fun hmem => hline.no_lineFeed (hbehind hmem),
      rfl⟩
    refine { Text.onLine_trim fun hmem => hline.no_lineFeed (hbefore hmem) with
      visible := ?_, no_separator := fun c hc => ?_ }
    · -- the key is not empty, so it begins with the first character of the line
      obtain ⟨c, rest, rfl, hmarks, hwhite⟩ := hline.exists_cons
      by_cases hc : isSeparator c = true
      · exact absurd (congrArg Text.trim (List.takeWhile_cons_of_neg (by simp [hc]))) hne
      · have hfirst : before = c :: rest.takeWhile fun c => !isSeparator c :=
          List.takeWhile_cons_of_pos (by simp [hc])
        obtain ⟨more, hkey⟩ := List.head?_eq_some_iff.1
          (Text.head?_trim_cons hwhite (rest.takeWhile fun c => !isSeparator c))
        rw [hfirst, hkey]
        simpa [isComment] using hmarks
    · have hplain := List.mem_takeWhile_imp (Text.trim_subset _ hc)
      simpa [isSeparator] using hplain

theorem Written.set (hp : Written marks p) (hkey : IsKey marks key) (hvalue : OnLine value) :
    Written marks (Entries.set key value p) := by
  intro e he
  rcases Entries.mem_set he with rfl | he
  · exact ⟨hkey, hvalue⟩
  · exact hp e he

theorem written_set_iff (hp : Written marks p) :
    Written marks (Entries.set key value p) ↔ IsKey marks key ∧ OnLine value :=
  ⟨fun h => h _ (Entries.mem_set_self key value p), fun h => hp.set h.1 h.2⟩

/-! ## Documents without sections -/

theorem contentLines_text (hp : Written marks p) (hsub : others ⊆ marks) :
    contentLines others (text p) = p.map entryLine := by
  have hjoin := contentLines_join others (.inl rfl) (p.map entryLine)
  rw [List.flatMap_map] at hjoin
  rw [List.map_eq_flatMap]
  refine hjoin.trans (List.flatMap_congr fun e he => contentLines_of_isContent ?_)
  exact (isContent_entryLine (hp e he).1 (hp e he).2).of_subset hsub

/-- Entries with new keys are added by their lines. -/
theorem foldlM_entryLine (hp : Written marks p) (hnodup : (Entries.keys (q ++ p)).Nodup) :
    (p.map entryLine).foldlM (fun properties line => addLine line properties) q = .ok (q ++ p) := by
  induction p generalizing q with
  | nil =>
    rw [List.append_nil]
    rfl
  | cons e p ih =>
    obtain ⟨⟨hkey, hvalue⟩, hp⟩ := List.forall_mem_cons.1 hp
    have hassoc : q ++ e :: p = (q ++ [e]) ++ p := by simp
    rw [List.map_cons, List.foldlM_cons, addLine_entryLine hkey hvalue,
      Entries.set_of_not_mem (Entries.not_mem_keys_of_nodup hnodup)]
    rw [hassoc] at hnodup ⊢
    exact ih hp hnodup

/-- What lines can say is read back. -/
theorem read_text (hp : Written ['#', '!'] p) (hnodup : (Entries.keys p).Nodup) :
    read (text p) = .ok p := by
  rw [read, contentLines_text hp (List.Subset.refl _)]
  exact foldlM_entryLine hp hnodup

/-- What is read is such as lines can say. -/
theorem written_of_read (h : read t = .ok p) : Written ['#', '!'] p := by
  refine foldlM_invariant (P := Written ['#', '!']) h nofun fun line hline p next hp hnext => ?_
  obtain ⟨key, value, hkey, hvalue, rfl⟩ :=
    exists_set_of_addLine (isContent_of_mem_contentLines hline) hnext
  exact hp.set hkey hvalue

theorem read_text_iff (hnodup : (Entries.keys p).Nodup) :
    read (text p) = .ok p ↔ Written ['#', '!'] p :=
  ⟨written_of_read, fun hp => read_text hp hnodup⟩

end Properties

/-! ## Documents with sections -/

namespace Sections

open Properties (IsKey IsContent contentLines entryLine)

variable {s done todo next : Sections} {name key value current line t : Text} {p : Properties}

/-- Names and entries are such as lines can say. A bracket at the beginning of a line opens a header, so
none begins a key. -/
structure Written (s : Sections) : Prop where
  name : ∀ e ∈ s, OnLine e.1
  properties : ∀ e ∈ s, Properties.Written ['[', ';', '#'] e.2

/-- The header of a section, if it has a name. -/
def headerLines (name : Text) : List Text := if name = [] then [] else ['[' :: name ++ [']']]

/-- The lines that a section is printed on. -/
def sectionLines (e : Text × Properties) : List Text := headerLines e.1 ++ e.2.map entryLine

theorem isContent_header {marks : List Char} (hmark : '[' ∉ marks) (hname : OnLine name) :
    IsContent marks ('[' :: name ++ [']']) where
  trim_eq := Text.trim_between (by decide) (by decide) name
  no_lineFeed := by simp [hname.no_lineFeed]
  visible := by simpa [Properties.isComment] using hmark

theorem contentLines_block (hname : OnLine name) (hp : Properties.Written ['[', ';', '#'] p) :
    (block name p).toList.flatMap (contentLines [';', '#']) = sectionLines (name, p) := by
  have htext : contentLines [';', '#'] (Properties.text p) = p.map entryLine :=
    Properties.contentLines_text hp (by decide)
  have hheader : contentLines [';', '#'] ('[' :: name ++ [']']) = ['[' :: name ++ [']']] :=
    Properties.contentLines_of_isContent (isContent_header (by decide) hname)
  unfold block sectionLines headerLines
  by_cases hnil : name = []
  · simp only [hnil, if_true, List.nil_append]
    split
    · rename_i hp
      rw [hp]
      rfl
    · exact (List.flatMap_singleton _ _).trans htext
  · simp only [hnil, if_false, Option.toList_some, List.flatMap_singleton]
    split
    · rename_i hp
      rw [hheader, hp]
      rfl
    · rw [Properties.contentLines_append, hheader, htext]

theorem text_eq (s : Sections) :
    text s = Text.join ['\n', '\n'] (s.flatMap fun e => (block e.1 e.2).toList) := by
  rw [text, List.filterMap_eq_flatMap_toList]

theorem contentLines_text (hs : s.Written) : contentLines [';', '#'] (text s) = s.flatMap sectionLines := by
  rw [text_eq, Properties.contentLines_join [';', '#'] (.inr rfl), List.flatMap_assoc]
  exact List.flatMap_congr fun e he => contentLines_block (hs.name e he) (hs.properties e he)

theorem readLines_header (hname : OnLine name) (current : Text) (s : Sections) (lines : List Text) :
    readLines current s (('[' :: name ++ [']']) :: lines) =
      readLines name (Entries.set name (propertiesOf name s) s) lines := by
  have hsuffix : ([']'] : Text).isSuffixOf? (name ++ [']']) = some name := by
    simp [List.isSuffixOf?, List.isPrefixOf?]
  rw [List.cons_append, readLines, hsuffix]
  simp only [hname.trim_eq]

theorem readLines_line (hline : IsContent ['[', ';', '#'] line)
    (h : Properties.addLine line (propertiesOf current s) = .ok p) (lines : List Text) :
    readLines current s (line :: lines) = readLines current (Entries.set current p s) lines := by
  obtain ⟨c, rest, rfl, hmarks, -⟩ := hline.exists_cons
  rw [readLines, h]
  rintro header ⟨⟩
  exact hmarks List.mem_cons_self

/-- Under the header of a section, entries with new keys are added to it by their lines. -/
theorem readLines_entryLine (hp : Properties.Written ['[', ';', '#'] p) (hmem : current ∈ Entries.keys s)
    (hnodup : (Entries.keys (propertiesOf current s ++ p)).Nodup) (lines : List Text) :
    readLines current s (p.map entryLine ++ lines) =
      readLines current (Entries.set current (propertiesOf current s ++ p) s) lines := by
  induction p generalizing s with
  | nil =>
    obtain ⟨properties, hget⟩ := Entries.exists_get?_of_mem_keys hmem
    have hself : propertiesOf current s = properties := by
      rw [propertiesOf, hget]
      rfl
    rw [List.append_nil, hself, Entries.set_of_get? hget]
    rfl
  | cons e p ih =>
    obtain ⟨⟨hkey, hvalue⟩, hp⟩ := List.forall_mem_cons.1 hp
    have hassoc : propertiesOf current s ++ e :: p = (propertiesOf current s ++ [e]) ++ p := by simp
    have hline := Properties.addLine_entryLine hkey hvalue (propertiesOf current s)
    rw [Entries.set_of_not_mem (Entries.not_mem_keys_of_nodup hnodup)] at hline
    have hmem' : current ∈ Entries.keys (Entries.set current (propertiesOf current s ++ [e]) s) :=
      Entries.mem_keys_set.2 (.inl rfl)
    have hprops := propertiesOf_set current (propertiesOf current s ++ [e]) s
    rw [hassoc] at hnodup ⊢
    rw [List.map_cons, List.cons_append, readLines_line (Properties.isContent_entryLine hkey hvalue) hline,
      ih hp hmem' (by rw [hprops]; exact hnodup), hprops, Entries.set_set]

/-- Sections with new names are added by their lines. -/
theorem readLines_sectionLines (htodo : Written todo) (hnames : ∀ e ∈ todo, e.1 ≠ [])
    (hnodup : (Entries.keys (done ++ todo)).Nodup) (hkeys : ∀ e ∈ todo, (Entries.keys e.2).Nodup) :
    readLines current done (todo.flatMap sectionLines) = .ok (done ++ todo) := by
  induction todo generalizing current done with
  | nil =>
    rw [List.append_nil]
    rfl
  | cons e todo ih =>
    obtain ⟨name, p⟩ := e
    obtain ⟨hname, hnames⟩ := List.forall_mem_cons.1 hnames
    obtain ⟨hpnodup, hkeys⟩ := List.forall_mem_cons.1 hkeys
    obtain ⟨honline, honlines⟩ := List.forall_mem_cons.1 htodo.name
    obtain ⟨hp, hproperties⟩ := List.forall_mem_cons.1 htodo.properties
    have hassoc : done ++ (name, p) :: todo = (done ++ [(name, p)]) ++ todo := by simp
    have hnew : name ∉ Entries.keys done := Entries.not_mem_keys_of_nodup hnodup
    have hnone : propertiesOf name done = [] := by
      rw [propertiesOf, Entries.get?_eq_none_iff.2 hnew]
      rfl
    have hmem : name ∈ Entries.keys (Entries.set name [] done) := Entries.mem_keys_set.2 (.inl rfl)
    have hempty := propertiesOf_set name [] done
    rw [hassoc] at hnodup ⊢
    rw [List.flatMap_cons, sectionLines, headerLines, if_neg hname, List.append_assoc,
      List.singleton_append, readLines_header honline, hnone,
      readLines_entryLine hp hmem (hempty.symm ▸ hpnodup), hempty, List.nil_append, Entries.set_set,
      Entries.set_of_not_mem hnew]
    exact ih ⟨honlines, hproperties⟩ hnames hnodup hkeys

/-- What lines can say is read back. -/
theorem read_text (hs : s.Written) (hwell : s.WellFormed) : read (text s) = .ok s := by
  obtain ⟨names, hkeys⟩ := List.head?_eq_some_iff.1 hwell.head
  cases s with
  | nil => cases hkeys
  | cons e s =>
    obtain ⟨name, p⟩ := e
    obtain rfl : name = [] := (List.cons.inj hkeys).1
    have hnodup : (Entries.keys ([([], p)] ++ s)).Nodup := hwell.nodup
    obtain ⟨hpnodup, hskeys⟩ := List.forall_mem_cons.1 hwell.keys_nodup
    obtain ⟨-, hname⟩ := List.forall_mem_cons.1 hs.name
    obtain ⟨hp, hproperties⟩ := List.forall_mem_cons.1 hs.properties
    have hnames : ∀ e ∈ s, e.1 ≠ [] := by
      rintro e he heq
      have hmem : e.1 ∈ Entries.keys s := List.mem_map_of_mem he
      exact (List.nodup_cons.1 hnodup).1 (heq ▸ hmem)
    rw [read, contentLines_text hs, List.flatMap_cons]
    -- the section without a name is there from the start
    have hfirst := readLines_entryLine (s := start) hp List.mem_cons_self hpnodup (s.flatMap sectionLines)
    refine hfirst.trans ?_
    have hothers : Written s := ⟨hname, hproperties⟩
    exact readLines_sectionLines hothers hnames hnodup hskeys

theorem Written.set (hs : s.Written) (hname : OnLine name) (hp : Properties.Written ['[', ';', '#'] p) :
    Written (Entries.set name p s) := by
  constructor
  · intro e he
    rcases Entries.mem_set he with rfl | he
    · exact hname
    · exact hs.name e he
  · intro e he
    rcases Entries.mem_set he with rfl | he
    · exact hp
    · exact hs.properties e he

theorem Written.propertiesOf (hs : s.Written) (name : Text) :
    Properties.Written ['[', ';', '#'] (propertiesOf name s) := by
  unfold Sections.propertiesOf
  cases hget : Entries.get? name s with
  | none => exact nofun
  | some p => exact hs.properties _ (Entries.mem_of_get? hget)

theorem written_of_readLines {lines : List Text} (h : readLines current s lines = .ok next)
    (hall : ∀ line ∈ lines, IsContent [';', '#'] line) (hcurrent : OnLine current) (hs : s.Written) :
    next.Written := by
  induction lines generalizing current s with
  | nil =>
    cases h
    exact hs
  | cons line lines ih =>
    obtain ⟨hline, hlines⟩ := List.forall_mem_cons.1 hall
    unfold readLines at h
    split at h
    · rename_i header
      split at h
      · rename_i name hname
        have honline : OnLine (Text.trim name) := by
          refine Text.onLine_trim fun hmem => hline.no_lineFeed ?_
          rw [Text.eq_of_isSuffixOf? hname]
          exact List.mem_cons_of_mem _ (List.mem_append_left _ hmem)
        exact ih h hlines honline (hs.set honline (hs.propertiesOf _))
      · cases h
    · rename_i hheader
      split at h
      · rename_i p hp
        -- the line opens no header, so its key does not begin with a bracket
        have hcontent : IsContent ['[', ';', '#'] line := by
          obtain ⟨c, rest, rfl, hmarks, -⟩ := hline.exists_cons
          refine ⟨hline.toOnLine, ?_⟩
          have hbracket : c ≠ '[' := fun heq => hheader rest (heq ▸ rfl)
          simpa [Properties.isComment, hbracket] using hmarks
        obtain ⟨key, value, hkey, hvalue, rfl⟩ := Properties.exists_set_of_addLine hcontent hp
        exact ih h hlines hcurrent (hs.set hcurrent ((hs.propertiesOf current).set hkey hvalue))
      · cases h

/-- What is read is such as lines can say. -/
theorem written_of_read (h : read t = .ok s) : s.Written := by
  have hstart : Written start := ⟨by simp [start, Text.onLine_nil], by simp [start, Properties.Written]⟩
  exact written_of_readLines h (fun _ hline => Properties.isContent_of_mem_contentLines hline)
    Text.onLine_nil hstart

theorem read_text_iff (hwell : s.WellFormed) : read (text s) = .ok s ↔ s.Written :=
  ⟨written_of_read, fun hs => read_text hs hwell⟩

theorem written_setValue_iff (hs : s.Written) :
    (setValue name key value s).Written ↔
      OnLine name ∧ IsKey ['[', ';', '#'] key ∧ OnLine value := by
  constructor
  · intro h
    have hmem := Entries.mem_set_self name (Entries.set key value (propertiesOf name s)) s
    exact ⟨h.name _ hmem, (Properties.written_set_iff (hs.propertiesOf name)).1 (h.properties _ hmem)⟩
  · rintro ⟨hname, hkey, hvalue⟩
    exact hs.set hname ((hs.propertiesOf name).set hkey hvalue)

end Sections

/-! ## Normal forms -/

theorem exists_of_map_eq_ok {α : Type} {carrier : α → Value} {result : Except Reason α} {v : Value}
    (h : carrier <$> result = .ok v) : ∃ x, result = .ok x ∧ v = carrier x := by
  cases result with
  | error reason => cases h
  | ok x => exact ⟨x, rfl, (Except.ok.inj h).symm⟩

theorem read_config_iff {env : Environment} {t : Text} {p : Properties} :
    Value.read env .config t = .ok (.config p) ↔ Properties.read t = .ok p :=
  ⟨eq_ok_of_map_eq_ok fun _ _ => Value.config.inj, fun h => congrArg (Value.config <$> ·) h⟩

theorem read_ini_iff {env : Environment} {t : Text} {s : Sections} :
    Value.read env .ini t = .ok (.ini s) ↔ Sections.read t = .ok s :=
  ⟨eq_ok_of_map_eq_ok fun _ _ => Value.ini.inj, fun h => congrArg (Value.ini <$> ·) h⟩

/-- What is printed for properties or sections that have been read is read as the same value, with the same
names, values and order. -/
theorem printed_read_back {env : Environment} {keyword : Keyword} {t : Text} {v : Value}
    (hkeyword : keyword = .config ∨ keyword = .ini) (h : Value.read env keyword t = .ok v) :
    ∃ printed, v.text? = some printed ∧ Value.read env keyword printed = .ok v := by
  rcases hkeyword with rfl | rfl
  · obtain ⟨p, hp, rfl⟩ := exists_of_map_eq_ok h
    have hback := Properties.read_text (Properties.written_of_read hp) (Properties.keys_nodup_of_read hp)
    exact ⟨Properties.text p, rfl, read_config_iff.2 hback⟩
  · obtain ⟨s, hs, rfl⟩ := exists_of_map_eq_ok h
    have hback := Sections.read_text (Sections.written_of_read hs) (Sections.wellFormed_of_read hs)
    exact ⟨Sections.text s, rfl, read_ini_iff.2 hback⟩

/-- Carriage returns, other blanks, comments, separators in values, a key that is given twice, and keys that
would be a header or a comment in sections. In sections also a bracket in a name, one section that is gone on
with, and one that stays empty. -/
theorem printed_read_back_repeated :
    let env := Environment.plain ','
    let entries : Text := "k : a=b \r\n!c\n\u2003;x\r\n [y]=[\rz\nk=!1".toList
    let properties : Properties := [(['k'], ['!', '1']), ([';', 'x'], []), ("[y]".toList, "[\rz".toList)]
    let printedEntries : Text := "k=!1\n;x=\n[y]=[\rz".toList
    let t : Text := "k : a=b \r\n[ s] ]\n;c\n\u2003x\r\n[e]\n[s] ]\ny=[\rz\n[ ]\nk=!1".toList
    let sections : Sections := [([], [(['k'], ['!', '1'])]),
      ("s]".toList, [(['x'], []), (['y'], "[\rz".toList)]), (['e'], [])]
    let printed : Text := "k=!1\n\n[s]]\nx=\ny=[\rz\n\n[e]".toList
    Value.read env .config entries = .ok (.config properties) ∧
    (Value.config properties).text? = some printedEntries ∧
    Value.read env .config printedEntries = .ok (.config properties) ∧
    Value.read env .ini t = .ok (.ini sections) ∧ (Value.ini sections).text? = some printed ∧
    Value.read env .ini printed = .ok (.ini sections) := by
  intro env entries properties printedEntries t sections printed
  have hreadEntries : Value.read env .config entries = .ok (.config properties) := rfl
  have htextEntries : (Value.config properties).text? = some printedEntries := rfl
  obtain ⟨_, hprinted, hbackEntries⟩ := printed_read_back (.inl rfl) hreadEntries
  cases htextEntries.symm.trans hprinted
  have hread : Value.read env .ini t = .ok (.ini sections) := rfl
  have htext : (Value.ini sections).text? = some printed := rfl
  obtain ⟨_, hprinted, hback⟩ := printed_read_back (.inr rfl) hread
  cases htext.symm.trans hprinted
  exact ⟨hreadEntries, htextEntries, hbackEntries, hread, htext, hback⟩

/-! ## What has been set -/

/-- Whatever properties or sections have been read, `set` sets a key of them, and the result is read back
from its text if and only if the arguments are such as lines can say: the key is not empty, holds no
separator and does not begin like a comment or a header, there are no blanks around the value, and none of
them holds a line feed. -/
theorem set_read_back_iff (env : Environment) (t : Text) :
    (∀ p, Value.read env .config t = .ok (.config p) →
      ∀ (key : Text) (values : List Text) (store : Store), values.length ≤ 1 → ∃ q printed,
        (Value.config p).invoke env.delimiter "set".toList (key :: values) store =
          (goOn (.config q), store) ∧
        Entries.Sets key.trim (values.headD []) p q ∧ (Value.config q).text? = some printed ∧
        (Value.read env .config printed = .ok (.config q) ↔
          Properties.IsKey ['#', '!'] key.trim ∧ OnLine (values.headD []))) ∧
    ∀ s, Value.read env .ini t = .ok (.ini s) →
      ∀ (name key : Text) (values : List Text) (store : Store), values.length ≤ 1 → ∃ next printed,
        (Value.ini s).invoke env.delimiter "set".toList (name :: key :: values) store =
          (goOn (.ini next), store) ∧
        Sections.SetsKey name.trim key.trim (values.headD []) s next ∧
        (Value.ini next).text? = some printed ∧
        (Value.read env .ini printed = .ok (.ini next) ↔
          OnLine name.trim ∧ Properties.IsKey ['[', ';', '#'] key.trim ∧ OnLine (values.headD [])) := by
  constructor
  · intro p hread key values store hvalues
    have hp := read_config_iff.1 hread
    let q := Entries.set key.trim (values.headD []) p
    have hq : (Entries.keys q).Nodup := Entries.keys_set_nodup (Properties.keys_nodup_of_read hp)
    refine ⟨q, Properties.text q, Properties.invoke_set p env.delimiter key hvalues store,
      Entries.sets_set .., rfl, ?_⟩
    calc Value.read env .config (Properties.text q) = .ok (.config q)
      _ ↔ Properties.read (Properties.text q) = .ok q := read_config_iff
      _ ↔ Properties.Written ['#', '!'] q := Properties.read_text_iff hq
      _ ↔ _ := Properties.written_set_iff (Properties.written_of_read hp)
  · intro s hread name key values store hvalues
    have hs := read_ini_iff.1 hread
    let next := Sections.setValue name.trim key.trim (values.headD []) s
    have hnext : next.WellFormed := (Sections.wellFormed_of_read hs).setValue ..
    refine ⟨next, Sections.text next, Sections.invoke_set s env.delimiter name key hvalues store,
      Sections.setsKey_setValue .., rfl, ?_⟩
    calc Value.read env .ini (Sections.text next) = .ok (.ini next)
      _ ↔ Sections.read (Sections.text next) = .ok next := read_ini_iff
      _ ↔ next.Written := Sections.read_text_iff hnext
      _ ↔ _ := Sections.written_setValue_iff (Sections.written_of_read hs)

/-- A key with a separator in it becomes another key, and a blank before a value is lost; a section with
any name and a value that looks like a header are read back. -/
theorem set_read_back_iff_separator :
    let env := Environment.plain ','
    let t : Text := "a=1".toList
    let properties : Properties := [(['a'], ['1'])]
    let sections : Sections := [([], properties)]
    let separated : Properties := [(['a'], ['1']), ("x:y".toList, ['2'])]
    let blank : Sections := [([], properties), (['s'], [(['k'], [' ', '2'])])]
    let named : Sections := [([], properties), ("] #".toList, [(['k'], "[=]".toList)])]
    Value.read env .config t = .ok (.config properties) ∧ Value.read env .ini t = .ok (.ini sections) ∧
    (Value.config properties).invoke ',' "set".toList ["x:y".toList, ['2']] [] =
      (goOn (.config separated), []) ∧
    (Value.config separated).text? = some "a=1\nx:y=2".toList ∧
    Value.read env .config "a=1\nx:y=2".toList ≠ .ok (.config separated) ∧
    (Value.ini sections).invoke ',' "set".toList [['s'], ['k'], [' ', '2']] [] =
      (goOn (.ini blank), []) ∧
    Value.read env .ini "a=1\n\n[s]\nk= 2".toList ≠ .ok (.ini blank) ∧
    (Value.ini sections).invoke ',' "set".toList ["] #".toList, ['k'], "[=]".toList] [] =
      (goOn (.ini named), []) ∧
    Value.read env .ini "a=1\n\n[] #]\nk=[=]".toList = .ok (.ini named) := by
  intro env t properties sections separated blank named
  have hproperties : Value.read env .config t = .ok (.config properties) := rfl
  have hsections : Value.read env .ini t = .ok (.ini sections) := rfl
  obtain ⟨hconfig, hini⟩ := set_read_back_iff env t
  obtain ⟨_, _, hset, -, htext, hseparated⟩ :=
    hconfig properties hproperties "x:y".toList [['2']] [] (by decide)
  cases hset
  cases htext
  obtain ⟨_, _, hset, -, htext, hblank⟩ :=
    hini sections hsections ['s'] ['k'] [[' ', '2']] [] (by decide)
  cases hset
  cases htext
  obtain ⟨_, _, hset, -, htext, hnamed⟩ :=
    hini sections hsections "] #".toList ['k'] ["[=]".toList] [] (by decide)
  cases hset
  cases htext
  have hkey : Properties.IsKey ['[', ';', '#'] ['k'] := ⟨⟨⟨rfl, by decide⟩, rfl⟩, by simp⟩
  refine ⟨hproperties, hsections, rfl, rfl, fun h => ?_, rfl, fun h => ?_, rfl, hnamed.2 ?_⟩
  · exact absurd rfl ((hseparated.1 h).1.no_separator ':' (by decide)).2
  · exact absurd (hblank.1 h).2.2.trim_eq (by decide)
  · exact ⟨⟨rfl, by decide⟩, hkey, rfl, by decide⟩

end SeedChain
