import SeedChain.Value.Read
/-!
# Tables and their texts

A written cell is read up to its end, quoted or not, and leaves the reader where the delimiter or the end
of the line is taken for what it is (`Reader.exists_atCellEnd`). So a written record is read as its cells,
and a text of written records as these records. A table that is written is read back, cell by cell
(`Table.value_read_text`), if blanks at the ends of its text do not get lost.
-/

namespace SeedChain.Table

variable {d : Char} {record cells : List Text} {rows : List (List Text)} {cell t : Text} {c : Char}

/-- A character that can stand between cells. -/
structure Separates (d : Char) : Prop where
  ne_quote : d ≠ '"'
  lineEnd : Reader.isLineEnd d = false

theorem Separates.ne_lineFeed (hd : Separates d) : d ≠ '\n' := by
  rintro rfl
  exact absurd hd.lineEnd (by decide)

theorem plain_of_needsQuotes (h : needsQuotes d cell = false) (hc : c ∈ cell) :
    c ≠ d ∧ c ≠ '"' ∧ Reader.isLineEnd c = false := by
  have hplain := List.any_eq_false.1 h c hc
  simpa [not_or, and_assoc] using hplain

namespace Reader

variable {r : Reader}

/-- What comes next is taken outside of quotes. -/
def AtCellEnd (r : Reader) : Prop := r.place ∈ [.cellStart, .inCell, .behindQuote]

/-! ## Behind a cell -/

theorem AtCellEnd.step_eq (h : r.AtCellEnd) (hc : c ≠ '"') : r.step d c = outside d r c := by
  simp only [AtCellEnd, List.mem_cons, List.not_mem_nil, or_false] at h
  rcases h with hplace | hplace | hplace <;> simp only [step, hplace, hc, if_false]

theorem AtCellEnd.records_delimiter (h : r.AtCellEnd) (hd : Separates d) (t : Text) :
    records d r (d :: t) = records d ⟨.cellStart, r.completed, []⟩ t := by
  rw [records, h.step_eq hd.ne_quote, outside, if_pos rfl]
  rfl

theorem AtCellEnd.records_lineFeed (h : r.AtCellEnd) (hd : Separates d) (t : Text) :
    records d r ('\n' :: t) = r.completed :: records d start t := by
  rw [records, h.step_eq (by decide), outside, if_neg (Ne.symm hd.ne_lineFeed), if_pos (by decide)]
  rfl

theorem AtCellEnd.records_nil (h : r.AtCellEnd) : records d r [] = [r.completed] := by
  rw [records, if_neg]
  intro hplace
  rw [AtCellEnd, hplace] at h
  exact absurd h (by decide)

/-! ## In a cell -/

theorem records_plain (h : needsQuotes d cell = false) (record : List Text) (read t : Text) :
    records d ⟨.inCell, record, read⟩ (cell ++ t) = records d ⟨.inCell, record, read ++ cell⟩ t := by
  induction cell generalizing read with
  | nil => rw [List.nil_append, List.append_nil]
  | cons c cell ih =>
    obtain ⟨hdelimiter, -, hend⟩ := plain_of_needsQuotes h List.mem_cons_self
    have hcell : needsQuotes d cell = false := (Bool.or_eq_false_iff.1 h).2
    have hstep : step d ⟨.inCell, record, read⟩ c = (none, ⟨.inCell, record, read ++ [c]⟩) := by
      simp only [step, outside, if_neg hdelimiter, hend, Bool.false_eq_true, if_false, add]
    rw [List.cons_append, records, hstep, List.append_cons read c cell, ← ih hcell]
    rfl

/-- Inside quotes a cell is read up to the closing quote. -/
theorem records_quoted (cell : Text) (record : List Text) (read t : Text) :
    records d ⟨.inQuotes, record, read⟩
        (cell.flatMap (fun c => if c = '"' then ['"', '"'] else [c]) ++ '"' :: t) =
      records d ⟨.behindQuote, record, read ++ cell⟩ t := by
  induction cell generalizing read with
  | nil => rw [List.append_nil]; rfl
  | cons c cell ih =>
    rw [List.flatMap_cons, List.append_assoc, List.append_cons read c cell, ← ih]
    by_cases hc : c = '"'
    · subst hc
      rfl
    · have hstep : step d ⟨.inQuotes, record, read⟩ c = (none, ⟨.inQuotes, record, read ++ [c]⟩) := by
        simp only [step, if_neg hc, add]
      rw [if_neg hc, List.singleton_append, records, hstep]
      rfl

/-- A written cell is read up to its end. -/
theorem exists_atCellEnd (d : Char) (record : List Text) (cell t : Text) :
    ∃ r : Reader, r.AtCellEnd ∧ r.completed = record ++ [cell] ∧
      records d ⟨.cellStart, record, []⟩ (writeCell d cell ++ t) = records d r t := by
  unfold writeCell
  split
  · refine ⟨⟨.behindQuote, record, cell⟩, by simp [AtCellEnd], rfl, ?_⟩
    rw [List.append_assoc]
    exact records_quoted cell record [] t
  · rename_i hplain
    rw [Bool.not_eq_true] at hplain
    cases cell with
    | nil => exact ⟨⟨.cellStart, record, []⟩, by simp [AtCellEnd], rfl, rfl⟩
    | cons c cell =>
      obtain ⟨hdelimiter, hquote, hend⟩ := plain_of_needsQuotes hplain List.mem_cons_self
      have hcell : needsQuotes d cell = false := (Bool.or_eq_false_iff.1 hplain).2
      have hstep : step d ⟨.cellStart, record, []⟩ c = (none, ⟨.inCell, record, [c]⟩) := by
        simp only [step, if_neg hquote, outside, if_neg hdelimiter, hend, Bool.false_eq_true, if_false,
          add, List.nil_append]
      refine ⟨⟨.inCell, record, c :: cell⟩, by simp [AtCellEnd], rfl, ?_⟩
      rw [List.cons_append, records, hstep]
      exact records_plain hcell record [c] t

/-! ## Records -/

theorem exists_atCellEnd_join (hd : Separates d) (record : List Text) (hcells : cells ≠ []) (t : Text) :
    ∃ r : Reader, r.AtCellEnd ∧ r.completed = record ++ cells ∧
      records d ⟨.cellStart, record, []⟩ (Text.join [d] (cells.map (writeCell d)) ++ t) =
        records d r t := by
  induction cells generalizing record with
  | nil => exact absurd rfl hcells
  | cons cell cells ih =>
    rw [List.map_cons, Text.join_cons]
    by_cases hlast : cells = []
    · subst hlast
      rw [List.map_nil, if_pos rfl, List.append_nil]
      exact exists_atCellEnd d record cell t
    · rw [if_neg (by simpa using hlast), List.append_assoc, List.append_assoc]
      obtain ⟨r, hr, hcompleted, hread⟩ := exists_atCellEnd d record cell
        ([d] ++ (Text.join [d] (cells.map (writeCell d)) ++ t))
      obtain ⟨r', hr', hcompleted', hread'⟩ := ih r.completed hlast
      refine ⟨r', hr', ?_, ?_⟩
      · rw [hcompleted', hcompleted, List.append_assoc, List.singleton_append]
      · rw [hread, List.singleton_append, hr.records_delimiter hd, hread']

theorem records_start (hc : isLineEnd c = false) (t : Text) :
    records d start (c :: t) = records d ⟨.cellStart, [], []⟩ (c :: t) := by
  have hstep : step d start c = step d ⟨.cellStart, [], []⟩ c := by
    simp only [step, start, hc, Bool.false_eq_true, if_false]
    rfl
  rw [records, hstep]
  rfl

end Reader

/-! ## Ends of written records -/

theorem writeCell_eq_nil_iff : writeCell d cell = [] ↔ cell = [] := by
  unfold writeCell
  split
  · rename_i hquotes
    refine iff_of_false (List.cons_ne_nil _ _) ?_
    rintro rfl
    cases hquotes
  · rfl

/-- Neither end of a written cell is the end of a line. -/
theorem writeCell_ends (d : Char) (cell : Text) :
    (∀ c ∈ (writeCell d cell).head?, Reader.isLineEnd c = false) ∧
      ∀ c ∈ (writeCell d cell).getLast?, Reader.isLineEnd c = false := by
  unfold writeCell
  split
  · refine ⟨?_, ?_⟩
    · rintro c ⟨⟩
      decide
    · intro c hc
      rw [List.getLast?_append] at hc
      exact Option.some.inj hc ▸ by decide
  · rename_i hplain
    rw [Bool.not_eq_true] at hplain
    exact ⟨fun c hc => (plain_of_needsQuotes hplain (List.mem_of_mem_head? hc)).2.2,
      fun c hc => (plain_of_needsQuotes hplain (List.mem_of_getLast? hc)).2.2⟩

theorem join_head (hd : Separates d) (cells : List Text) :
    ∀ c ∈ (Text.join [d] (cells.map (writeCell d))).head?, Reader.isLineEnd c = false := by
  cases cells with
  | nil => nofun
  | cons cell cells =>
    intro c hc
    rw [List.map_cons, Text.join_cons, List.head?_append] at hc
    cases hcell : (writeCell d cell).head? with
    | some first =>
      rw [hcell] at hc
      exact (writeCell_ends d cell).1 c (hcell ▸ hc)
    | none =>
      rw [hcell, Option.none_or] at hc
      split at hc
      · cases hc
      · exact Option.some.inj hc ▸ hd.lineEnd

theorem join_getLast (hd : Separates d) (cells : List Text) :
    ∀ c ∈ (Text.join [d] (cells.map (writeCell d))).getLast?, Reader.isLineEnd c = false := by
  induction cells with
  | nil => nofun
  | cons cell cells ih =>
    intro c hc
    rw [List.map_cons, Text.join_cons] at hc
    split at hc
    · rw [List.append_nil] at hc
      exact (writeCell_ends d cell).2 c hc
    · rw [← List.append_assoc, List.getLast?_append] at hc
      cases hrest : (Text.join [d] (cells.map (writeCell d))).getLast? with
      | some last =>
        rw [hrest] at hc
        exact ih c (hrest ▸ hc)
      | none =>
        rw [hrest, Option.none_or, List.getLast?_append] at hc
        exact Option.some.inj hc ▸ hd.lineEnd

theorem eq_of_join_eq_nil (hcells : cells ≠ []) (h : Text.join [d] (cells.map (writeCell d)) = []) :
    cells = [[]] := by
  obtain ⟨cell, rest, rfl⟩ := List.exists_cons_of_ne_nil hcells
  rw [List.map_cons, Text.join_cons, List.append_eq_nil_iff] at h
  obtain ⟨hcell, hrest⟩ := h
  split at hrest
  · rename_i hlast
    rw [writeCell_eq_nil_iff.1 hcell, List.map_eq_nil_iff.1 hlast]
  · cases hrest

theorem exists_getLast_writeRecord (hd : Separates d) (cells : List Text) :
    ∃ c, (writeRecord d cells).getLast? = some c ∧ Reader.isLineEnd c = false := by
  simp only [writeRecord]
  split
  · exact ⟨'"', rfl, by decide⟩
  · rename_i hline
    obtain ⟨c, hc⟩ := Option.ne_none_iff_exists'.1 (mt List.getLast?_eq_none_iff.1 hline)
    exact ⟨c, hc, join_getLast hd cells c hc⟩

/-! ## Reading what is written -/

/-- A written record is read up to its end. -/
theorem exists_atCellEnd_writeRecord (hd : Separates d) (hcells : cells ≠ []) (t : Text) :
    ∃ r : Reader, r.AtCellEnd ∧ r.completed = cells ∧
      Reader.start.records d (writeRecord d cells ++ t) = r.records d t := by
  simp only [writeRecord]
  split
  · rename_i hline
    obtain rfl := eq_of_join_eq_nil hcells hline
    exact ⟨⟨.behindQuote, [], []⟩, by simp [Reader.AtCellEnd], rfl, rfl⟩
  · rename_i hline
    obtain ⟨c, line, heq⟩ := List.exists_cons_of_ne_nil hline
    have hc : Reader.isLineEnd c = false := join_head hd cells c (by rw [heq]; rfl)
    obtain ⟨r, hr, hcompleted, hread⟩ := Reader.exists_atCellEnd_join hd [] hcells t
    refine ⟨r, hr, hcompleted, ?_⟩
    rw [← hread, heq]
    exact Reader.records_start hc (line ++ t)

/-- Written records are read as they are. -/
theorem records_join (hd : Separates d) (hrows : ∀ row ∈ rows, row ≠ []) :
    Reader.start.records d (Text.join ['\n'] (rows.map (writeRecord d))) = rows := by
  induction rows with
  | nil => rfl
  | cons row rows ih =>
    obtain ⟨hrow, hrows⟩ := List.forall_mem_cons.1 hrows
    rw [List.map_cons, Text.join_cons]
    obtain ⟨r, hr, hcompleted, hread⟩ := exists_atCellEnd_writeRecord hd hrow
      (if rows.map (writeRecord d) = [] then []
        else ['\n'] ++ Text.join ['\n'] (rows.map (writeRecord d)))
    rw [hread]
    split
    · rename_i hlast
      rw [hr.records_nil, hcompleted, List.map_eq_nil_iff.1 hlast]
    · rw [List.singleton_append, hr.records_lineFeed hd, hcompleted, ih hrows]

theorem flatMap_writeRecord (hrows : rows ≠ []) :
    rows.flatMap (fun cells => writeRecord d cells ++ ['\n']) =
      Text.join ['\n'] (rows.map (writeRecord d)) ++ ['\n'] := by
  induction rows with
  | nil => exact absurd rfl hrows
  | cons row rows ih =>
    rw [List.flatMap_cons, List.map_cons, Text.join_cons]
    by_cases hlast : rows = []
    · subst hlast
      simp
    · rw [ih hlast, if_neg (by simpa using hlast)]
      simp only [List.append_assoc]

theorem exists_getLast_join (hd : Separates d) (hrows : rows ≠ []) :
    ∃ c, (Text.join ['\n'] (rows.map (writeRecord d))).getLast? = some c ∧
      Reader.isLineEnd c = false := by
  induction rows with
  | nil => exact absurd rfl hrows
  | cons row rows ih =>
    rw [List.map_cons, Text.join_cons]
    by_cases hlast : rows = []
    · subst hlast
      rw [List.map_nil, if_pos rfl, List.append_nil]
      exact exists_getLast_writeRecord hd row
    · obtain ⟨c, hc, hend⟩ := ih hlast
      refine ⟨c, ?_, hend⟩
      rw [if_neg (by simpa using hlast), List.getLast?_append, List.getLast?_append, hc]
      rfl

/-- The text of a table is its records with line feeds between them. -/
theorem text_eq_join {table : Table} (hd : Separates table.delimiter) (hheader : table.header ≠ []) :
    table.text =
      Text.join ['\n'] ((table.header :: table.rows).map (writeRecord table.delimiter)) := by
  have hne : table.header :: table.rows ≠ [] := List.cons_ne_nil _ _
  obtain ⟨c, hc, hend⟩ := exists_getLast_join hd hne
  obtain ⟨line, hline⟩ := List.getLast?_eq_some_iff.1 hc
  rw [text, if_neg hheader, List.singleton_append, flatMap_writeRecord hne, hline, Text.dropEndWhile,
    List.reverse_append, List.reverse_append, List.reverse_singleton, List.reverse_singleton,
    List.singleton_append, List.singleton_append, List.dropWhile_cons_of_pos (by decide),
    List.dropWhile_cons_of_neg (by simp [hend]), List.reverse_cons, List.reverse_reverse]

/-- Without blanks at its ends and without a byte order mark, all of a text is read. -/
theorem read_eq (htrim : t.trim = t) (hmark : t.head? ≠ some '\uFEFF') :
    read d t = ⟨(Reader.start.records d t).headD [], (Reader.start.records d t).tail, d⟩ := by
  simp only [read]
  rw [htrim]
  split
  · exact absurd rfl hmark
  · rfl

/-- A table has a text, and if this neither begins nor ends with a blank nor begins with a byte order mark,
it is read back as the same table. -/
theorem value_read_text {env : Environment} {table : Table} (hheader : table.header ≠ [])
    (hrows : ∀ row ∈ table.rows, row ≠ []) (hascii : table.delimiter.toNat < 0x80)
    (hdelimiter : table.delimiter ∉ ['"', '\r', '\n']) (hcontext : env.delimiter = table.delimiter) :
    ∃ t, (Value.csv table).text? = some t ∧
      ((∀ c ∈ t.head?, Text.isWhite c = false ∧ c ≠ '\uFEFF') →
        (∀ c ∈ t.getLast?, Text.isWhite c = false) →
        Value.read env .csv t = .ok (.csv table)) := by
  refine ⟨table.text, rfl, fun hhead hlast => ?_⟩
  have hd : Separates table.delimiter := by
    simp only [List.mem_cons, List.not_mem_nil, or_false, not_or] at hdelimiter
    exact ⟨hdelimiter.1, by simp [Reader.isLineEnd, hdelimiter.2]⟩
  have hrecords : Reader.start.records table.delimiter table.text = table.header :: table.rows := by
    rw [text_eq_join hd hheader]
    exact records_join hd (List.forall_mem_cons.2 ⟨hheader, hrows⟩)
  have htrim : table.text.trim = table.text := Text.trim_of_ends (fun c hc => (hhead c hc).1) hlast
  have hread : read table.delimiter table.text = table := by
    rw [read_eq htrim (fun hmark => (hhead _ hmark).2 rfl), hrecords]
    rfl
  rw [Value.read, hcontext, delimiterFor, if_pos hascii, hread]

/-- Cells with delimiters, quotes and line ends, empty cells, and a record that is one empty cell. -/
theorem value_read_text_quoted :
    let env := Environment.plain ';'
    let table : Table :=
      ⟨[['a'], []], [[[]], ["x;\"y\n".toList, [], "z,".toList], [['\r']]], ';'⟩
    let t : Text := "a;\n\"\"\n\"x;\"\"y\n\";;z,\n\"\r\"".toList
    table.header ≠ [] ∧ (∀ row ∈ table.rows, row ≠ []) ∧ table.delimiter.toNat < 0x80 ∧
    table.delimiter ∉ ['"', '\r', '\n'] ∧ env.delimiter = table.delimiter ∧
    (Value.csv table).text? = some t ∧ (∀ c ∈ t.head?, Text.isWhite c = false ∧ c ≠ '\uFEFF') ∧
    (∀ c ∈ t.getLast?, Text.isWhite c = false) ∧ Value.read env .csv t = .ok (.csv table) := by
  intro env table t
  have hheader : table.header ≠ [] := by decide
  have hrows : ∀ row ∈ table.rows, row ≠ [] := by decide
  have htext : (Value.csv table).text? = some t := by rfl
  have hhead : ∀ c ∈ t.head?, Text.isWhite c = false ∧ c ≠ '\uFEFF' := by
    intro c hc
    obtain rfl : 'a' = c := Option.some.inj hc
    decide
  have hlast : ∀ c ∈ t.getLast?, Text.isWhite c = false := by
    intro c hc
    obtain rfl : '"' = c := Option.some.inj hc
    decide
  have hcontext : env.delimiter = table.delimiter := rfl
  obtain ⟨t', htext', hread⟩ := value_read_text hheader hrows (by decide) (by decide) hcontext
  obtain rfl : t = t' := Option.some.inj (htext.symm.trans htext')
  exact ⟨hheader, hrows, by decide, by decide, hcontext, htext, hhead, hlast, hread hhead hlast⟩

end SeedChain.Table
