import SeedChain.Evaluator.Seed
import SeedChain.Proofs.Escaping
import SeedChain.Proofs.Grouping
/-!
# Writing an expression and finding it again

`spell` writes an expression from a keyword, a seed and calls, with escapes where a part holds
structure. Its encoding is what the parts of a reading are written down as (`Spellable.encode_spell`), so
it is read back (`Spellable.reads`), and the list of each call splits into the arguments
(`splitParams_shieldedList`). No bracket inside opens another expression (`Spellable.unopened`).

Main result: a text that is spelled in this way is one expression, the one that was written
(`findAll_spell`).
-/

namespace SeedChain

/-! ## Identifiers -/

/-- The characters of an identifier. -/
def isNameLetter (c : Char) : Bool := c.isAlphanum || c == '_' || c == '.' || c == '-'

theorem isNameLetter_of_isIdentifier {name : Text} (h : isIdentifier name = true) :
    ∀ c ∈ name, isNameLetter c = true := by
  cases name with
  | nil => nofun
  | cons c t =>
    simp only [isIdentifier, Bool.and_eq_true, List.all_eq_true] at h
    obtain ⟨hhead, htail⟩ := h
    refine List.forall_mem_cons.2 ⟨?_, htail⟩
    simp only [Bool.or_eq_true] at hhead
    rcases hhead with halpha | hunderscore
    · simp [isNameLetter, Char.isAlphanum, halpha]
    · simp [isNameLetter, hunderscore]

namespace EscapeCodec

/-! ## Spelling -/

/-- Arguments as they are written, with the delimiter between neighbours. -/
def argumentList (delimiter : Char) (args : List Text) : Text :=
  Text.join [delimiter] (args.map (escape delimiter))

/-- A call as it is written; one without arguments is a bare name. -/
def spellCall (delimiter : Char) (call : Text × List Text) : Text :=
  if call.2 = [] then call.1 else call.1 ++ '(' :: argumentList delimiter call.2 ++ [')']

/-- What is written behind the seed of an expression. -/
def spellChain (delimiter : Char) (calls : List (Text × List Text)) : Text :=
  if calls = [] then [']']
  else " => ".toList ++ Text.join [' '] (calls.map (spellCall delimiter)) ++ [']']

/-- An expression as it is written: `[KEYWORD(seed)]` or `[KEYWORD(seed) => call call]`. -/
def spell (delimiter : Char) (keyword : Keyword) (seed : Text) (calls : List (Text × List Text)) :
    Text :=
  '[' :: keyword.letters ++ '(' :: escape delimiter seed ++ ')' :: spellChain delimiter calls

/-- What can be written in this way. -/
structure Spellable (delimiter : Char) (seed : Text) (calls : List (Text × List Text)) : Prop where
  delimiter_public : isPrivateUse delimiter = false
  delimiter_plain : delimiter ∉ ['\\', '(', ')']
  seed_plain : '[' ∉ seed
  seed_last : seed.getLast? ≠ some '\\'
  isIdentifier : ∀ call ∈ calls, isIdentifier call.1 = true
  arg_last : ∀ call ∈ calls, ∀ arg ∈ call.2, arg.getLast? ≠ some '\\'
  list_visible : ∀ call ∈ calls, call.2 ≠ [] → (argumentList delimiter call.2).isBlank = false
  list_plain : ∀ call ∈ calls, call.2 ≠ [] → ¬ separator <:+: argumentList delimiter call.2

theorem escape_subset_spell (delimiter : Char) (keyword : Keyword) (seed : Text)
    (calls : List (Text × List Text)) :
    escape delimiter seed ⊆ spell delimiter keyword seed calls := by
  intro c hc
  simp [spell, hc]

theorem spellCall_subset_spell {delimiter : Char} {calls : List (Text × List Text)}
    {call : Text × List Text} (hcall : call ∈ calls) (keyword : Keyword) (seed : Text) :
    spellCall delimiter call ⊆ spell delimiter keyword seed calls := by
  intro c hc
  have hmem : spellCall delimiter call ∈ calls.map (spellCall delimiter) :=
    List.mem_map.2 ⟨call, hcall, rfl⟩
  have hchain := Text.subset_join [' '] hmem hc
  simp [spell, spellChain, List.ne_nil_of_mem hcall, hchain]

/-! ## Names -/

/-- The characters that no name may hold. -/
def marks : List Char := ['(', ')', '[', ']', '\\']

theorem lt_of_isAlphanum {c : Char} (h : c.isAlphanum = true) : c.toNat < 128 := by
  unfold Char.isAlphanum Char.isAlpha Char.isUpper Char.isLower Char.isDigit at h
  simp only [Bool.or_eq_true, Bool.and_eq_true, decide_eq_true_eq] at h
  rcases h with (⟨-, hle⟩ | ⟨-, hle⟩) | ⟨-, hle⟩
  all_goals exact Nat.lt_of_le_of_lt (UInt32.le_iff_toNat_le.1 hle) (by decide)

theorem plain_of_isNameLetter {c : Char} (h : isNameLetter c = true) :
    c.toNat < 128 ∧ Text.isWhite c = false ∧ c ∉ marks := by
  have hlt : c.toNat < 128 := by
    simp only [isNameLetter, Bool.or_eq_true, beq_iff_eq] at h
    rcases h with ((h | rfl) | rfl) | rfl
    · exact lt_of_isAlphanum h
    all_goals decide
  have htable : ∀ n < 128, let c := Char.ofNat n
      isNameLetter c = true → Text.isWhite c = false ∧ c ∉ marks := by decide
  have hplain := htable c.toNat hlt
  rw [Char.ofNat_toNat] at hplain
  exact ⟨hlt, hplain h⟩

/-- The characters of an identifier are neither blank nor structure. -/
theorem plain_of_isIdentifier {name : Text} (h : SeedChain.isIdentifier name = true) :
    ∀ c ∈ name, c.toNat < 128 ∧ Text.isWhite c = false ∧ c ∉ marks :=
  fun c hc => plain_of_isNameLetter (isNameLetter_of_isIdentifier h c hc)

/-! ## Arguments -/

variable {codec : EscapeCodec} {t : Text} {args : List Text}

/-- Arguments as they are read, with placeholders for what was escaped. -/
def shieldedList (codec : EscapeCodec) (args : List Text) : Text :=
  Text.join [codec.delimiter] (args.map codec.shield)

theorem encode_argumentList_append (hcodec : codec.Complete) (hslash : codec.delimiter ≠ '\\')
    (hlast : ∀ arg ∈ args, arg.getLast? ≠ some '\\') (t : Text) :
    codec.encode (argumentList codec.delimiter args ++ t) =
      codec.shieldedList args ++ codec.encode t := by
  have hpieces : ∀ p ∈ args.map (escape codec.delimiter), ∀ u,
      codec.encode (p ++ u) = codec.encode p ++ codec.encode u := by
    intro p hp u
    obtain ⟨arg, harg, rfl⟩ := List.mem_map.1 hp
    exact encode_append (.inl (getLast?_escape arg ▸ hlast arg harg))
  have hshield : (args.map (escape codec.delimiter)).map codec.encode = args.map codec.shield := by
    rw [List.map_map]
    exact List.map_congr_left fun arg _ => encode_escape hcodec hslash arg
  rw [argumentList, encode_join_append (by simpa using hslash.symm) hpieces, hshield, shieldedList]

theorem isBlank_of_encode (ha : codec.Avoids t) (h : Text.isBlank (codec.encode t) = true) :
    Text.isBlank t = true := by
  have hself := ha.decode_eq_self .escaped (s := codec.encode t) fun c hc =>
    .inl (not_isPrivateUse_of_isWhite (List.all_eq_true.1 h c hc))
  rw [ha.decode_encode] at hself
  rwa [hself]

theorem separator_of_encode (ha : codec.Avoids t)
    (h : Text.hasInfix separator (codec.encode t) = true) : separator <:+: t := by
  obtain ⟨⟨before, after⟩, hcut⟩ := Option.isSome_iff_exists.1 h
  have hself := ha.decode_eq_self .escaped (s := separator) fun c hc =>
    .inl (not_isPrivateUse_of_all (by decide) c hc)
  have hdecode := ha.decode_encode
  rw [Text.eq_of_cut? hcut, decode_append, decode_append, hself] at hdecode
  exact ⟨_, _, hdecode⟩

/-- The list of a call splits into its arguments. -/
theorem splitParams_shieldedList (hcodec : codec.Complete) (hslash : codec.delimiter ≠ '\\')
    (hpublic : isPrivateUse codec.delimiter = false) (hne : args ≠ [])
    (ha : codec.Avoids (argumentList codec.delimiter args))
    (hlast : ∀ arg ∈ args, arg.getLast? ≠ some '\\')
    (hvisible : (argumentList codec.delimiter args).isBlank = false)
    (hplain : ¬ separator <:+: argumentList codec.delimiter args) :
    codec.splitParams (codec.shieldedList args) = args := by
  have hencode : codec.encode (argumentList codec.delimiter args) = codec.shieldedList args := by
    simpa [encode] using encode_argumentList_append hcodec hslash hlast []
  have hblank : ¬ Text.isBlank (codec.shieldedList args) = true := by
    intro h
    rw [isBlank_of_encode ha (hencode ▸ h)] at hvisible
    cases hvisible
  have hinfix : ¬ Text.hasInfix separator (codec.shieldedList args) = true := by
    intro h
    exact hplain (separator_of_encode ha (hencode ▸ h))
  have hpieces : ∀ p ∈ args.map codec.shield, codec.delimiter ∉ p := by
    intro p hp
    obtain ⟨arg, -, rfl⟩ := List.mem_map.1 hp
    exact not_mem_shield ha hcodec hpublic (.inl (mem_escapable_iff.2 (.inr rfl)))
  rw [splitParams, if_neg hblank, if_neg hinfix, shieldedList,
    Text.split_join (by simpa using hne) hpieces, List.map_map]
  refine (List.map_congr_left fun arg harg => ?_).trans (List.map_id args)
  refine decode_shield (ha.of_subset fun c hc => ?_)
  exact Text.subset_join _ (List.mem_map.2 ⟨arg, harg, rfl⟩) (subset_escape arg hc)

/-! ## Calls -/

/-- What the lexer reads of a call. -/
def tokenOf (codec : EscapeCodec) (call : Text × List Text) : ChainToken :=
  let params := codec.shieldedList call.2
  if call.2 = [] then .bare call.1 else ⟨call.1, some params, call.1 ++ '(' :: params ++ [')']⟩

theorem name_tokenOf (codec : EscapeCodec) (call : Text × List Text) :
    (codec.tokenOf call).name = call.1 := by
  unfold tokenOf
  split <;> rfl

namespace Spellable

variable {seed : Text} {calls : List (Text × List Text)} {call : Text × List Text}

theorem delimiter_ne_slash (h : Spellable codec.delimiter seed calls) : codec.delimiter ≠ '\\' :=
  fun heq => h.delimiter_plain (by simp [heq])

theorem not_mem_name (h : Spellable codec.delimiter seed calls) (hcall : call ∈ calls) {c : Char}
    (hc : c ∈ marks) : c ∉ call.1 :=
  fun hmem => (plain_of_isIdentifier (h.isIdentifier call hcall) c hmem).2.2 hc

theorem isName (h : Spellable codec.delimiter seed calls) (hcall : call ∈ calls) :
    Lexer.IsName call.1 := by
  have hidentifier := h.isIdentifier call hcall
  refine ⟨fun hnil => ?_, fun c hc => ?_⟩
  · rw [hnil] at hidentifier
    cases hidentifier
  · obtain ⟨-, hwhite, hmarks⟩ := plain_of_isIdentifier hidentifier c hc
    simp only [marks, List.mem_cons, not_or] at hmarks
    exact ⟨Lexer.isNameChar_iff.2 ⟨hwhite, hmarks.1⟩, hmarks.2.1⟩

theorem not_mem_shieldedList (h : Spellable codec.delimiter seed calls) (ha : codec.Avoids t)
    (hcodec : codec.Complete) {c : Char} (hc : c = '(' ∨ c = ')') (args : List Text) :
    c ∉ codec.shieldedList args := by
  intro hmem
  rcases Text.mem_join hmem with hdelimiter | ⟨p, hp, hmem⟩
  · have hplain := h.delimiter_plain
    rw [← List.mem_singleton.1 hdelimiter] at hplain
    rcases hc with rfl | rfl
    all_goals exact hplain (by decide)
  · obtain ⟨arg, -, rfl⟩ := List.mem_map.1 hp
    have hparen : isPrivateUse c = false ∧ c ∈ structural := by
      rcases hc with rfl | rfl
      all_goals decide
    exact not_mem_shield ha hcodec hparen.1 (.inl (mem_escapable_iff.2 (.inl hparen.2))) hmem

theorem isGroup (h : Spellable codec.delimiter seed calls) (ha : codec.Avoids t)
    (hcodec : codec.Complete) (hcall : call ∈ calls) : (codec.tokenOf call).IsGroup := by
  have hname := h.isName hcall
  unfold tokenOf
  split
  · exact .bare hname
  · have hparams : Lexer.Closed (codec.shieldedList call.2) := by
      refine Lexer.closed_of_no_parens fun c hc => ⟨?_, ?_⟩
      · rintro rfl
        exact h.not_mem_shieldedList ha hcodec (by simp) call.2 hc
      · rintro rfl
        exact h.not_mem_shieldedList ha hcodec (by simp) call.2 hc
    simpa using @ChainToken.IsGroup.call call.1 [] _ hname rfl hparams

theorem encode_spellCall (h : Spellable codec.delimiter seed calls) (hcodec : codec.Complete)
    (hcall : call ∈ calls) :
    codec.encode (spellCall codec.delimiter call) = (codec.tokenOf call).source := by
  have hname : '\\' ∉ call.1 := h.not_mem_name hcall (by decide)
  unfold spellCall tokenOf
  split
  · exact encode_eq_self hname
  · have hopening : '\\' ∉ call.1 ++ ['('] := by simp [hname]
    have hlist := encode_argumentList_append hcodec h.delimiter_ne_slash (h.arg_last call hcall) [')']
    have hencode := encode_plain_append codec hopening
      (argumentList codec.delimiter call.2 ++ [')'])
    rw [hlist] at hencode
    simpa [encode] using hencode

theorem invocation_eq (h : Spellable codec.delimiter seed calls) (hcodec : codec.Complete)
    (ha : codec.Avoids (spellCall codec.delimiter call)) (hcall : call ∈ calls) :
    let i := codec.invocation (codec.tokenOf call)
    (i.name, i.args) = call := by
  have hplain := plain_of_isIdentifier (h.isIdentifier call hcall)
  have hname : codec.decode .literal (codec.tokenOf call).name.trim = call.1 := by
    rw [name_tokenOf, Text.trim_eq_self fun c hc => (hplain c hc).2.1]
    exact ha.decode_eq_self _ fun c hc => .inl (not_isPrivateUse_of_lt (by have := hplain c hc; omega))
  have hargs : ((codec.tokenOf call).params.map codec.splitParams).getD [] = call.2 := by
    unfold tokenOf
    split
    · rename_i hnil
      exact hnil.symm
    · rename_i hne
      have hlist : argumentList codec.delimiter call.2 ⊆ spellCall codec.delimiter call := by
        intro c hc
        rw [spellCall, if_neg hne]
        simp [hc]
      exact splitParams_shieldedList hcodec h.delimiter_ne_slash h.delimiter_public hne
        (ha.of_subset hlist) (h.arg_last call hcall) (h.list_visible call hcall hne)
        (h.list_plain call hcall hne)
  exact Prod.ext hname hargs

theorem invocations_eq (h : Spellable codec.delimiter seed calls) (hcodec : codec.Complete)
    (ha : ∀ call ∈ calls, codec.Avoids (spellCall codec.delimiter call)) :
    ((calls.map codec.tokenOf).map codec.invocation).map (fun i => (i.name, i.args)) = calls := by
  rw [List.map_map, List.map_map]
  refine (List.map_congr_left fun call hcall => ?_).trans (List.map_id calls)
  exact h.invocation_eq hcodec (ha call hcall) hcall

theorem encode_spellChain (h : Spellable codec.delimiter seed calls) (hcodec : codec.Complete) :
    codec.encode (spellChain codec.delimiter calls) =
      if calls = [] then [']']
      else " => ".toList ++ Text.join [' '] ((calls.map codec.tokenOf).map (·.source)) ++ [']'] := by
  unfold spellChain
  split
  · rfl
  · have hpieces : ∀ p ∈ calls.map (spellCall codec.delimiter), ∀ u,
        codec.encode (p ++ u) = codec.encode p ++ codec.encode u := by
      intro p hp u
      obtain ⟨call, hcall, rfl⟩ := List.mem_map.1 hp
      refine encode_append (.inl fun hslash => ?_)
      unfold spellCall at hslash
      split at hslash
      · exact h.not_mem_name hcall (by decide) (List.mem_of_getLast? hslash)
      · rw [List.getLast?_concat] at hslash
        exact absurd (Option.some.inj hslash) (by decide)
    have hsources : (calls.map (spellCall codec.delimiter)).map codec.encode =
        (calls.map codec.tokenOf).map (·.source) := by
      rw [List.map_map, List.map_map]
      exact List.map_congr_left fun call hcall => h.encode_spellCall hcodec hcall
    rw [List.append_assoc, encode_plain_append _ (by decide),
      encode_join_append (by decide) hpieces, hsources, List.append_assoc]
    rfl

/-- The seed and the calls as they are read. -/
def readingOf (codec : EscapeCodec) (keyword : Keyword) (seed : Text)
    (calls : List (Text × List Text)) : Reading :=
  ⟨keyword, codec.shield seed, calls.map codec.tokenOf, []⟩

theorem encode_spell (h : Spellable codec.delimiter seed calls) (hcodec : codec.Complete)
    (keyword : Keyword) :
    codec.encode (spell codec.delimiter keyword seed calls) =
      (readingOf codec keyword seed calls).spelling := by
  have hopening : '\\' ∉ '[' :: keyword.letters ++ ['('] := by cases keyword <;> decide
  have hencode := encode_plain_append codec hopening
    (escape codec.delimiter seed ++ ')' :: spellChain codec.delimiter calls)
  have hclose : codec.encode (')' :: spellChain codec.delimiter calls) =
      ')' :: codec.encode (spellChain codec.delimiter calls) :=
    encode_plain_append (s := [')']) _ (by decide) _
  rw [encode_escape_append hcodec h.delimiter_ne_slash h.seed_last, hclose,
    h.encode_spellChain hcodec] at hencode
  simpa [spell, readingOf, Reading.spelling] using hencode

/-! ## The whole expression -/

theorem cutSeed?_eq (h : Spellable codec.delimiter seed calls) (ha : codec.Avoids t)
    (hcodec : codec.Complete) {gap close : Text} (hgap : Text.isBlank gap = true)
    (hclose : endsSeed close = true) :
    cutSeed? 0 (codec.shield seed ++ ')' :: gap ++ close) = some (codec.shield seed, close) := by
  have hplain : ')' ∉ codec.shield seed ∧ '[' ∉ codec.shield seed :=
    ⟨not_mem_shield ha hcodec (by decide) (.inl (mem_escapable_iff.2 (.inl (by decide)))),
      not_mem_shield ha hcodec (by decide) (.inr h.seed_plain)⟩
  rw [List.append_assoc, cutSeed?_append hplain]
  simp [cutSeed?, trimStart_of_endsSeed hgap hclose, hclose]

theorem reads (h : Spellable codec.delimiter seed calls) (ha : codec.Avoids t)
    (hcodec : codec.Complete) (keyword : Keyword) :
    (readingOf codec keyword seed calls).Reads
      (codec.encode (spell codec.delimiter keyword seed calls)) := by
  rw [h.encode_spell hcodec]
  refine Reading.reads_spelling (fun _ _ => h.cutSeed?_eq ha hcodec) ?_ ?_
  · intro token htoken
    obtain ⟨call, hcall, rfl⟩ := List.mem_map.1 htoken
    exact h.isGroup ha hcodec hcall
  · intro token htoken
    obtain ⟨call, hcall, rfl⟩ := List.mem_map.1 htoken
    rw [name_tokenOf]
    exact h.not_mem_name hcall (by decide)

/-- No bracket but the first one opens an expression. -/
theorem unopened (h : Spellable codec.delimiter seed calls) (ha : codec.Avoids t)
    (hcodec : codec.Complete) (keyword : Keyword) :
    ∃ inner, (readingOf codec keyword seed calls).spelling = '[' :: inner ∧ Unopened inner := by
  -- behind a bracket in an argument a parenthesis closes before the next one opens
  have hsource : ∀ p ∈ (calls.map codec.tokenOf).map (·.source), ∀ u, Unopened u →
      Unopened (p ++ u) := by
    intro p hp u hu
    obtain ⟨token, htoken, rfl⟩ := List.mem_map.1 hp
    obtain ⟨call, hcall, rfl⟩ := List.mem_map.1 htoken
    have hname : '[' ∉ call.1 := h.not_mem_name hcall (by decide)
    unfold tokenOf
    split
    · exact unopened_append hname hu
    · have hclosed := unopened_closed (h.not_mem_shieldedList ha hcodec (by simp) call.2) hu
      have hopening : '[' ∉ call.1 ++ ['('] := by simp [hname]
      simpa using unopened_append hopening hclosed
  have hend : Unopened [']'] := unopened_append (s := [']']) (by decide) trivial
  have hletters : '[' ∉ keyword.letters ++ ['('] := by cases keyword <;> decide
  have hseed : '[' ∉ codec.shield seed := not_mem_shield ha hcodec (by decide) (.inr h.seed_plain)
  have hopening : '[' ∉ keyword.letters ++ '(' :: codec.shield seed ++ [')'] := by
    simp only [List.mem_append, List.mem_cons, not_or] at hletters ⊢
    exact ⟨⟨hletters.1, by decide, hseed⟩, by decide⟩
  let chain := if calls.map codec.tokenOf = [] then [']']
    else " => ".toList ++ Text.join [' '] ((calls.map codec.tokenOf).map (·.source)) ++ [']']
  have hchain : Unopened chain := by
    unfold chain
    split
    · exact hend
    · rw [List.append_assoc]
      exact unopened_append (by decide) (unopened_join hend hsource)
  refine ⟨keyword.letters ++ '(' :: codec.shield seed ++ ')' :: chain, rfl, ?_⟩
  simpa using unopened_append hopening hchain

/-- The text that is spelled holds one expression and no other one. -/
theorem findAll_eq (h : Spellable codec.delimiter seed calls) (ha : codec.Avoids t)
    (hcodec : codec.Complete) (keyword : Keyword) :
    let encoded := codec.encode (spell codec.delimiter keyword seed calls)
    codec.findAll encoded = [codec.expressionOf 0 encoded (readingOf codec keyword seed calls)] := by
  intro encoded
  have hat : codec.expressionAt? 0 encoded =
      some (codec.expressionOf 0 encoded (readingOf codec keyword seed calls)) :=
    expressionAt?_eq_some_iff.2
      ⟨encoded, [], _, (List.append_nil _).symm, h.reads ha hcodec keyword, rfl⟩
  obtain ⟨inner, hinner, hunopened⟩ := h.unopened ha hcodec keyword
  have hencoded : encoded = '[' :: inner := (h.encode_spell hcodec keyword).trans hinner
  rw [hencoded] at hat ⊢
  rw [findAll, expressionsFrom, hat, expressionsFrom_of_unopened codec _ hunopened]
  exact List.mergeSort_singleton _

end Spellable

end EscapeCodec

open EscapeCodec

/-- Writing an expression and reading it is the identity: the text is one expression, and its keyword,
its unescaped seed and its calls are those that were written. -/
theorem findAll_spell {delimiter : Char} {seed : Text} {calls : List (Text × List Text)}
    (keyword : Keyword) (h : Spellable delimiter seed calls)
    (hfree : LeavesFree 5 (spell delimiter keyword seed calls)) :
    let t := spell delimiter keyword seed calls
    let codec := avoiding delimiter t
    ∃ e, codec.findAll (codec.encode t) = [e] ∧ e.span = ⟨0, Text.byteLength (codec.encode t)⟩ ∧
      e.matched = t ∧ e.keyword = keyword ∧ unescape delimiter e.seed = seed ∧
      e.invocations.map (fun i => (i.name, i.args)) = calls := by
  intro t codec
  have ha : codec.Avoids t := avoiding_avoids delimiter t
  have hcodec : codec.Complete := avoiding_complete hfree
  have hspellable : Spellable codec.delimiter seed calls := h
  have hslash : codec.delimiter ≠ '\\' := hspellable.delimiter_ne_slash
  have hescape : escape delimiter seed ⊆ t := escape_subset_spell delimiter keyword seed calls
  have hseed : codec.decode .escaped (codec.shield seed) = escape delimiter seed := by
    rw [← encode_escape hcodec hslash]
    exact (ha.of_subset hescape).decode_encode
  refine ⟨_, hspellable.findAll_eq ha hcodec keyword, ?_, ha.decode_encode, rfl, ?_, ?_⟩
  · simp only [expressionOf, Nat.zero_add]
    rfl
  · exact (congrArg (unescape delimiter) hseed).trans
      (unescape_escape hslash (hfree.of_subset hescape))
  · exact hspellable.invocations_eq hcodec fun call hcall =>
      ha.of_subset (spellCall_subset_spell hcall keyword seed)

/-- A seed and arguments full of structure: parentheses, backslashes, the delimiter, an expression. -/
theorem findAll_spell_structured :
    let seed := "a) => x\\);".toList
    let calls := [("append".toList, ["[TEXT(y)]".toList, [], "\\;]".toList]), ("upper".toList, []),
      ("f-2".toList, ["a,b".toList])]
    let t := "[TEXT(a\\) => x\\\\)\\;) => append([TEXT\\(y\\)\\];;\\\\;\\]) upper f-2(a\\,b)]".toList
    let codec := avoiding ';' t
    Spellable ';' seed calls ∧ LeavesFree 5 t ∧ spell ';' .text seed calls = t ∧
    ∃ e, codec.findAll (codec.encode t) = [e] ∧ e.span = ⟨0, Text.byteLength (codec.encode t)⟩ ∧
      e.matched = t ∧ e.keyword = .text ∧ unescape ';' e.seed = seed ∧
      e.invocations.map (fun i => (i.name, i.args)) = calls := by
  intro seed calls t codec
  have hspellable : Spellable ';' seed calls := by
    constructor <;> decide +kernel
  let cs := ['\uE000', '\uE001', '\uE002', '\uE003', '\uE004']
  have hall : cs.all (fun c => isPrivateUse c && !t.contains c) = true := by decide +kernel
  have hfree : LeavesFree 5 t := leavesFree_of_all (by decide) hall
  have hspell : spell ';' .text seed calls = t := by decide +kernel
  have hfound := findAll_spell .text hspellable (hspell ▸ hfree)
  rw [hspell] at hfound
  exact ⟨hspellable, hfree, hspell, hfound⟩

end SeedChain
