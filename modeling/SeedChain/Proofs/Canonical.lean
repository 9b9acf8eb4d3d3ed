import SeedChain.Proofs.Context
import SeedChain.Proofs.Escaping
import SeedChain.Proofs.Grouping
/-!
# The canonical spelling

The canonical spelling of an expression is put together from what was read: the keyword, the seed and
the sources of the calls, with other blanks between them. No new escaped pair comes up where the parts
are joined, because an encoded text has no backslash before a character that can be escaped
(`Avoids.getLast?_ne_slash`), and no name ends with one. So it is encoded part by part
(`encode_canonical`) and each scanner takes the same part again.

Main result: the canonical spelling is a normal form. It is one expression, with the same keyword, seed
and calls, and it is its own canonical spelling (`canonical_normal_form`).
-/

namespace SeedChain

namespace EscapeCodec

variable {codec : EscapeCodec} {m t x y : Text} {token : ChainToken} {r : Reading}

/-! ## Parts of an encoded text -/

/-- An encoded text begins with the first character of the text, or with a placeholder. -/
theorem Avoids.head_of_encode {a c : Char} (ha : codec.Avoids (a :: t))
    (hc : EscapeCodec.isPrivateUse c = false) (h : codec.encode (a :: t) = c :: y) : a = c := by
  cases t with
  | nil => exact (List.cons.inj h).1
  | cons d t =>
    rw [encode] at h
    split at h
    · split at h
      · rename_i p hp
        -- a pair begins with a placeholder
        have hprivate := isPrivateUse_of_placeholder? ha hp
        rw [(List.cons.inj h).1, hc] at hprivate
        cases hprivate
      · exact (List.cons.inj h).1
    · exact (List.cons.inj h).1

/-- No backslash of an encoded text stands before a character that can be escaped. -/
theorem Avoids.getLast?_ne_slash (ha : codec.Avoids t) {c : Char}
    (hc : EscapeCodec.isPrivateUse c = false) (hp : codec.placeholder? c ≠ none)
    (h : codec.encode t = x ++ c :: y) : x.getLast? ≠ some '\\' := by
  intro hlast
  obtain ⟨x, rfl⟩ := List.getLast?_eq_some_iff.1 hlast
  rw [List.append_assoc, List.singleton_append] at h
  obtain ⟨_, s, rfl, -, hs⟩ := encode_cut h
  replace ha : codec.Avoids s := ha.of_subset fun d hd => List.mem_append_right _ hd
  match s, hs with
  | [], hs => cases hs
  | [_], hs => cases hs
  | a :: d :: s, hs =>
    obtain rfl : a = '\\' := ha.head_of_encode (by decide) hs
    rw [encode, if_pos rfl] at hs
    split at hs
    · rename_i p hp'
      have hprivate := isPrivateUse_of_placeholder? ha hp'
      rw [(List.cons.inj hs).1] at hprivate
      exact absurd hprivate (by decide)
    · rename_i hnone
      have htail : codec.Avoids (d :: s) := ha.of_subset fun e he => List.mem_cons_of_mem _ he
      obtain rfl : d = c := htail.head_of_encode hc (List.cons.inj hs).2
      exact hp hnone

/-- A part of an encoded text is the encoding of a part of the text. -/
theorem Avoids.encode_decode (ha : codec.Avoids t) (hx : x <:+: codec.encode t) :
    codec.encode (codec.decode .escaped x) = x ∧ codec.decode .escaped x <:+: t := by
  obtain ⟨before, after, h⟩ := hx
  rw [List.append_assoc] at h
  obtain ⟨s, u, rfl, -, hu⟩ := encode_cut h.symm
  obtain ⟨v, w, rfl, rfl, -⟩ := encode_cut hu
  rw [(ha.of_subset fun c hc => by simp [hc]).decode_encode]
  exact ⟨rfl, s, w, by simp⟩

/-! ## Parts of an expression -/

/-- The parts that a canonical spelling is made of stand in the encoded text, the seed before a
parenthesis. -/
theorem Reading.Reads.parts (ha : codec.Avoids m) (hparen : codec.placeholder? ')' ≠ none)
    (h : r.Reads (codec.encode m)) :
    r.seed <:+: codec.encode m ∧ r.seed.getLast? ≠ some '\\' ∧
      ∀ token ∈ r.tokens, token.IsGroup ∧ token.source <:+: codec.encode m := by
  obtain ⟨opening, gap, close, hwritten, ht⟩ := Reading.reads_iff.1 h
  obtain ⟨hsource, hgroup, -⟩ := hwritten.tokens_laid
  refine ⟨h.seed_infix, fun hslash => ?_, fun token htoken => ?_⟩
  · have hlast := ha.getLast?_ne_slash (x := opening ++ r.seed) (y := gap ++ close) (by decide) hparen
      (by simp [ht])
    rw [List.getLast?_append, hslash] at hlast
    exact hlast rfl
  · rw [ht]
    exact ⟨hgroup token htoken, (hsource token htoken).trans (List.suffix_append _ _).isInfix⟩

theorem getLast?_source (h : token.IsGroup) (hname : '\\' ∉ token.name) :
    token.source.getLast? ≠ some '\\' := by
  intro hlast
  cases h with
  | bare => exact hname (List.mem_of_getLast? hlast)
  | call =>
    rw [List.getLast?_concat] at hlast
    exact absurd (Option.some.inj hlast) (by decide)

/-- A public character in the name of a group stays in the name of the call. -/
theorem Avoids.not_mem_name (ha : codec.Avoids t) (h : token.IsGroup) {c : Char}
    (hc : EscapeCodec.isPrivateUse c = false) (hname : c ∉ (codec.invocation token).name) :
    c ∉ token.name := by
  intro hmem
  have htrim : token.name.trim = token.name :=
    Text.trim_eq_self fun c hc => (Lexer.isNameChar_iff.1 (h.isName.2 c hc).1).1
  obtain ⟨before, after, hsplit⟩ := List.append_of_mem hmem
  refine hname ?_
  rw [invocation, htrim, hsplit, List.append_cons, decode_append, decode_append,
    ha.decode_singleton _ (.inl hc)]
  simp

/-! ## The canonical spelling -/

theorem canonical_expressionOf (codec : EscapeCodec) (offset : Nat) (matched : Text) (r : Reading) :
    (codec.expressionOf offset matched r).canonical =
      '[' :: r.keyword.letters ++ ['('] ++ (codec.decode .escaped r.seed ++ ([')'] ++
        if r.tokens = [] then [']'] else " => ".toList ++
          (Text.join [' '] (r.tokens.map fun token => codec.decode .escaped token.source) ++ [']']))) := by
  simp only [Expression.canonical, expressionOf, List.map_eq_nil_iff, List.map_map]
  split
  · simp
  · simp [Function.comp_def, invocation]

/-- No pair comes up where the parts of a canonical spelling are joined. -/
theorem encode_canonical (ha : codec.Avoids m) (hparen : codec.placeholder? ')' ≠ none)
    (h : r.Reads (codec.encode m))
    (hname : ∀ token ∈ r.tokens, '\\' ∉ (codec.invocation token).name) (offset : Nat)
    (matched : Text) :
    codec.encode (codec.expressionOf offset matched r).canonical = r.spelling := by
  obtain ⟨hseed, hlast, htokens⟩ := h.parts ha hparen
  have hencode : codec.encode (codec.decode .escaped r.seed) = r.seed := (ha.encode_decode hseed).1
  have hopening : '\\' ∉ '[' :: r.keyword.letters ++ ['('] := by cases r.keyword <;> decide
  have hsources : (r.tokens.map fun token => codec.decode .escaped token.source).map codec.encode =
      r.tokens.map (·.source) := by
    rw [List.map_map]
    exact List.map_congr_left fun token htoken => (ha.encode_decode (htokens token htoken).2).1
  have hpieces : ∀ p ∈ r.tokens.map fun token => codec.decode .escaped token.source, ∀ u,
      codec.encode (p ++ u) = codec.encode p ++ codec.encode u := by
    intro p hp u
    obtain ⟨token, htoken, rfl⟩ := List.mem_map.1 hp
    obtain ⟨hgroup, hsource⟩ := htokens token htoken
    apply encode_append_of_encoded
    rw [(ha.encode_decode hsource).1]
    exact getLast?_source hgroup (ha.not_mem_name hgroup (by decide) (hname token htoken))
  rw [canonical_expressionOf, encode_plain_append _ hopening,
    encode_append_of_encoded (hencode.symm ▸ hlast), hencode, encode_plain_append _ (by decide)]
  split
  · rename_i hnil
    simp [Reading.spelling, hnil, encode]
  · rename_i hcons
    rw [encode_plain_append _ (by decide), encode_join_append (by decide) hpieces, hsources]
    simp [Reading.spelling, hcons, encode]

/-- The private-use characters of a canonical spelling are those of the expression as written. -/
theorem mem_canonical (ha : codec.Avoids m) (hparen : codec.placeholder? ')' ≠ none)
    (h : r.Reads (codec.encode m)) (offset : Nat) (matched : Text) :
    ∀ c ∈ (codec.expressionOf offset matched r).canonical, isPrivateUse c = false ∨ c ∈ m := by
  obtain ⟨hseed, -, htokens⟩ := h.parts ha hparen
  have hplain {s : Text} (hs : s.all (fun c => !isPrivateUse c) = true) :
      ∀ c ∈ s, isPrivateUse c = false ∨ c ∈ m := fun c hc => .inl (not_isPrivateUse_of_all hs c hc)
  have hopening : ('[' :: r.keyword.letters ++ ['(']).all (fun c => !isPrivateUse c) = true := by
    cases r.keyword <;> decide
  have hsources : ∀ c ∈ Text.join [' '] (r.tokens.map fun token => codec.decode .escaped token.source),
      isPrivateUse c = false ∨ c ∈ m := by
    intro c hc
    rcases Text.mem_join hc with hc | ⟨p, hp, hc⟩
    · exact hplain (by decide) c hc
    · obtain ⟨token, htoken, rfl⟩ := List.mem_map.1 hp
      exact .inr ((ha.encode_decode (htokens token htoken).2).2.subset hc)
  rw [canonical_expressionOf]
  refine List.forall_mem_append.2 ⟨hplain hopening, List.forall_mem_append.2
    ⟨fun c hc => .inr ((ha.encode_decode hseed).2.subset hc),
      List.forall_mem_append.2 ⟨hplain (by decide), ?_⟩⟩⟩
  split
  · exact hplain (by decide)
  · exact List.forall_mem_append.2 ⟨hplain (by decide),
      List.forall_mem_append.2 ⟨hsources, hplain (by decide)⟩⟩

end EscapeCodec

open EscapeCodec

/-- The canonical spelling of an expression is one expression, with the same keyword, seed and calls,
and its own canonical spelling. -/
theorem canonical_normal_form {delimiter : Char} {t : Text} {e : Expression}
    (hd : isPrivateUse delimiter = false) (hfree : LeavesFree 5 t) (he : e ∈ expressions delimiter t)
    (hname : ∀ i ∈ e.invocations, '\\' ∉ i.name) :
    let c := e.canonical
    let codec := avoiding delimiter c
    ∃ e' ∈ codec.findAll (codec.encode c), e'.span = ⟨0, Text.byteLength (codec.encode c)⟩ ∧
      e'.keyword = e.keyword ∧ e'.seed = e.seed ∧ e'.invocations = e.invocations ∧
      e'.canonical = c ∧ e'.matched = c := by
  intro c codec
  have ha := avoiding_avoids delimiter t
  obtain ⟨before, after, hstands⟩ := exists_stands ha he
  obtain ⟨r, hr, heq⟩ := hstands.read
  have ham := hstands.avoids_matched ha
  have hmatched : e.matched ⊆ t := fun a ha => by rw [hstands.text_eq]; simp [ha]
  have hparen : (avoiding delimiter t).placeholder? ')' ≠ none := by
    rw [Ne, (avoiding_complete hfree).placeholder?_eq_none_iff, not_not, mem_escapable_iff]
    exact .inl (by decide)
  have hnames : ∀ token ∈ r.tokens, '\\' ∉ ((avoiding delimiter t).invocation token).name := by
    intro token htoken
    refine hname _ ?_
    rw [heq]
    exact List.mem_map_of_mem htoken
  -- the canonical spelling is an expression for the codec of the text, and so for its own codec
  have hc : c = (expressionOf _ _ _ r).canonical := congrArg Expression.canonical heq
  have hmem : ∀ a ∈ c, isPrivateUse a = false ∨ a ∈ t := by
    intro a hmem
    rw [hc] at hmem
    exact (mem_canonical ham hparen hr _ _ a hmem).imp_right fun h => hmatched h
  have hencode : (avoiding delimiter t).encode c = r.spelling :=
    hc ▸ encode_canonical ham hparen hr hnames _ _
  have hinterchange : Interchange (avoiding delimiter t) codec c :=
    ⟨ha.of_forall hmem, avoiding_avoids delimiter c, rfl, hd,
      (avoiding_complete (hfree.of_forall hmem)).trans (avoiding_complete hfree).symm⟩
  obtain ⟨r', hr', heq'⟩ := hinterchange.recognises ⟨r, hencode.symm ▸ hr.spelling, rfl⟩
  have hkeyword : r'.keyword = e.keyword := by
    rw [heq]
    exact (congrArg Expression.keyword heq').symm
  have hseed : codec.decode .escaped r'.seed = e.seed := by
    rw [heq]
    exact (congrArg Expression.seed heq').symm
  have hcalls : r'.tokens.map codec.invocation = e.invocations := by
    rw [heq]
    exact (congrArg Expression.invocations heq').symm
  refine ⟨codec.expressionOf 0 (codec.encode c) r',
    mem_findAll.2 ⟨[], codec.encode c, [], r', by simp, hr', rfl⟩, ?_, hkeyword, hseed, hcalls, ?_, ?_⟩
  · rw [expressionOf, Nat.zero_add]
  · simp only [Expression.canonical, expressionOf, hkeyword, hseed, hcalls, c]
  · exact (avoiding_avoids delimiter c).decode_encode

/-- Odd blanks, nested expressions, escapes, and a call that is split at its separator. -/
theorem canonical_normal_form_rewritten :
    let t := "x [ TEXT (a [TEXT(b)] \\))\t=>  replace (a\\,b %% c)join( [TEXT(x)] )\nf\\) ] y".toList
    let c := "[TEXT(a [TEXT(b)] \\)) => replace (a\\,b %% c) join( [TEXT(x)] ) f\\)]".toList
    let e : Expression := ⟨.text, "a [TEXT(b)] \\)".toList,
      [⟨"replace".toList, ["a,b".toList, "c".toList], "replace (a\\,b %% c)".toList⟩,
        ⟨"join".toList, [" [TEXT(x)] ".toList], "join( [TEXT(x)] )".toList⟩,
        ⟨"f)".toList, [], "f\\)".toList⟩],
      "[ TEXT (a [TEXT(b)] \\))\t=>  replace (a\\,b %% c)join( [TEXT(x)] )\nf\\) ]".toList, ⟨2, 75⟩⟩
    let codec := avoiding ',' c
    LeavesFree 5 t ∧ e ∈ expressions ',' t ∧ (∀ i ∈ e.invocations, '\\' ∉ i.name) ∧ e.canonical = c ∧
      ∃ e' ∈ codec.findAll (codec.encode c), e'.span = ⟨0, Text.byteLength (codec.encode c)⟩ ∧
        e'.keyword = e.keyword ∧ e'.seed = e.seed ∧ e'.invocations = e.invocations ∧
        e'.canonical = c ∧ e'.matched = c := by
  intro t c e codec
  let cs := ['\uE000', '\uE001', '\uE002', '\uE003', '\uE004']
  have hall : cs.all (fun c => isPrivateUse c && !t.contains c) = true := by decide +kernel
  have hfree : LeavesFree 5 t := leavesFree_of_all (by decide) hall
  have hname : ∀ i ∈ e.invocations, '\\' ∉ i.name := by decide +kernel
  have hc : e.canonical = c := by decide +kernel
  have he : e ∈ expressions ',' t := List.mem_mergeSort.2 (by decide +kernel)
  have hnormal := canonical_normal_form (by decide) hfree he hname
  rw [hc] at hnormal
  exact ⟨hfree, he, hname, hc, hnormal⟩

end SeedChain
