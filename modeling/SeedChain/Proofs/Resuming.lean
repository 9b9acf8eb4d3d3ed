import SeedChain.Proofs.Occurrences
import SeedChain.Proofs.Spelling
import SeedChain.Proofs.Writes
/-!
# Storing a value and going on with it

No call looks at the store: what a chain comes to, and what it writes, is the same whatever is stored
(`runChain_outcome`, `chainWrites_eq`). `store` is an operation of every type and keeps the value as it
is (`Value.invoke_keep`), and a seed that names a kept value of its own type is that value
(`build_of_kept`).

Main result: an expression can be cut in two at any call that ends with a value, the value being kept
under a name between the two, and comes to the same (`resumed_as_whole`).
-/

namespace SeedChain

/-! ## Calls do not look at the store -/

theorem Operation.run_outcome {α : Type} (op : Operation α) (delimiter : Char) (v : Value) (x : α)
    (args : Args) (store store' : Store) :
    (op.run delimiter v x args store).1 = (op.run delimiter v x args store').1 := by
  unfold Operation.run
  cases op.action <;> rfl

theorem Operation.call_outcome {α : Type} (operations : List (Operation α)) (delimiter : Char)
    (v : Value) (x : α) (name : Text) (args : List Text) (store store' : Store) :
    (call operations delimiter v x name args store).1 =
      (call operations delimiter v x name args store').1 := by
  unfold call
  cases find? operations name with
  | none => rfl
  | some op =>
    simp only
    split
    · exact op.run_outcome ..
    · rfl

theorem Value.invoke_outcome (delimiter : Char) (v : Value) (name : Text) (args : List Text)
    (store store' : Store) :
    (v.invoke delimiter name args store).1 = (v.invoke delimiter name args store').1 := by
  cases v <;> exact Operation.call_outcome ..

/-- What a chain comes to does not depend on what is stored. -/
theorem runChain_outcome (delimiter : Char) (calls : List Invocation) (v : Value)
    (store store' : Store) :
    (runChain delimiter calls v store).1 = (runChain delimiter calls v store').1 := by
  induction calls generalizing v store store' with
  | nil => rfl
  | cons call calls ih =>
    have hcall := v.invoke_outcome delimiter call.name call.args store store'
    rw [runChain, runChain]
    generalize v.invoke delimiter call.name call.args store = called at hcall ⊢
    generalize v.invoke delimiter call.name call.args store' = called' at hcall ⊢
    obtain ⟨outcome, after⟩ := called
    obtain ⟨outcome', after'⟩ := called'
    obtain rfl : outcome = outcome' := hcall
    rcases outcome with _ | _ | next
    · rfl
    · rfl
    · exact ih next after after'

/-- Nor does what it writes. -/
theorem chainWrites_eq (delimiter : Char) (calls : List Invocation) (v : Value)
    (store store' : Store) :
    chainWrites delimiter calls v store = chainWrites delimiter calls v store' := by
  induction calls generalizing v store store' with
  | nil => rfl
  | cons call calls ih =>
    have hcall := v.invoke_outcome delimiter call.name call.args store store'
    rw [chainWrites, chainWrites]
    generalize v.invoke delimiter call.name call.args store = called at hcall ⊢
    generalize v.invoke delimiter call.name call.args store' = called' at hcall ⊢
    obtain ⟨outcome, after⟩ := called
    obtain ⟨outcome', after'⟩ := called'
    obtain rfl : outcome = outcome' := hcall
    rcases outcome with _ | _ | next
    · rfl
    · rfl
    · exact congrArg _ (ih next after after')

/-- A chain goes on behind calls that end with a value. -/
theorem runChain_append {delimiter : Char} {calls : List Invocation} {v next : Value}
    {store middle : Store} (h : runChain delimiter calls v store = (.ok (some next), middle))
    (more : List Invocation) :
    runChain delimiter (calls ++ more) v store = runChain delimiter more next middle := by
  induction calls generalizing v store with
  | nil =>
    cases h
    rfl
  | cons call calls ih =>
    rw [List.cons_append, runChain]
    rw [runChain] at h
    generalize v.invoke delimiter call.name call.args store = called at h ⊢
    rcases called with ⟨_ | _ | w, after⟩
    · cases h
    · cases h
    · exact ih h

/-- What stands under a name after some writes depends on what stood there before. -/
theorem Store.get?_applyAll {name : Text} {store store' : Store}
    (h : Entries.get? name store = Entries.get? name store') (ws : List Write) :
    Entries.get? name (Store.applyAll ws store) = Entries.get? name (Store.applyAll ws store') := by
  induction ws generalizing store store' with
  | nil => exact h
  | cons w ws ih =>
    refine ih ?_
    unfold Store.apply
    by_cases hname : name = w.name
    · rw [hname, Entries.get?_set_self, Entries.get?_set_self]
    · rw [Entries.get?_set_ne hname, Entries.get?_set_ne hname, h]

/-! ## Keeping and resuming -/

/-- All types have the operation that keeps a value. -/
theorem Operation.call_keep {α : Type} (own : List (Operation α)) (delimiter : Char) (v : Value)
    (x : α) (name : Text) (store : Store) :
    call (withShared own) delimiter v x "store".toList [name] store =
      (goOn v, keep v (Args.bind (.fixed 1) [name]) store) := by
  simp [call, find?, withShared, isCalled, Arity.accepts, run]

theorem Value.invoke_keep (delimiter : Char) (v : Value) {name : Text} (hne : name ≠ [])
    (htrim : name.trim = name) (store : Store) :
    v.invoke delimiter "store".toList [name] store =
      (goOn v, Entries.set name (.value v) store) := by
  have hkeep : keep v (Args.bind (.fixed 1) [name]) store = Entries.set name (.value v) store := by
    have harg : ((Args.bind (.fixed 1) [name]).getD 0 []).trim = name := htrim
    simp only [keep, harg, if_neg hne]
  cases v
  all_goals simp only [Value.invoke, Text.operations, Decimal.operations, ItemList.operations,
    JsonDocument.operations, XmlDocument.operations, Table.operations, DateValue.operations,
    Properties.operations, Sections.operations, Bytes.operations, ExternalResult.operations,
    Operation.call_keep, hkeep]

theorem Stored.resume?_value (v : Value) (delimiter : Char) :
    (Stored.value v).resume? v.keyword delimiter = some v := by
  simp [Stored.resume?]

theorem trim_of_isIdentifier {name : Text} (h : isIdentifier name = true) : name.trim = name :=
  Text.trim_eq_self fun c hc => (EscapeCodec.plain_of_isIdentifier h c hc).2.1

/-- A seed that names a kept value of its type is that value. -/
theorem build_of_kept (env : Environment) {name : Text} (hname : isIdentifier name = true) (v : Value)
    (store : Store) :
    build env v.keyword name (Entries.set name (.value v) store) = .ok v := by
  have hresume : resume? env.delimiter v.keyword name (Entries.set name (.value v) store) = some v := by
    simp only [resume?, trim_of_isIdentifier hname, hname, if_true, Entries.get?_set_self,
      Option.bind_some, Stored.resume?_value]
  simp only [build, hresume]

/-! ## Cutting an expression in two -/

namespace EscapeCodec

variable {codec : EscapeCodec} {token : ChainToken} {name arg : Text}

/-- A list of parameters that is one identifier is one argument. -/
theorem splitParams_of_isIdentifier (harg : SeedChain.isIdentifier arg = true)
    (hd : codec.delimiter ∉ arg) (hkept : ∀ c ∈ arg, codec.original? c = none) :
    codec.splitParams arg = [arg] := by
  have hplain := plain_of_isIdentifier harg
  have hblank : ¬ Text.isBlank arg = true := by
    cases arg with
    | nil => cases harg
    | cons c arg => simp [Text.isBlank, (hplain c (by simp)).2.1]
  have hinfix : ¬ Text.hasInfix separator arg = true := by
    intro h
    obtain ⟨⟨before, after⟩, hcut⟩ := Option.isSome_iff_exists.1 h
    have hmem : ' ' ∈ arg := by
      rw [Text.eq_of_cut? hcut]
      simp [separator]
    exact absurd (hplain ' ' hmem).2.1 (by decide)
  rw [splitParams, if_neg hblank, if_neg hinfix, Text.split_of_not_mem hd, List.map_singleton,
    decode_of_original?_eq_none _ hkept]

/-- A call that is written with one identifier in parentheses is a call with this argument. -/
theorem invocation_of_source (h : token.IsGroup) (hname : SeedChain.isIdentifier name = true)
    (harg : SeedChain.isIdentifier arg = true) (hd : codec.delimiter ∉ arg)
    (hsource : (codec.invocation token).source = name ++ '(' :: arg ++ [')']) :
    (codec.invocation token).name = name ∧ (codec.invocation token).args = [arg] := by
  have hplain := plain_of_isIdentifier hname
  have hplain' := plain_of_isIdentifier harg
  have hslash : '\\' ∉ name ++ '(' :: arg ++ [')'] := by
    have hmarks {t : Text} (h : ∀ c ∈ t, c.toNat < 128 ∧ Text.isWhite c = false ∧ c ∉ marks) :
        '\\' ∉ t := fun hmem => (h _ hmem).2.2 (by decide)
    simp [hmarks hplain, hmarks hplain']
  -- without a backslash there is no placeholder, so the group is written in the same way
  rw [← hsource] at hslash
  have hkept := original?_eq_none_of_decode hslash
  replace hsource : token.source = name ++ '(' :: arg ++ [')'] :=
    (decode_of_original?_eq_none _ hkept).symm.trans hsource
  rw [hsource] at hkept
  have hopen : '(' ∉ name := fun hmem => (hplain _ hmem).2.2 (by decide)
  cases h with
  | bare hn =>
    obtain rfl : _ = name ++ '(' :: arg ++ [')'] := hsource
    exact absurd rfl (hn.plain '(' (by simp)).1
  | @call name' gap params hn hgap hclosed =>
    -- what is written has a single parenthesis that opens, so the group opens its parameters there
    have hopen' : '(' ∉ arg ++ [')'] := by
      rw [List.mem_append, not_or]
      exact ⟨fun hmem => (hplain' _ hmem).2.2 (by decide), by decide⟩
    simp only [List.append_assoc, List.cons_append] at hsource
    rw [← List.append_assoc, eq_comm, List.append_cons_inj_of_notMem hopen hopen'] at hsource
    obtain ⟨hnamed, -, hparams⟩ := hsource
    obtain rfl : arg = params := List.append_cancel_right hparams
    obtain rfl : gap = [] := by
      refine List.eq_nil_iff_forall_not_mem.2 fun c hc => ?_
      have hwhite := (hplain c (by rw [hnamed]; exact List.mem_append_right _ hc)).2.1
      rw [List.all_eq_true.1 hgap c hc] at hwhite
      cases hwhite
    obtain rfl : name = name' := by simpa using hnamed
    have htrim : name.trim = name := Text.trim_eq_self fun c hc => (hplain c hc).2.1
    constructor
    · rw [invocation, htrim, decode_of_original?_eq_none _ fun c hc => hkept c (by simp [hc])]
    · exact splitParams_of_isIdentifier harg hd fun c hc => hkept c (by simp [hc])

end EscapeCodec

open EscapeCodec

/-- The expression is a whole text in its canonical spelling. -/
structure Expression.IsWritten (delimiter : Char) (e : Expression) : Prop where
  found : e ∈ expressions delimiter e.canonical
  matched_eq : e.matched = e.canonical

theorem Expression.IsWritten.replacement_eq {delimiter : Char} {e : Expression}
    (h : e.IsWritten delimiter) (v : Value) : e.replacement v = v.text? := by
  unfold Expression.replacement
  rw [if_pos h.matched_eq]
  cases v.text? <;> rfl

/-- An expression cut in two: the first part has its seed and its first calls, and then keeps the last
value under a name; the second part has this name for a seed and goes on with the other calls. -/
structure CutInTwo (delimiter : Char) (name : Text) (calls : List Invocation)
    (whole first second : Expression) : Prop where
  whole_written : whole.IsWritten delimiter
  first_written : first.IsWritten delimiter
  second_written : second.IsWritten delimiter
  keyword_eq : first.keyword = whole.keyword
  seed_eq : first.seed = whole.seed
  seed_name : second.seed = name
  first_calls : ∃ i, first.invocations = calls ++ [i] ∧
    i.source = "store".toList ++ '(' :: name ++ [')']
  whole_calls : whole.invocations = calls ++ second.invocations

/-- The last call of the first part keeps the value. -/
theorem CutInTwo.exists_keep {delimiter : Char} {name : Text} {calls : List Invocation}
    {whole first second : Expression} (h : CutInTwo delimiter name calls whole first second)
    (hname : isIdentifier name = true) (hd : delimiter ∉ name) :
    ∃ i, first.invocations = calls ++ [i] ∧ i.name = "store".toList ∧ i.args = [name] := by
  obtain ⟨i, hcalls, hsource⟩ := h.first_calls
  refine ⟨i, hcalls, ?_⟩
  obtain ⟨_, _, _, r, -, hr, hfirst⟩ := mem_findAll.1 h.first_written.found
  have hmem : i ∈ first.invocations := by simp [hcalls]
  rw [hfirst] at hmem
  obtain ⟨token, htoken, rfl⟩ := List.mem_map.1 hmem
  obtain ⟨_, _, _, hwritten, -⟩ := Reading.reads_iff.1 hr
  exact invocation_of_source (hwritten.tokens_laid.2.1 token htoken) (by decide) hname hd hsource

variable {env : Environment} {name : Text} {calls : List Invocation}
  {whole first second : Expression} {store middle : Store} {seed v : Value}

/-- Keeping the value that a chain has come to and going on with it comes to the same as carrying on:
the same replacement, or none, or the same error, and what is stored differs under the name alone. -/
theorem resumed_as_whole (h : CutInTwo env.delimiter name calls whole first second)
    (hname : isIdentifier name = true) (hd : env.delimiter ∉ name)
    (hseed : build env whole.keyword whole.seed store = .ok seed)
    (hcalls : runChain env.delimiter calls seed store = (.ok (some v), middle))
    (hkeyword : second.keyword = v.keyword) :
    let stored := (first.evaluate env store).2
    (second.evaluate env stored).1 = (whole.evaluate env store).1 ∧
      ∀ other ≠ name, Entries.get? other (second.evaluate env stored).2 =
        Entries.get? other (whole.evaluate env store).2 := by
  intro stored
  obtain ⟨i, hfirst, hi, hargs⟩ := h.exists_keep hname hd
  have hne : name ≠ [] := by
    rintro rfl
    cases hname
  have hstored : stored = Entries.set name (.value v) middle := by
    simp only [stored, Expression.evaluate, h.keyword_eq, h.seed_eq, hseed, Expression.evaluateFrom,
      hfirst, runChain_append hcalls, runChain, hi, hargs,
      v.invoke_keep env.delimiter hne (trim_of_isIdentifier hname), goOn]
  have hsecond : second.evaluate env stored = second.evaluateFrom env v stored := by
    rw [hstored, Expression.evaluate, hkeyword, h.seed_name, build_of_kept env hname]
  have hwhole : whole.evaluate env store = whole.evaluateFrom env seed store := by
    rw [Expression.evaluate, hseed]
  have hreplacement : second.replacement = whole.replacement :=
    funext fun w => (h.second_written.replacement_eq w).trans (h.whole_written.replacement_eq w).symm
  rw [hsecond, hwhole]
  simp only [Expression.evaluateFrom, h.whole_calls, runChain_append hcalls, hreplacement]
  refine ⟨by rw [runChain_outcome env.delimiter second.invocations v stored middle], ?_⟩
  intro other hother
  rw [runChain_store, runChain_store, chainWrites_eq env.delimiter second.invocations v stored middle,
    hstored]
  exact Store.get?_applyAll (Entries.get?_set_ne hother _ _) _

/-- The scale of a number is kept, and the calls of the second part keep another value. -/
theorem resumed_as_whole_scaled :
    let env := Environment.plain ','
    let abs := Invocation.call "abs".toList []
    let more := [Invocation.call "multiply".toList [['2']], Invocation.call "store".toList [['m']]]
    let whole : Expression := ⟨.number, "-1.50".toList, abs :: more,
      "[NUMBER(-1.50) => abs multiply(2) store(m)]".toList, ⟨0, 43⟩⟩
    let first : Expression := ⟨.number, "-1.50".toList, [abs, Invocation.call "store".toList [['n']]],
      "[NUMBER(-1.50) => abs store(n)]".toList, ⟨0, 31⟩⟩
    let second : Expression := ⟨.number, ['n'], more, "[NUMBER(n) => multiply(2) store(m)]".toList,
      ⟨0, 35⟩⟩
    let seed := Value.number ⟨true, 150, 2, by decide, by decide⟩
    let v := Value.number ⟨false, 150, 2, by decide, by decide⟩
    CutInTwo ',' ['n'] [abs] whole first second ∧ build env whole.keyword whole.seed [] = .ok seed ∧
    runChain ',' [abs] seed [] = (.ok (some v), []) ∧
    let stored := (first.evaluate env []).2
    (second.evaluate env stored).1 = (whole.evaluate env []).1 ∧
      ∀ other ≠ ['n'], Entries.get? other (second.evaluate env stored).2 =
        Entries.get? other (whole.evaluate env []).2 := by
  intro env abs more whole first second seed v
  have hwhole : whole.IsWritten ',' := ⟨List.mem_mergeSort.2 (by decide +kernel), by decide +kernel⟩
  have hfirst : first.IsWritten ',' := ⟨List.mem_mergeSort.2 (by decide +kernel), by decide +kernel⟩
  have hsecond : second.IsWritten ',' := ⟨List.mem_mergeSort.2 (by decide +kernel), by decide +kernel⟩
  have hcut : CutInTwo ',' ['n'] [abs] whole first second :=
    ⟨hwhole, hfirst, hsecond, rfl, rfl, rfl, ⟨_, rfl, by decide⟩, rfl⟩
  have hread : Decimal.read "-1.50".toList = .ok ⟨true, 150, 2, by decide, by decide⟩ := by decide +kernel
  have hbuild : build (Environment.plain ',') .number "-1.50".toList [] =
      .ok (.number ⟨true, 150, 2, by decide, by decide⟩) := by
    change (Value.number <$> Decimal.read "-1.50".toList).mapError
      (EvalError.conversion .number "-1.50".toList) = _
    rw [hread]
    rfl
  have hseed : build env whole.keyword whole.seed [] = .ok seed := hbuild
  have hcalls : runChain ',' [abs] seed [] = (.ok (some v), []) := rfl
  exact ⟨hcut, hseed, hcalls, resumed_as_whole hcut (by decide) (by decide) hseed hcalls rfl⟩

end SeedChain
