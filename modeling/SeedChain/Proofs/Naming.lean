import SeedChain.Command.Process
import SeedChain.Proofs.FirstStep
import SeedChain.Proofs.Resuming
/-!
# Variables that seeds can name

A variable is given as `name=value` with any name that is not blank, and a seed is only looked up if it
is an identifier. Stores that agree on all identifiers (`Store.Agree`) are the same to every evaluation:
one evaluation comes to the same from both and leaves stores that agree again
(`Expression.evaluate_alike`), and so does a whole run (`process_alike`).

Main result: a variable that has an identifier for a name is what the seed `[TEXT(name)]` stands for,
and one with a name that holds other characters, or begins with a digit, makes no difference to any
request (`bare_names_read`).
-/

namespace SeedChain

/-! ## Stores that agree -/

/-- The stores hold the same under every name that a seed can have. -/
def Store.Agree (s s' : Store) : Prop :=
  ∀ name, isIdentifier name = true → Entries.get? name s = Entries.get? name s'

namespace Store

variable {s s' : Store}

theorem Agree.set (h : s.Agree s') (name : Text) (x : Stored) :
    Agree (Entries.set name x s) (Entries.set name x s') := by
  intro other hother
  by_cases hname : other = name
  · rw [hname, Entries.get?_set_self, Entries.get?_set_self]
  · rw [Entries.get?_set_ne hname, Entries.get?_set_ne hname, h other hother]

theorem Agree.applyAll (h : s.Agree s') (ws : List Write) :
    (Store.applyAll ws s).Agree (Store.applyAll ws s') :=
  fun name hname => get?_applyAll (h name hname) ws

theorem Agree.setAll (h : s.Agree s') (values : List (Text × Stored)) :
    (Store.setAll values s).Agree (Store.setAll values s') := by
  induction values generalizing s s' with
  | nil => exact h
  | cons value values ih => exact ih (h.set value.1 value.2)

theorem setAll_append (values more : List (Text × Stored)) (s : Store) :
    setAll (values ++ more) s = setAll more (setAll values s) :=
  List.foldl_append

/-- What is stored under a name that is no identifier cannot be told from nothing. -/
theorem agree_set {name : Text} (hname : isIdentifier name = false) (x : Stored) (s : Store) :
    Agree (Entries.set name x s) s := by
  intro other hother
  refine Entries.get?_set_ne ?_ x s
  rintro rfl
  rw [hname] at hother
  cases hother

theorem setAll_agree {name : Text} (hname : isIdentifier name = false) (x : Stored)
    (before behind : List (Text × Stored)) (s : Store) :
    Agree (setAll (before ++ (name, x) :: behind) s) (setAll (before ++ behind) s) := by
  rw [setAll_append, setAll_append]
  exact (agree_set hname x (setAll before s)).setAll behind

end Store

/-! ## Evaluations from stores that agree -/

/-- The same has come out, and the stores that are left agree. -/
inductive Alike {α : Type} : α × Store → α × Store → Prop
  | intro (outcome : α) {after after' : Store} :
    after.Agree after' → Alike (outcome, after) (outcome, after')

theorem Alike.outcome_eq {α : Type} {r r' : α × Store} (h : Alike r r') : r.1 = r'.1 := by
  cases h
  rfl

theorem Alike.of_eq {α : Type} {r r' : α × Store} (h : r.1 = r'.1) (hagree : r.2.Agree r'.2) :
    Alike r r' := by
  obtain ⟨outcome, after⟩ := r
  obtain ⟨outcome', after'⟩ := r'
  obtain rfl : outcome = outcome' := h
  exact .intro outcome hagree

variable {env : Environment} {s s' : Store}

theorem resume?_agree (h : s.Agree s') (delimiter : Char) (keyword : Keyword) (seed : Text) :
    resume? delimiter keyword seed s = resume? delimiter keyword seed s' := by
  by_cases hname : isIdentifier seed.trim = true
  · simp only [resume?, hname, if_true, h seed.trim hname]
  · simp only [resume?, if_neg hname]

theorem build_agree (h : s.Agree s') (env : Environment) (keyword : Keyword) (seed : Text) :
    build env keyword seed s = build env keyword seed s' := by
  rw [build, build, resume?_agree h]

/-- The seed is the only part of an expression that is looked up, and what is written does not depend
on the store. -/
theorem Expression.evaluate_alike (h : s.Agree s') (env : Environment) (e : Expression) :
    Alike (e.evaluate env s) (e.evaluate env s') := by
  refine .of_eq ?_ ?_
  · unfold evaluate
    rw [build_agree h]
    cases build env e.keyword e.seed s' with
    | error error => rfl
    | ok seed => simp only [evaluateFrom, runChain_outcome env.delimiter e.invocations seed s s']
  · have hwrites : e.writes env s = e.writes env s' := by
      unfold writes
      rw [build_agree h]
      cases build env e.keyword e.seed s' with
      | error error => rfl
      | ok seed => exact chainWrites_eq env.delimiter e.invocations seed s s'
    rw [evaluate_store, evaluate_store, hwrites]
    exact h.applyAll _

namespace Progress

theorem scan_alike (h : s.Agree s') (env : Environment) (codec : EscapeCodec) (encoded : Text)
    (p : Progress) (es : List Expression) :
    Alike (p.scan env codec encoded es s) (p.scan env codec encoded es s') := by
  induction es generalizing p s s' with
  | nil => exact .intro _ h
  | cons e es ih =>
    have hevaluate := e.evaluate_alike h env
    rw [scan, scan]
    generalize e.evaluate env s = r, e.evaluate env s' = r' at hevaluate ⊢
    obtain ⟨outcome, hafter⟩ := hevaluate
    split
    · exact ih h p
    · rcases outcome with error | _ | replacement
      · exact .intro _ hafter
      · exact ih hafter _
      · dsimp only
        split
        · exact ih hafter _
        · exact .intro _ hafter

theorem pass_alike (h : s.Agree s') (env : Environment) (p : Progress) :
    Alike (p.pass env s) (p.pass env s') :=
  scan_alike h ..

theorem resolve_alike (h : s.Agree s') (env : Environment) (limit left : Nat) (p : Progress) :
    Alike (p.resolve env limit left s) (p.resolve env limit left s') := by
  induction left generalizing p s s' with
  | zero =>
    have hpass := pass_alike h env p
    rw [resolve, resolve]
    generalize p.pass env s = r, p.pass env s' = r' at hpass ⊢
    obtain ⟨_ | ⟨p', _ | substitution⟩, hafter⟩ := hpass
    all_goals exact .intro _ hafter
  | succ left ih =>
    have hpass := pass_alike h env p
    rw [resolve, resolve]
    generalize p.pass env s = r, p.pass env s' = r' at hpass ⊢
    obtain ⟨_ | ⟨p', _ | substitution⟩, hafter⟩ := hpass
    · exact .intro _ hafter
    · exact .intro _ hafter
    · exact ih hafter _

end Progress

theorem process_alike (h : s.Agree s') (env : Environment) (limit : Nat) (t : Text) :
    Alike (process env limit t s) (process env limit t s') :=
  Progress.resolve_alike h env limit limit ⟨t, []⟩

theorem checkedExpression_agree (h : s.Agree s') (env : Environment) (t : Text) :
    checkedExpression env t s = checkedExpression env t s' := by
  have hfirst : firstExpression env t s = firstExpression env t s' := by
    unfold firstExpression
    cases expressions env.delimiter t with
    | nil => rfl
    | cons e rest => simp only [build_agree h]
  rw [checkedExpression, checkedExpression, hfirst]

/-! ## Requests -/

namespace Request

/-- What a text is answered once the variables of a request are stored. -/
def reply (r : Request) (t : Text) (s : Store) : Except CommandError Reply :=
  if r.checkOnly then
    ((checkedExpression r.env t s).mapError .evaluation).map fun found =>
      found.elim .noExpression fun (e, _) => .valid e.canonical
  else ((process r.env r.limit t s).1.mapError .evaluation).map .output

theorem answer_eq {r : Request} {t : Text} (ht : r.text = some t) :
    r.answer = r.store.bind (r.reply t) := by
  unfold answer
  rw [ht]
  refine congrArg r.store.bind (funext fun s => ?_)
  unfold reply
  split
  · rcases checkedExpression r.env t s with error | _ | ⟨e, seed⟩ <;> rfl
  · rcases (process r.env r.limit t s).1 with error | resolved <;> rfl

theorem reply_agree (h : s.Agree s') (r : Request) (t : Text) : r.reply t s = r.reply t s' := by
  rw [reply, reply, checkedExpression_agree h, (process_alike h r.env r.limit t).outcome_eq]

variable {raw name value : Text} {r : Request} {before behind : List Text}

/-- Without an assignment whose name is no identifier the variables are refused alike, or stored
alike. -/
theorem store_of_no_identifier (h : readVariable raw = .ok (name, value))
    (hname : isIdentifier name = false) (hr : r.assignments = before ++ raw :: behind) :
    let rest := { r with assignments := before ++ behind }
    (∃ error, r.store = .error error ∧ rest.store = .error error) ∨
      ∃ s s' : Store, r.store = .ok s ∧ rest.store = .ok s' ∧ s.Agree s' := by
  intro rest
  simp only [store, rest, hr, List.mapM_append, List.mapM_cons, h]
  cases (r.document.map readVariables).getD (.ok []) with
  | error error => exact .inl ⟨error, rfl, rfl⟩
  | ok fromDocument =>
    cases before.mapM readVariable with
    | error error => exact .inl ⟨error, rfl, rfl⟩
    | ok first =>
      cases behind.mapM readVariable with
      | error error => exact .inl ⟨error, rfl, rfl⟩
      | ok second =>
        refine .inr ⟨_, _, rfl, rfl, ?_⟩
        simp only [List.map_append, List.map_cons, ← List.append_assoc fromDocument]
        exact Store.setAll_agree hname _ _ _ []

/-- An assignment whose name is no identifier makes no difference. -/
theorem answer_of_no_identifier (h : readVariable raw = .ok (name, value))
    (hname : isIdentifier name = false) (hr : r.assignments = before ++ raw :: behind) :
    r.answer = { r with assignments := before ++ behind }.answer := by
  rcases Option.eq_none_or_eq_some r.text with ht | ⟨t, ht⟩
  · simp only [answer, ht]
  · rw [answer_eq ht, answer_eq (r := { r with assignments := before ++ behind }) ht]
    rcases store_of_no_identifier h hname hr with ⟨error, hs, hs'⟩ | ⟨s, s', hs, hs', hagree⟩
    · rw [hs, hs']
      rfl
    · rw [hs, hs']
      exact r.reply_agree hagree t

end Request

/-! ## Bare names -/

theorem not_mem_of_isIdentifier {name : Text} (h : isIdentifier name = true) {c : Char}
    (hc : isNameLetter c = false) : c ∉ name := by
  intro hmem
  rw [isNameLetter_of_isIdentifier h c hmem] at hc
  cases hc

/-- The name holds a character that no bare name has, or begins with a digit. -/
def IsUnnamable (name : Text) : Prop :=
  (∃ c ∈ name, isNameLetter c = false) ∨ ∃ c ∈ name.head?, c.isDigit = true

theorem IsUnnamable.isIdentifier_eq {name : Text} (h : IsUnnamable name) : isIdentifier name = false := by
  refine Bool.eq_false_iff.2 fun hname => ?_
  rcases h with ⟨c, hmem, hc⟩ | ⟨c, hc, hdigit⟩
  · exact not_mem_of_isIdentifier hname hc hmem
  · obtain ⟨t, rfl⟩ := List.head?_eq_some_iff.1 hc
    simp only [isIdentifier, Bool.and_eq_true, Bool.or_eq_true, beq_iff_eq] at hname
    obtain ⟨halpha | rfl, -⟩ := hname
    · unfold Char.isAlpha Char.isUpper Char.isLower at halpha
      unfold Char.isDigit at hdigit
      grind
    · cases hdigit

/-! ## A seed that is a name -/

namespace EscapeCodec

theorem escape_of_isIdentifier {name : Text} (h : SeedChain.isIdentifier name = true) :
    escape ',' name = name := by
  have hescapable : (escapable ',').all (fun c => !isNameLetter c) = true := by decide
  refine escape_eq_self fun c hc hmem => not_mem_of_isIdentifier h ?_ hc
  simpa using List.all_eq_true.1 hescapable c hmem

theorem spellable_of_isIdentifier {name : Text} (h : SeedChain.isIdentifier name = true) :
    Spellable ',' name [] where
  delimiter_public := by decide
  delimiter_plain := by decide
  seed_plain := not_mem_of_isIdentifier h (by decide)
  seed_last := fun hlast => not_mem_of_isIdentifier h (by decide) (List.mem_of_getLast? hlast)
  isIdentifier := nofun
  arg_last := nofun
  list_visible := nofun
  list_plain := nofun

theorem leavesFree_of_isIdentifier {name : Text} (h : SeedChain.isIdentifier name = true)
    (keyword : Keyword) : LeavesFree 5 (spell ',' keyword name []) := by
  let cs := ['\uE000', '\uE001', '\uE002', '\uE003', '\uE004']
  have hall : cs.all (fun c => isPrivateUse c && !([] : Text).contains c) = true := by decide +kernel
  have hopening : ∀ c ∈ '[' :: keyword.letters ++ ['('], isPrivateUse c = false :=
    not_isPrivateUse_of_all (by cases keyword <;> decide)
  have hname : ∀ c ∈ name, isPrivateUse c = false := fun c hc =>
    not_isPrivateUse_of_lt ((plain_of_isIdentifier h c hc).1.trans (by decide))
  have hclosing : ∀ c ∈ [')', ']'], isPrivateUse c = false := not_isPrivateUse_of_all (by decide)
  have hspell : spell ',' keyword name [] =
      ('[' :: keyword.letters ++ ['(']) ++ (name ++ [')', ']']) := by
    simp [spell, spellChain, escape_of_isIdentifier h]
  rw [hspell]
  exact (leavesFree_of_all (by decide) hall).of_forall fun c hc => .inl
    (List.forall_mem_append.2 ⟨hopening, List.forall_mem_append.2 ⟨hname, hclosing⟩⟩ c hc)

end EscapeCodec

open EscapeCodec

/-- An expression without calls whose seed is an identifier is found as it is written. -/
theorem expressions_of_isIdentifier {name : Text} (hname : isIdentifier name = true)
    (keyword : Keyword) :
    let t := spell ',' keyword name []
    ∃ e, expressions ',' t = [e] ∧ e.matched = t ∧ e.keyword = keyword ∧ e.seed = name ∧
      e.invocations = [] := by
  intro t
  let codec := avoiding ',' t
  have ha : codec.Avoids t := avoiding_avoids ',' t
  have hcodec : codec.Complete := avoiding_complete (leavesFree_of_isIdentifier hname keyword)
  have hspellable : Spellable codec.delimiter name [] := spellable_of_isIdentifier hname
  have hescape := escape_of_isIdentifier hname
  have hsub : name ⊆ t := by
    have hsubset := escape_subset_spell ',' keyword name []
    rwa [hescape] at hsubset
  have hencode : codec.encode name = codec.shield name := by
    have h := encode_escape hcodec hspellable.delimiter_ne_slash name
    rwa [show escape codec.delimiter name = name from hescape] at h
  have hseed : codec.decode .escaped (codec.shield name) = name := by
    rw [← hencode]
    exact (ha.of_subset hsub).decode_encode
  exact ⟨_, hspellable.findAll_eq ha hcodec keyword, ha.decode_encode, rfl, hseed, rfl⟩

theorem expressions_of_not_mem {t : Text} (h : '[' ∉ t) (delimiter : Char) :
    expressions delimiter t = [] := by
  refine List.eq_nil_iff_forall_not_mem.2 fun e he => ?_
  have ha := avoiding_avoids delimiter t
  obtain ⟨before, behind, hstands⟩ := exists_stands ha he
  obtain ⟨inner, hinner⟩ := hstands.bracketed ha
  have htext := hstands.text_eq
  rw [hinner] at htext
  exact h (by simp [htext])

/-- An expression without calls is replaced by the text of the value that its seed names. -/
theorem process_of_isIdentifier {name value : Text} (hname : isIdentifier name = true)
    (hvalue : '[' ∉ value) (hd : env.delimiter = ',') (limit : Nat) :
    let store := Entries.set name (.value (.text value)) []
    process env (limit + 1) (spell ',' .text name []) store = (.ok value, store) := by
  intro store
  obtain ⟨delimiter, content, collaborator, clock⟩ := env
  obtain rfl : delimiter = ',' := hd
  let env : Environment := ⟨',', content, collaborator, clock⟩
  let t := spell ',' .text name []
  obtain ⟨e, hfound, hmatched, hkeyword, hseed, hcalls⟩ := expressions_of_isIdentifier hname .text
  have hbuild : build env e.keyword e.seed store = .ok (.text value) := by
    rw [hkeyword, hseed]
    exact build_of_kept env hname (.text value) []
  have hevaluate : e.evaluate env store = (.ok (some value), store) := by
    rw [Expression.evaluate_of_build hbuild, Expression.evaluateFrom, hcalls]
    rfl
  have hne : value ≠ e.matched := by
    rintro rfl
    exact hvalue (by simp [hmatched, spell])
  -- the expression is the whole text
  obtain ⟨before, behind, hstands⟩ :=
    exists_stands (avoiding_avoids ',' t) (show e ∈ expressions ',' t by simp [t, hfound])
  obtain ⟨rfl, rfl⟩ : before = [] ∧ behind = [] := by
    have htext := congrArg List.length hstands.text_eq
    simp only [hmatched, t, List.length_append] at htext
    constructor <;> refine List.eq_nil_of_length_eq_zero ?_ <;> omega
  have hnone : expressions env.delimiter value = [] := expressions_of_not_mem hvalue ','
  have hresolved : process env limit value store = (.ok value, store) :=
    (Ends.resolved .start hnone).process_eq
  have hsame := process_of_evaluate_some hfound hevaluate hne hstands limit
  rw [List.nil_append, List.append_nil, hresolved] at hsame
  exact hsame.eq_ok

/-- The request for the text of a variable, the assignment of it being the only one. -/
def Request.forText (env : Environment) (assignment name : Text) : Request where
  text := some ("[TEXT(".toList ++ name ++ ")]".toList)
  env
  limit := defaultPasses
  assignments := [assignment]
  document := none
  checkOnly := false

/-- A variable whose name is an identifier is what the seed of that name stands for. A variable whose
name holds another character, or begins with a digit, is accepted as well, but every request is
answered as if it was not there. -/
theorem bare_names_read {raw name value : Text} (h : readVariable raw = .ok (name, value)) :
    (isIdentifier name = true → '[' ∉ value → ∀ env : Environment, env.delimiter = defaultDelimiter →
      (Request.forText env raw name).answer = .ok (.output value)) ∧
    (IsUnnamable name → ∀ (r : Request) (before behind : List Text),
      r.assignments = before ++ raw :: behind →
      r.answer = { r with assignments := before ++ behind }.answer) := by
  refine ⟨fun hname hvalue env hd => ?_,
    fun hname r before behind hr => Request.answer_of_no_identifier h hname.isIdentifier_eq hr⟩
  have hspell : "[TEXT(".toList ++ name ++ ")]".toList = spell ',' .text name [] := by
    simp [spell, spellChain, escape_of_isIdentifier hname, Keyword.letters, Keyword.name]
  have hstore : (Request.forText env raw name).store =
      .ok (Entries.set name (.value (.text value)) []) := by
    simp only [Request.store, Request.forText, List.mapM_cons, List.mapM_nil, h]
    rfl
  rw [Request.answer_eq rfl, hstore]
  show Request.reply _ _ _ = _
  simp only [Request.reply, Request.forText, Bool.false_eq_true, if_false, hspell]
  rw [show defaultPasses = 1023 + 1 from rfl, process_of_isIdentifier hname hvalue hd 1023]
  rfl

/-- A value that holds structure is read, and a variable whose name is two words is not looked at. -/
theorem bare_names_read_beside_words :
    let env := Environment.plain defaultDelimiter
    let named := "w-1=a]=(b".toList
    let unnamed := " my var =x".toList
    let both : Request := { Request.forText env unnamed "my var".toList with
      assignments := [named, unnamed] }
    readVariable named = .ok ("w-1".toList, "a]=(b".toList) ∧
    (Request.forText env named "w-1".toList).answer = .ok (.output "a]=(b".toList) ∧
    readVariable unnamed = .ok ("my var".toList, ['x']) ∧ IsUnnamable "my var".toList ∧
    both.answer = { both with assignments := [named] }.answer := by
  intro env named unnamed both
  have hnamed : readVariable named = .ok ("w-1".toList, "a]=(b".toList) := by decide +kernel
  have hunnamed : readVariable unnamed = .ok ("my var".toList, ['x']) := by decide +kernel
  have hword : IsUnnamable "my var".toList := .inl ⟨' ', by decide, by decide⟩
  exact ⟨hnamed, (bare_names_read hnamed).1 (by decide) (by decide) env rfl, hunnamed, hword,
    (bare_names_read hunnamed).2 hword both [named] [] rfl⟩

/-- The seed stands for itself when the name is two words, although the variable is accepted. -/
theorem words_unread :
    let request := Request.forText (.plain defaultDelimiter) "my var=x".toList "my var".toList
    readVariable "my var=x".toList = .ok ("my var".toList, ['x']) ∧ '[' ∉ ['x'] ∧
    request.answer = .ok (.output "my var".toList) ∧ request.answer ≠ .ok (.output ['x']) := by
  intro request
  let stored : Store := [("my var".toList, .value (.text ['x']))]
  have hstore : request.store = .ok stored := by rfl
  have hpass : Progress.pass (.plain ',') ⟨"[TEXT(my var)]".toList, []⟩ stored =
      (.ok (⟨"[TEXT(my var)]".toList, []⟩, some ⟨⟨0, 14⟩, "my var".toList⟩), stored) := by
    have hlisted : expressions ',' "[TEXT(my var)]".toList =
        [⟨.text, "my var".toList, [], "[TEXT(my var)]".toList, ⟨0, 14⟩⟩] :=
      EscapeCodec.findAll_eq_of_perm (by decide +kernel) (List.pairwise_singleton _ _)
    rw [Progress.pass_of_expressions hlisted]
    rfl
  have hlast : Progress.pass (.plain ',') ⟨"my var".toList, []⟩ stored =
      (.ok (⟨"my var".toList, []⟩, none), stored) := by
    rw [Progress.pass_of_expressions (expressions_of_not_mem (by decide) ',')]
    rfl
  have hprocess : process (.plain ',') 1024 "[TEXT(my var)]".toList stored = (.ok "my var".toList, stored) :=
    (Progress.resolve_of_substitution hpass).trans (Progress.resolve_of_none hlast)
  have hanswer : request.answer = .ok (.output "my var".toList) := by
    rw [Request.answer_eq rfl, hstore]
    change ((process (.plain ',') 1024 "[TEXT(my var)]".toList stored).1.mapError _).map _ = _
    rw [hprocess]
    rfl
  refine ⟨by decide +kernel, by decide, hanswer, ?_⟩
  rw [hanswer]
  decide

end SeedChain
