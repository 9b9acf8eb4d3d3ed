import SeedChain.Evaluator.Expression
/-!
# Arithmetic along lists of operands

An arithmetic operation reads all its operands before it uses the first. It makes no difference for the
number, nor for whether there is one, to read each of them when its turn comes (`toOption_readFirst`),
which is how a list is summed; only the reason of a failure may be another one. So a call with many
operands does what calls with some of them do one after the other (`runChain_parts`).

Main result: `arithmetic_folds`.
-/

namespace SeedChain.Decimal

variable {f : Decimal → Decimal → Except Reason Decimal} {name : String} {n : Decimal}
  {ts xs ys : List Text} {r r' : Except Reason Decimal}

/-! ## Reading and folding -/

/-- All operands are read before the first is used. -/
def readFirst (f : Decimal → Decimal → Except Reason Decimal) (n : Decimal) (ts : List Text) :
    Except Reason Decimal := do
  (← ts.mapM read).foldlM f n

/-- Each operand is read when it is used. -/
def readInTurn (f : Decimal → Decimal → Except Reason Decimal) (n : Decimal) (ts : List Text) :
    Except Reason Decimal :=
  ts.foldlM (fun n t => do f n (← read t)) n

theorem readInTurn_append (xs ys : List Text) :
    readInTurn f n (xs ++ ys) = (readInTurn f n xs).bind fun n => readInTurn f n ys :=
  List.foldlM_append

theorem toOption_readFirst (f : Decimal → Decimal → Except Reason Decimal) (n : Decimal)
    (ts : List Text) : (readFirst f n ts).toOption = (readInTurn f n ts).toOption := by
  induction ts generalizing n with
  | nil => rfl
  | cons t ts ih =>
    simp only [readFirst, readInTurn, List.mapM_cons, List.foldlM_cons, bind_assoc, pure_bind]
    cases read t with
    | error reason => rfl
    | ok d =>
      change ((ts.mapM read).bind fun ds => (f n d).bind fun n => ds.foldlM f n).toOption =
        ((f n d).bind fun n => readInTurn f n ts).toOption
      cases f n d with
      | error reason => cases ts.mapM read <;> rfl
      | ok next => exact ih next

/-! ## The operations -/

/-- The arithmetic operations. -/
def arithmetics : List (String × (Decimal → Decimal → Except Reason Decimal)) :=
  [("add", add), ("minus", minus), ("multiply", multiply), ("divide", divide)]

/-- The arguments that are operands. -/
def operandTexts (args : List Text) : List Text := args.filter fun t => !t.isBlank

/-- What an operation hands on. -/
def outcome (function : String) (r : Except Reason Decimal) : Outcome :=
  (argument function r).map fun d => some (.number d)

/-- The same number on both sides, or no number on either. -/
inductive SameNumber : Outcome → Outcome → Prop
  | number (d : Decimal) : SameNumber (goOn (.number d)) (goOn (.number d))
  | failed (error error' : EvalError) : SameNumber (.error error) (.error error')

theorem SameNumber.of_toOption {function function' : String} (h : r.toOption = r'.toOption) :
    SameNumber (outcome function r) (outcome function' r') := by
  cases r with
  | error reason =>
    cases r' with
    | error reason' => exact .failed _ _
    | ok d' => cases h
  | ok d =>
    cases r' with
    | error reason' => cases h
    | ok d' =>
      obtain rfl := Option.some.inj h
      exact .number d

theorem invoke_arithmetic (h : (name, f) ∈ arithmetics) (n : Decimal) (args : List Text)
    (delimiter : Char) (store : Store) :
    (Value.number n).invoke delimiter name.toList args store =
      (outcome name (readFirst f n (operandTexts args)), store) := by
  have hbody : (do
      let result ← argument name ((← argument name ((operandTexts args).mapM read)).foldlM f n)
      goOn (.number result)) = outcome name (readFirst f n (operandTexts args)) := by
    unfold readFirst
    cases hread : (operandTexts args).mapM read with
    | error reason => rfl
    | ok ds =>
      change (argument name (ds.foldlM f n)).bind (fun d => goOn (.number d)) =
        outcome name (ds.foldlM f n)
      cases ds.foldlM f n <;> rfl
  rw [← hbody]
  simp only [arithmetics, List.mem_cons, List.not_mem_nil, or_false, Prod.mk.injEq] at h
  rcases h with ⟨rfl, rfl⟩ | ⟨rfl, rfl⟩ | ⟨rfl, rfl⟩ | ⟨rfl, rfl⟩
  · rfl
  · rfl
  · rfl
  · rfl

theorem invoke_sum (l : ItemList) (delimiter : Char) (store : Store) :
    (Value.list l).invoke delimiter "sum".toList [] store =
      (outcome "sum" (readInTurn add zero (operandTexts l.items)), store) := by
  have hbody : (do
      let d ← argument "sum" (sum l.items)
      goOn (.number d)) = outcome "sum" (readInTurn add zero (operandTexts l.items)) := by
    change (argument "sum" (readInTurn add zero (operandTexts l.items))).bind
      (fun d => goOn (.number d)) = _
    cases readInTurn add zero (operandTexts l.items) <;> rfl
  rw [← hbody]
  rfl

/-! ## One call after the other -/

theorem operandTexts_append (xs ys : List Text) :
    operandTexts (xs ++ ys) = operandTexts xs ++ operandTexts ys := List.filter_append ..

/-- Calls with parts of the operands, one after the other, give what all the operands give. -/
theorem runChain_parts (h : (name, f) ∈ arithmetics) (parts : List (List Text)) (n : Decimal)
    (delimiter : Char) (store : Store) :
    ∃ r, runChain delimiter (parts.map (Invocation.call name.toList)) (.number n) store =
        (outcome name r, store) ∧
      r.toOption = (readInTurn f n (operandTexts parts.flatten)).toOption := by
  induction parts generalizing n with
  | nil => exact ⟨.ok n, rfl, rfl⟩
  | cons xs parts ih =>
    have hinvoke := invoke_arithmetic h n xs delimiter store
    have hturn := toOption_readFirst f n (operandTexts xs)
    rw [List.map_cons, runChain, List.flatten_cons, operandTexts_append, readInTurn_append]
    simp only [Invocation.call, hinvoke]
    cases hfirst : readFirst f n (operandTexts xs) with
    | error reason =>
      rw [hfirst] at hturn
      cases hparts : readInTurn f n (operandTexts xs) with
      | error reason' => exact ⟨.error reason, rfl, rfl⟩
      | ok d =>
        rw [hparts] at hturn
        cases hturn
    | ok d =>
      rw [hfirst] at hturn
      cases hparts : readInTurn f n (operandTexts xs) with
      | error reason' =>
        rw [hparts] at hturn
        cases hturn
      | ok d' =>
        rw [hparts] at hturn
        obtain rfl := Option.some.inj hturn
        exact ih d

/-- A call of an arithmetic operation gives the number that calls with a first part of its operands and
then with the others give, or neither gives one. The sum of a list is the number that adding its items to
zero gives, or neither gives one. Nothing is stored. -/
theorem arithmetic_folds (env : Environment) (store : Store) :
    (∀ name ∈ ["add", "minus", "multiply", "divide"], ∀ (n : Decimal) (xs ys : List Text),
      ∃ whole steps, SameNumber whole steps ∧
        (Value.number n).invoke env.delimiter name.toList (xs ++ ys) store = (whole, store) ∧
        runChain env.delimiter [.call name.toList xs, .call name.toList ys] (.number n) store =
          (steps, store)) ∧
    ∀ l : ItemList, ∃ zero total sum, Value.read env .number ['0'] = .ok zero ∧
      SameNumber total sum ∧
      (Value.list l).invoke env.delimiter "sum".toList [] store = (total, store) ∧
      zero.invoke env.delimiter "add".toList l.items store = (sum, store) := by
  constructor
  · intro name hname n xs ys
    obtain ⟨⟨_, f⟩, hop, rfl⟩ := List.mem_map.1 (show name ∈ arithmetics.map Prod.fst from hname)
    obtain ⟨r, hsteps, hr⟩ := runChain_parts hop [xs, ys] n env.delimiter store
    rw [List.flatten_cons, List.flatten_singleton, ← toOption_readFirst] at hr
    exact ⟨_, _, .of_toOption hr.symm, invoke_arithmetic hop n (xs ++ ys) env.delimiter store, hsteps⟩
  · intro l
    have hadd : ("add", add) ∈ arithmetics := List.mem_cons_self
    refine ⟨.number zero, _, _, rfl, ?_, invoke_sum l env.delimiter store,
      invoke_arithmetic hadd zero l.items env.delimiter store⟩
    exact .of_toOption (toOption_readFirst add zero _).symm

/-- A blank stands among the operands, and the quotient in between has a fraction. A list with a blank item
is summed. The greatest number can have nothing added, although the next operand would take it away again. -/
theorem arithmetic_folds_quotient_sum_overflow :
    let items : List Text := [['1', '.', '5'], [' '], ['-', '0', '.', '2', '5']]
    let total : Decimal := ⟨false, 125, 2, by decide, by decide⟩
    let greatest : Value := .number (ofInt (limit - 1))
    (Value.number (ofInt 10)).invoke ',' "divide".toList ([['4'], [' ']] ++ [['0', '.', '5']]) [] =
      (goOn (.number (ofInt 5)), []) ∧
    runChain ',' [.call "divide".toList [['4'], [' ']], .call "divide".toList [['0', '.', '5']]]
      (.number (ofInt 10)) [] = (goOn (.number (ofInt 5)), []) ∧
    (Value.list ⟨items, ','⟩).invoke ',' "sum".toList [] [] = (goOn (.number total), []) ∧
    (Value.number zero).invoke ',' "add".toList items [] = (goOn (.number total), []) ∧
    greatest.invoke ',' "add".toList ([['1']] ++ [['-', '1']]) [] =
      (refuse "add" .numericOverflow, []) ∧
    ∃ error, runChain ',' [.call "add".toList [['1']], .call "add".toList [['-', '1']]] greatest [] =
      (.error error, []) := by
  intro items total greatest
  obtain ⟨hcalls, hsums⟩ := arithmetic_folds (.plain ',') []
  have hquotient : (Value.number (ofInt 10)).invoke ',' "divide".toList
      ([['4'], [' ']] ++ [['0', '.', '5']]) [] = (goOn (.number (ofInt 5)), []) := by rfl
  have hsum : (Value.list ⟨items, ','⟩).invoke ',' "sum".toList [] [] = (goOn (.number total), []) := by rfl
  have hoverflow : greatest.invoke ',' "add".toList ([['1']] ++ [['-', '1']]) [] =
      (refuse "add" .numericOverflow, []) := by rfl
  refine ⟨hquotient, ?_, hsum, ?_, hoverflow, ?_⟩
  · obtain ⟨whole, steps, hsame, hwhole, hsteps⟩ := hcalls "divide" (by simp) (ofInt 10)
      [['4'], [' ']] [['0', '.', '5']]
    obtain rfl : goOn (.number (ofInt 5)) = whole := (Prod.mk.inj (hquotient.symm.trans hwhole)).1
    cases hsame with
    | number d => exact hsteps
  · obtain ⟨start, total', sum, hstart, hsame, htotal, hadd⟩ := hsums ⟨items, ','⟩
    obtain rfl : Value.number zero = start := Except.ok.inj hstart
    obtain rfl : goOn (.number total) = total' := (Prod.mk.inj (hsum.symm.trans htotal)).1
    cases hsame with
    | number d => exact hadd
  · obtain ⟨whole, steps, hsame, hwhole, hsteps⟩ := hcalls "add" (by simp) (ofInt (limit - 1))
      [['1']] [['-', '1']]
    obtain rfl : refuse "add" .numericOverflow = whole := (Prod.mk.inj (hoverflow.symm.trans hwhole)).1
    cases hsame with
    | failed _ error => exact ⟨error, hsteps⟩

end SeedChain.Decimal
