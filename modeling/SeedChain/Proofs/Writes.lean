import SeedChain.Proofs.Runs
/-!
# What a run writes to the store

Of all operations only `store` writes, and only when it is given a name that is not blank. So the
store after a call is the store before it with the writes of the call (`Value.invoke_store`), and the
same holds of a chain, of an evaluation, and of a run with all its evaluations
(`runChain_store`, `Expression.evaluate_store`, `Reaches.store_eq`).
-/

namespace SeedChain

/-- A value that is kept under a name. -/
structure Write where
  name : Text
  value : Value

namespace Store

def apply (store : Store) (w : Write) : Store := Entries.set w.name (.value w.value) store

/-- The store after some writes, made in order. -/
def applyAll (ws : List Write) (store : Store) : Store := ws.foldl apply store

@[simp]
theorem applyAll_nil (store : Store) : applyAll [] store = store := rfl

theorem applyAll_append (vs ws : List Write) (store : Store) :
    applyAll (vs ++ ws) store = applyAll ws (applyAll vs store) :=
  List.foldl_append

end Store

/-! ## Calls -/

namespace Operation

variable {α : Type}

/-- What an operation writes once it runs. -/
def runWrites (op : Operation α) (v : Value) (args : Args) : List Write :=
  match op.action with
  | .store =>
    let name := (args.getD 0 []).trim
    if name = [] then [] else [⟨name, v⟩]
  | _ => []

/-- What a call of one of some operations writes: an unknown name and too many arguments run none. -/
def writes (operations : List (Operation α)) (v : Value) (name : Text) (args : List Text) :
    List Write :=
  match find? operations name with
  | none => []
  | some op =>
    if op.arity.accepts args.length then op.runWrites v (Args.bind op.arity args) else []

theorem run_store (op : Operation α) (delimiter : Char) (v : Value) (x : α) (args : Args)
    (store : Store) :
    (op.run delimiter v x args store).2 = Store.applyAll (op.runWrites v args) store := by
  unfold run runWrites
  cases op.action with
  | store =>
    by_cases hname : (args.getD 0 []).trim = []
    · simp only [keep, hname, if_true, Store.applyAll_nil]
    · simp only [keep, hname, if_false]
      rfl
  | text => rfl
  | compute body => rfl

theorem call_store (operations : List (Operation α)) (delimiter : Char) (v : Value) (x : α)
    (name : Text) (args : List Text) (store : Store) :
    (call operations delimiter v x name args store).2 =
      Store.applyAll (writes operations v name args) store := by
  unfold call writes
  cases find? operations name with
  | none => rfl
  | some op =>
    simp only
    split
    · exact op.run_store delimiter v x _ store
    · rfl

end Operation

/-- What a call on a value writes. -/
def Value.writes (v : Value) (name : Text) (args : List Text) : List Write :=
  v.keyword.withOperations fun operations => Operation.writes operations v name args

theorem Value.invoke_store (delimiter : Char) (v : Value) (name : Text) (args : List Text)
    (store : Store) :
    (v.invoke delimiter name args store).2 = Store.applyAll (v.writes name args) store := by
  cases v with
  | external result =>
    obtain ⟨keyword, data, error, hexternal⟩ := result
    -- the external types share a table of operations, and no other keyword is external
    cases keyword <;> first | exact Operation.call_store .. | cases hexternal
  | _ => exact Operation.call_store ..

/-! ## Chains and evaluations -/

/-- What the calls of a chain write that are made before it ends. -/
def chainWrites (delimiter : Char) : List Invocation → Value → Store → List Write
  | [], _, _ => []
  | call :: calls, v, store =>
    v.writes call.name call.args ++
      match v.invoke delimiter call.name call.args store with
      | (.ok (some next), store) => chainWrites delimiter calls next store
      | _ => []

theorem runChain_store (delimiter : Char) (calls : List Invocation) (v : Value) (store : Store) :
    (runChain delimiter calls v store).2 =
      Store.applyAll (chainWrites delimiter calls v store) store := by
  induction calls generalizing v store with
  | nil => rfl
  | cons call calls ih =>
    have hcall := v.invoke_store delimiter call.name call.args store
    rw [runChain, chainWrites, Store.applyAll_append, ← hcall]
    -- a call that ends the chain writes last
    rcases v.invoke delimiter call.name call.args store with ⟨_ | _ | next, after⟩
    · rfl
    · rfl
    · exact ih next after

/-- What the evaluation of an expression writes. -/
def Expression.writes (env : Environment) (e : Expression) (store : Store) : List Write :=
  match build env e.keyword e.seed store with
  | .ok seed => chainWrites env.delimiter e.invocations seed store
  | .error _ => []

theorem Expression.evaluate_store (env : Environment) (e : Expression) (store : Store) :
    (e.evaluate env store).2 = Store.applyAll (e.writes env store) store := by
  unfold Expression.evaluate Expression.writes
  cases build env e.keyword e.seed store with
  | error => rfl
  | ok seed => exact runChain_store env.delimiter e.invocations seed store

/-- Only calls write. -/
theorem Expression.writes_eq_nil {e : Expression} (h : e.invocations = []) (env : Environment)
    (store : Store) : e.writes env store = [] := by
  unfold Expression.writes
  rw [h]
  cases build env e.keyword e.seed store <;> rfl

/-! ## Runs -/

/-- What an evaluation of a run writes. -/
def Evaluation.writes (env : Environment) (v : Evaluation) : List Write :=
  v.expression.writes env v.store

variable {env : Environment} {limit : Nat} {t : Text} {store : Store} {m : Moment}
  {vs : List Evaluation} {v : Evaluation} {rest : List Expression} {after : Store}

theorem Moment.Evaluates.store_eq (h : m.Evaluates env v rest after) :
    after = Store.applyAll (v.writes env) m.store := by
  have hstore := v.expression.evaluate_store env m.store
  rw [h.outcome] at hstore
  rw [Evaluation.writes, h.store]
  exact hstore

/-- At every moment the store holds what was written so far. -/
theorem Reaches.store_eq (h : Reaches env limit t store m vs) :
    m.store = Store.applyAll (vs.flatMap (Evaluation.writes env)) store := by
  have step {us : List Evaluation} {m : Moment} {v : Evaluation} {rest : List Expression}
      {after : Store} (hv : m.Evaluates env v rest after)
      (ih : m.store = Store.applyAll (us.flatMap (Evaluation.writes env)) store) :
      after = Store.applyAll ((us ++ [v]).flatMap (Evaluation.writes env)) store := by
    rw [hv.store_eq, ih, List.flatMap_append, Store.applyAll_append, List.flatMap_singleton]
  induction h with
  | start => rfl
  | passOver _ _ _ ih => exact ih
  | settle _ hv _ ih => exact step hv ih
  | substitute _ hv _ _ ih => exact step hv ih

end SeedChain
