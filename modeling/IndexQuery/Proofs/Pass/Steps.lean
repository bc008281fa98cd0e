import IndexQuery.Pass.Context

/-! How runs of steps that may fail are put together from the runs of their parts. -/

namespace IndexQuery

namespace Steps

variable {Fault State α β : Type}

/-- The outcome of a run from a state, and the state in which it ends. -/
def run (steps : ExceptT Fault (StateM State) α) (state : State) : Except Fault α × State :=
  steps state

/-- What comes after a step sees its result and its state, and a failure ends the run. -/
theorem run_bind (first : ExceptT Fault (StateM State) α)
    (next : α → ExceptT Fault (StateM State) β) (state : State) :
    run (first >>= next) state =
      match run first state with
      | (.ok value, after) => run (next value) after
      | (.error fault, after) => (.error fault, after) := by
  -- The outcome decides which of the two continuations of the transformer runs.
  show (match (run first state).1 with
    | .ok value => next value
    | .error fault => (pure (.error fault) : StateM State (Except Fault β))) (run first state).2 = _
  rcases run first state with ⟨_ | _, after⟩ <;> rfl

/-- A run of two steps succeeds when both do, the second from where the first ended. -/
theorem run_bind_ok {first : ExceptT Fault (StateM State) α}
    {next : α → ExceptT Fault (StateM State) β} {state after : State} {result : β} :
    run (first >>= next) state = (.ok result, after) ↔
      ∃ value between, run first state = (.ok value, between) ∧
        run (next value) between = (.ok result, after) := by
  -- A failure of the first steps is one of all.
  rw [run_bind]
  rcases run first state with ⟨fault | value, between⟩
  · simp
  · simp [and_assoc]

@[simp] theorem run_pure (value : α) (state : State) :
    run (pure value : ExceptT Fault (StateM State) α) state = (.ok value, state) := rfl

@[simp] theorem run_throw (fault : Fault) (state : State) :
    run (throw fault : ExceptT Fault (StateM State) α) state = (.error fault, state) := rfl

@[simp] theorem run_get (state : State) :
    run (get : ExceptT Fault (StateM State) State) state = (.ok state, state) := rfl

@[simp] theorem run_modify (step : State → State) (state : State) :
    run (modify step : ExceptT Fault (StateM State) PUnit) state = (.ok ⟨⟩, step state) := rfl

@[simp] theorem run_lift (outcome : Except Fault α) (state : State) :
    run (liftM outcome : ExceptT Fault (StateM State) α) state = (outcome, state) := rfl

/-- The result of a run and the state in which it ends, if it succeeds. -/
def attempt (steps : ExceptT Fault (StateM State) α) (state : State) : Option (α × State) :=
  match run steps state with
  | (.ok value, after) => some (value, after)
  | (.error _, _) => none

/-- An attempt at two steps succeeds when both do, the second from where the first ended. -/
@[simp] theorem attempt_bind (first : ExceptT Fault (StateM State) α)
    (next : α → ExceptT Fault (StateM State) β) (state : State) :
    attempt (first >>= next) state =
      (attempt first state).bind fun ran => attempt (next ran.1) ran.2 := by
  -- A first step that fails hides the second one, and the fault is forgotten either way.
  rw [attempt, run_bind, attempt]
  rcases run first state with ⟨_ | _, after⟩ <;> rfl

@[simp] theorem attempt_pure (value : α) (state : State) :
    attempt (pure value : ExceptT Fault (StateM State) α) state = some (value, state) := rfl

@[simp] theorem attempt_throw (fault : Fault) (state : State) :
    attempt (throw fault : ExceptT Fault (StateM State) α) state = none := rfl

@[simp] theorem attempt_get (state : State) :
    attempt (get : ExceptT Fault (StateM State) State) state = some (state, state) := rfl

/-- An attempt that succeeds is what the run gives. -/
theorem run_of_attempt_some {steps : ExceptT Fault (StateM State) α} {state after : State}
    {value : α} (found : attempt steps state = some (value, after)) :
    run steps state = (.ok value, after) := by
  unfold attempt at found
  split at found
  -- The pair that is found is the one that the run gave.
  · rename_i ran
    cases found
    exact ran
  · cases found

/-- An attempt that fails is a run that ends in a fault. -/
theorem run_of_attempt_none {steps : ExceptT Fault (StateM State) α} {state : State}
    (failed : attempt steps state = none) : ∃ fault, (run steps state).1 = .error fault := by
  -- An attempt forgets which error it was.
  unfold attempt at failed
  split at failed
  · cases failed
  · rename_i fault after ran
    exact ⟨fault, by rw [ran]⟩

/-- Two checks in a row succeed when both do. -/
theorem except_bind_ok {first : Except Fault α} {next : α → Except Fault β} {result : β} :
    first >>= next = .ok result ↔ ∃ value, first = .ok value ∧ next value = .ok result := by
  cases first with
  | error fault => simp [Bind.bind, Except.bind]
  | ok value => simp [Bind.bind, Except.bind]

/-- Two checks in a row fail when the first does, or when the second does on what the first gives. -/
theorem except_bind_error {first : Except Fault α} {next : α → Except Fault β} {fault : Fault} :
    first >>= next = .error fault ↔
      first = .error fault ∨ ∃ value, first = .ok value ∧ next value = .error fault := by
  cases first with
  | error fault => simp [Bind.bind, Except.bind]
  | ok value => simp [Bind.bind, Except.bind]

/-- A success that has a property is a result that has it. -/
theorem exists_of_any {outcome : Except Fault α} {holds : α → Bool}
    (succeeds : outcome.toOption.any holds = true) :
    ∃ result, outcome = .ok result ∧ holds result = true := by
  -- An outcome of which something holds is no failure.
  cases outcome with
  | error fault => simp [Except.toOption] at succeeds
  | ok result =>
    refine ⟨result, rfl, ?_⟩
    simpa [Except.toOption] using succeeds

end Steps

namespace PassM

open Steps

variable {α : Type}

@[simp] theorem run_change (step : Context → α × Context) (context : Context) :
    run (change step) context = (.ok (step context).1, (step context).2) := rfl

/-- Isolated steps run with a cleared flag, and their flag is merged into the earlier one. -/
theorem run_isolated (steps : PassM α) (context : Context) :
    run (isolated steps) context =
      match run steps { context with replaced := false } with
      | (.ok result, after) =>
        (.ok (result, after.replaced),
          { after with replaced := context.replaced || after.replaced })
      | (.error fault, after) => (.error fault, after) := by
  -- Entering clears the flag, and leaving is skipped by a failure.
  simp only [isolated, run_bind, run_change, Context.enter]
  rcases run steps { context with replaced := false } with ⟨_ | _, after⟩ <;> rfl

/-- Isolated steps succeed when the steps do, with a cleared flag. -/
theorem run_isolated_ok {steps : PassM α} {context after : Context} {result : α} {dirty : Bool} :
    run (isolated steps) context = (.ok (result, dirty), after) ↔
      ∃ inner, run steps { context with replaced := false } = (.ok result, inner) ∧
        dirty = inner.replaced ∧
        after = { inner with replaced := context.replaced || inner.replaced } := by
  -- A failure of the steps is handed on, and otherwise the flag is merged back.
  rw [run_isolated]
  rcases run steps { context with replaced := false } with ⟨fault | found, inner⟩
  · simp
  · simp [and_assoc, eq_comm]

/-- A visited node is on the stack during the visit only. -/
theorem run_visiting (node : Node) (steps : PassM α) (context : Context) :
    run (visiting node steps) context =
      ((run steps (context.push node)).1, (run steps (context.push node)).2.pop.2) := rfl

/-- A visit succeeds when the steps do, with the node on the stack. -/
theorem run_visiting_ok {node : Node} {steps : PassM α} {context after : Context} {result : α} :
    run (visiting node steps) context = (.ok result, after) ↔
      ∃ inner, run steps (context.push node) = (.ok result, inner) ∧ after = inner.pop.2 := by
  -- The node leaves the stack whatever the outcome is.
  rw [run_visiting]
  rcases run steps (context.push node) with ⟨outcome, inner⟩
  constructor
  · rintro ⟨⟩
    exact ⟨inner, rfl, rfl⟩
  · rintro ⟨_, ⟨⟩, rfl⟩
    rfl

/-- Isolated steps are attempted with a cleared flag, which is merged into the earlier one. -/
theorem attempt_isolated (steps : PassM α) (context : Context) :
    attempt (isolated steps) context =
      (attempt steps { context with replaced := false }).map fun (result, after) =>
        ((result, after.replaced),
          { after with replaced := context.replaced || after.replaced }) := by
  -- Whether the steps fail or not, the flag is only touched around them.
  rw [attempt, run_isolated, attempt]
  rcases run steps { context with replaced := false } with ⟨_ | _, after⟩ <;> rfl

/-- A visited node is on the stack during the attempt only. -/
theorem attempt_visiting (node : Node) (steps : PassM α) (context : Context) :
    attempt (visiting node steps) context =
      (attempt steps (context.push node)).map fun (result, after) => (result, after.pop.2) := by
  -- The node is pushed before the steps and taken off after them.
  rw [attempt, run_visiting, attempt]
  rcases run steps (context.push node) with ⟨_ | _, after⟩ <;> rfl

end PassM

end IndexQuery
