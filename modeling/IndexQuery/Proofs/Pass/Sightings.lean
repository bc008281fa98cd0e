import IndexQuery.Proofs.Expr.Readings
import IndexQuery.Proofs.Pass.FlatMapOutlines

/-! The paths that an expression reads, in the states in which a walk comes to them. -/

namespace IndexQuery.FlatMap.Plain

open Steps

/-- A path, and the state in which a walk comes to it. -/
structure Sighting where
  path : Path
  state : State

/-- What the path is called after the visit: as before, or as what it moves to if it is registered by
then. -/
def Sighting.renamed (sighting : Sighting) : Path :=
  sighting.state.renamed sighting.path

/-- A path that is read inside lambdas with the given parameters, each of these seen before it. -/
structure Sighted where
  target : Sighting
  parameters : List Sighting

namespace Sighted

/-- The same path seen inside one more lambda. -/
def inside (parameters : List Sighting) (sighted : Sighted) : Sighted where
  target := sighted.target
  parameters := parameters ++ sighted.parameters

/-- What is read there, whatever the states are. -/
def reading (sighted : Sighted) : Reading where
  target := sighted.target.path
  parameters := sighted.parameters.map Sighting.path

end Sighted

mutual

/-- The paths that a lambda parameter binds, as a walk from a state sees them. -/
def seenParameters : Tree → State → List Sighting
  | .path _ target, state => [{ path := target, state }]
  | .operation _ .wrapped _ args, state => seenParametersAll args state
  | .operation _ .list _ args, state => seenParametersAll args state
  | _, _ => []

/-- The paths that a list of lambda parameters binds, one visited after the other. -/
def seenParametersAll : List Tree → State → List Sighting
  | [], _ => []
  | first :: rest, state =>
    seenParameters first state ++ seenParametersAll rest (run (normalize first) state).2

end

mutual

/-- The paths that an expression reads, as a walk from a state sees them. -/
def sightings : Tree → State → List Sighted
  | .path _ target, state => [{ target := { path := target, state }, parameters := [] }]
  -- The parameter of a lambda is visited before its bodies.
  | .operation _ .lambda _ (parameter :: bodies), state =>
    (sightingsAll bodies (run (normalize parameter) state).2).map
      (.inside (seenParameters parameter state))
  -- What is summed is visited too, though it is not read.
  | .operation _ .sum _ (source :: summed :: rest), state =>
    sightings source state ++
      sightingsAll rest (run (normalize summed) (run (normalize source) state).2).2
  | .operation _ _ _ args, state => sightingsAll args state
  | .factory _ _ args, state => sightingsAll args state
  | .constant .., _ | .param .., _ | .subquery .., _ | .template .., _ => []

/-- The paths that a list of expressions reads, one visited after the other. -/
def sightingsAll : List Tree → State → List Sighted
  | [], _ => []
  | first :: rest, state =>
    sightings first state ++ sightingsAll rest (run (normalize first) state).2

end

/-- What is seen of the parameters of a list are the paths that they bind. -/
theorem map_path_seenParametersAll {exprs : List Tree}
    (each : ∀ expr ∈ exprs, ∀ state, (seenParameters expr state).map Sighting.path = expr.parameters)
    (state : State) :
    (seenParametersAll exprs state).map Sighting.path = exprs.flatMap Expr.parameters := by
  -- The state changes from member to member, and the paths do not depend on it.
  induction exprs generalizing state with
  | nil => rfl
  | cons first rest ih =>
    obtain ⟨head, tail⟩ := List.forall_mem_cons.mp each
    rw [seenParametersAll, List.map_append, head, ih tail, List.flatMap_cons]

/-- What is seen of a parameter are the paths that it binds. -/
theorem map_path_seenParameters (tree : Tree) (state : State) :
    (seenParameters tree state).map Sighting.path = tree.parameters := by
  -- Both look through wrappers and lists only, down to the paths.
  induction tree using Expr.induct generalizing state with
  | operation label operator type args ih =>
    have inside := map_path_seenParametersAll (fun arg member state => ih arg member state) state
    cases operator <;> simp [seenParameters, Expr.parameters, inside]
  | _ => simp [seenParameters, Expr.parameters]

/-- One more lambda around what is seen is one more lambda around what is read. -/
theorem reading_inside (parameters : List Sighting) (sighted : Sighted) :
    (sighted.inside parameters).reading =
      sighted.reading.inside (parameters.map Sighting.path) := by
  simp [Sighted.inside, Sighted.reading, Reading.inside]

/-- A walk sees what a list reads if it sees what each of the members reads. -/
theorem map_reading_sightingsAll {exprs : List Tree}
    (each : ∀ expr ∈ exprs, ∀ state, (sightings expr state).map Sighted.reading = expr.readings)
    (state : State) :
    (sightingsAll exprs state).map Sighted.reading = exprs.flatMap Expr.readings := by
  -- The state changes from member to member, and what is read does not depend on it.
  induction exprs generalizing state with
  | nil => rfl
  | cons first rest ih =>
    obtain ⟨head, tail⟩ := List.forall_mem_cons.mp each
    rw [sightingsAll, List.map_append, head, ih tail, List.flatMap_cons]

/-- What a walk sees of an operation that reads all arguments is what it sees of them. -/
theorem sightings_operation {operator : Operator} {type : ValueType} {args : List Tree}
    (all : Expr.readsAll operator args.length = true) (state : State) :
    sightings (.operation () operator type args) state = sightingsAll args state := by
  -- As for what is read, lambdas and sums are told from the others.
  obtain ⟨noLambda, noSum⟩ | rfl | ⟨source, rfl, rfl⟩ := Expr.readsAll_cases all
  · cases operator <;> simp_all only [sightings, ne_eq, not_true_eq_false, reduceCtorEq,
      not_false_eq_true]
  · cases operator <;> rfl
  · simp [sightings]

/-- What a walk sees is what the expression reads, in this order. -/
theorem map_reading_sightings (tree : Tree) (state : State) :
    (sightings tree state).map Sighted.reading = tree.readings := by
  -- The states change from argument to argument, so the state is general.
  induction tree using Expr.induct generalizing state with
  | operation label operator type args ih =>
    have inside {exprs : List Tree} (among : ∀ expr ∈ exprs, expr ∈ args) (state : State) :=
      map_reading_sightingsAll (fun expr member state => ih expr (among expr member) state) state
    obtain ⟨parameter, bodies, rfl, rfl⟩ | ⟨source, summed, rest, rfl, rfl⟩ | all :=
      Expr.operation_cases operator args
    · rw [sightings, List.map_map, Expr.readings_lambda, ← inside (by simp +contextual),
        List.map_map, ← map_path_seenParameters]
      exact List.map_congr_left fun sighted _ => reading_inside _ sighted
    · rw [sightings, List.map_append, Expr.readings_sum, ih source (by simp),
        inside (by simp +contextual), List.flatMap_cons]
    · rw [sightings_operation all, Expr.readings_operation all, inside (by simp)]
  | factory label type args ih =>
    rw [sightings, Expr.readings, Expr.readingsAll_eq_flatMap]
    exact map_reading_sightingsAll (fun arg member state => ih arg member state) state
  | _ => simp [sightings, Expr.readings, Sighted.reading]

/-- What a walk beside a pass sees is read in the node, as labels have no part in that. -/
theorem reading_of_sighting {node : Node} {state : State} {seen : Sighted}
    (wasSeen : seen ∈ sightings node.unlabel state) : seen.reading ∈ node.readings := by
  -- Leaving the states out of the sightings gives the readings.
  rw [← Expr.readings_unlabel, ← map_reading_sightings _ state]
  exact List.mem_map_of_mem wasSeen

/-- What a walk sees from one state to another: first the parameters around a path, then the path. -/
structure Sighted.Within (before : State) (sighted : Sighted) (after : State) : Prop where
  first : Grown before sighted.target.state
  last : Grown sighted.target.state after
  around : ∀ parameter ∈ sighted.parameters, Grown parameter.state sighted.target.state

namespace Sighted.Within

variable {before before' after after' : State} {sighted : Sighted}

/-- What is seen in a part of a walk is seen in all of it. -/
theorem widen (within : sighted.Within before' after') (earlier : Grown before before')
    (later : Grown after' after) : sighted.Within before after :=
  ⟨earlier.trans within.first, within.last.trans later, within.around⟩

/-- Parameters that have been seen before a path can stand around it. -/
theorem inside (within : sighted.Within before after) {parameters : List Sighting}
    (earlier : ∀ parameter ∈ parameters, Grown parameter.state before) :
    (sighted.inside parameters).Within before after := by
  -- The parameters of the lambda were seen before the bodies, and those inside come after.
  refine ⟨within.first, within.last, fun parameter member => ?_⟩
  rcases List.mem_append.mp member with isNew | isOld
  · exact (earlier parameter isNew).trans within.first
  · exact within.around parameter isOld

end Sighted.Within

end IndexQuery.FlatMap.Plain
