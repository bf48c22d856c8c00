import QuadStore.Join

/-!
# The rows of a query

The rows of a query come one at a time.  The last candidate set of a join is read only as far as
rows are asked for, so a failure may come after some rows; what happens then is the policy's
choice, and either way nothing comes after it.

A query without patterns has one row, which binds nothing.

## Main definitions

* `Solutions`, `Solutions.next`, `Solutions.take`.
* `Evaluation.run`: the solutions of a query.
-/

namespace QuadStore

/-- Where solutions stand. -/
inductive SolutionStage where
  /-- The one row of the query without patterns is still to come. -/
  | unit
  /-- These candidates of a pattern are still to be read. -/
  | rows (pattern : TriplePattern) (candidates : List Match)
  /-- Nothing more will come. -/
  | done
  deriving Repr

/-- The rows of a query that are still to come, and the work done so far. -/
structure Solutions where
  stage : SolutionStage
  arena : Arena
  policy : FailurePolicy
  stats : EvaluationStats

namespace Solutions

variable {σ : Type}

/-- No rows. -/
def none (policy : FailurePolicy) (stats : EvaluationStats) : Solutions :=
  ⟨.done, Arena.empty, policy, stats⟩

/-- The number of nodes that bindings took. -/
def allocated (solutions : Solutions) : Nat := solutions.arena.size

/-- The solutions after a row was given out. -/
def emit (solutions : Solutions) : Solutions :=
  { solutions with stats.bindingsEmitted := solutions.stats.bindingsEmitted + 1 }

/-- The first row of these candidates, or the end, or a failure.  A candidate that does not match
its pattern gives no row. -/
def nextRow (source : RecordSource σ) (pattern : TriplePattern) :
    List Match → Solutions → σ → Option (Except PatternFailure Binding) × Solutions × σ
  | [], solutions, state => (Option.none, { solutions with stage := .done }, state)
  | candidate :: rest, solutions, state =>
    match source.readTriple candidate.record state with
    | (.error fault, state) =>
      let ended := { solutions with stage := .done }
      match solutions.policy with
      | .failOpen => (Option.none, ended, state)
      | .failClosed => (some (.error ⟨pattern, fault⟩), ended, state)
    | (.ok triple, state) =>
      match solutions.arena.bind candidate.parent pattern triple with
      | Option.none => nextRow source pattern rest solutions state
      | some (handle, arena) =>
        (some (.ok (arena.materialize (some handle))),
          { solutions with stage := .rows pattern rest, arena }.emit, state)

/-- One step: the next row, a failure, or nothing at the end. -/
def next (source : RecordSource σ) (solutions : Solutions) (state : σ) :
    Option (Except PatternFailure Binding) × Solutions × σ :=
  match solutions.stage with
  | .done => (Option.none, solutions, state)
  | .unit => (some (.ok ⟨[]⟩), { solutions with stage := .done }.emit, state)
  | .rows pattern candidates => nextRow source pattern candidates solutions state

/-- No more steps than this are left before the end. -/
def bound (solutions : Solutions) : Nat :=
  match solutions.stage with
  | .done => 1
  | .unit => 2
  | .rows _ candidates => candidates.length + 1

/-- The items of at most `count` steps, and the solutions after them; it stops early at the
end. -/
def take (source : RecordSource σ) :
    Nat → Solutions → σ → List (Except PatternFailure Binding) × Solutions × σ
  | 0, solutions, state => ([], solutions, state)
  | count + 1, solutions, state =>
    match solutions.next source state with
    | (Option.none, solutions, state) => ([], solutions, state)
    | (some item, solutions, state) =>
      let (items, solutions, state) := take source count solutions state
      (item :: items, solutions, state)

/-- All items. -/
def drain (source : RecordSource σ) (solutions : Solutions) (state : σ) :
    List (Except PatternFailure Binding) × Solutions × σ :=
  solutions.take source solutions.bound state

end Solutions

namespace Evaluation

variable {σ : Type}

/-- The solutions of a query and the state of its source and of the language cache afterwards.  A
failure gives no rows where the policy says so; there is no result if a scan of the source runs out
of fuel. -/
def run (evaluation : Evaluation σ) (constraints : List Constraint)
    (patterns : List TriplePattern) (languages : LanguageCache) (source : σ) :
    Option (Except PatternFailure Solutions) × LanguageCache × σ :=
  if patterns.isEmpty then
    (some (.ok { Solutions.none evaluation.policy .zero with stage := .unit }), languages, source)
  else
    let (outcome, state) := evaluation.join constraints patterns
      ⟨source, languages, Arena.empty, .zero⟩
    let result := match outcome with
      | .ok (some pivot) =>
        some (.ok ⟨.rows pivot.pattern pivot.candidates, state.arena, evaluation.policy,
          state.stats⟩)
      | .ok Option.none => some (.ok (Solutions.none evaluation.policy state.stats))
      | .error (.failed failure) =>
        match evaluation.policy with
        | .failOpen => some (.ok (Solutions.none evaluation.policy state.stats))
        | .failClosed => some (.error failure)
      | .error .outOfFuel => Option.none
    (result, state.languages, state.source)

end Evaluation

end QuadStore
