import QuadStore.CandidateSet.Sharing
import QuadStore.Scan

/-!
# Joining the patterns of a query

A query is a list of triple patterns and a list of constraints on their variables.  Its evaluation
first resolves every pattern on its own; if one has no candidates, nothing can match and the
patterns after it are not asked for.  The candidate sets are then put in order, the smallest first
and ties as in the query, and joined level by level: each candidate of the current set is read and
bound, and the next pattern is resolved again under that binding.  A pattern that shares no
variable with the binding keeps the candidates it had.  What the last set yields is left to
`Solutions`, which reads it one row at a time.

Constraints only restrict what a pattern may match while a variable is still open; a variable that
is bound is asked for by its exact term.

An evaluation needs its source to end every scan.  How many steps a scan may take is the `fuel` of
the evaluation; one that runs out of it has no result.

## Main definitions

* `Evaluation`: a graph, a source, and how to go about it.
* `Evaluation.resolve`, `Evaluation.joinLevel`, `Evaluation.join`: the steps above.
* `Arena.bind`: the extension of a binding by a statement that a pattern matches.
-/

namespace QuadStore

/-- What to do when a pattern cannot be resolved: report it, or answer with no rows. -/
inductive FailurePolicy where
  | failOpen
  | failClosed
  deriving DecidableEq, Repr, Inhabited

/-- The word for a policy. -/
def FailurePolicy.name : FailurePolicy → String
  | failOpen => "fail_open"
  | failClosed => "fail_closed"

/-- The policy with a name. -/
def FailurePolicy.ofName? (name : String) : Option FailurePolicy :=
  [failOpen, failClosed].find? (·.name = name)

/-- A pattern that could not be resolved, and why. -/
structure PatternFailure where
  pattern : TriplePattern
  cause : QueryError
  deriving DecidableEq, Repr

/-- The wording of a failure. -/
def PatternFailure.message (failure : PatternFailure) : String :=
  "Unable to resolve triple pattern '" ++ failure.pattern.display ++ "': " ++
    failure.cause.message

/-- The work done for a query. -/
structure EvaluationStats where
  patternsResolved : Nat
  joinProbes : Nat
  bindingsEmitted : Nat
  deriving DecidableEq, Repr

/-- No work yet. -/
def EvaluationStats.zero : EvaluationStats := ⟨0, 0, 0⟩

/-! ## Binding -/

/-- The values that a pattern's open variables take in a statement, given the slots still to be
looked at and the values found so far.  A variable that occurs twice must find the same term. -/
def collectValues (isBound : Variable → Bool) (triple : Triple) :
    List (Position × Slot) → Assignments → Option Assignments
  | [], values => some values
  | (_, .term _) :: rest, values => collectValues isBound triple rest values
  | (position, .var v) :: rest, values =>
    match values.lookup v with
    | some earlier =>
      if earlier = triple.at position then collectValues isBound triple rest values else none
    | none =>
      if isBound v then collectValues isBound triple rest values
      else collectValues isBound triple rest (values ++ [(v, triple.at position)])

/-- A new binding below `parent` with the values of a pattern's open variables in a statement, or
nothing if the statement gives a repeated variable two terms. -/
def Arena.bind (arena : Arena) (parent : Option Handle) (pattern : TriplePattern)
    (triple : Triple) : Option (Handle × Arena) :=
  (collectValues (fun v => (arena.lookup parent v).isSome) triple pattern.slots []).map
    (arena.extend parent)

/-! ## Evaluation -/

/-- How a query is evaluated. -/
structure Evaluation (σ : Type) where
  source : RecordSource σ
  graph : GraphName
  pageLength : Nat
  order : SortOrder
  policy : FailurePolicy
  /-- The greatest number of steps of a scan. -/
  fuel : Nat

/-- What an evaluation changes as it goes. -/
structure JoinState (σ : Type) where
  source : σ
  languages : LanguageCache
  arena : Arena
  stats : EvaluationStats

/-- Why an evaluation stops before its end. -/
inductive Halt where
  | failed (failure : PatternFailure)
  /-- A scan took more steps than it may. -/
  | outOfFuel
  deriving DecidableEq, Repr

/-- A step of an evaluation. -/
abbrev JoinM (σ : Type) := ExceptT Halt (StateM (JoinState σ))

namespace JoinM

variable {σ α : Type}

/-- Runs a computation that builds predicates for a pattern. -/
def building (pattern : TriplePattern) (computation : Building α) : JoinM σ α := fun state =>
  match computation state.languages with
  | (.ok value, languages) => (.ok value, { state with languages })
  | (.error fault, languages) => (.error (.failed ⟨pattern, .filter fault⟩), { state with languages })

/-- Asks the source something on behalf of a pattern. -/
def asking (pattern : TriplePattern) (question : σ → Except QueryError α × σ) : JoinM σ α :=
  fun state =>
    match question state.source with
    | (.ok value, source) => (.ok value, { state with source })
    | (.error fault, source) => (.error (.failed ⟨pattern, fault⟩), { state with source })

/-- Runs a scan on behalf of a pattern. -/
def scanning (pattern : TriplePattern) (scan : σ → Option (Except QueryError α) × σ) : JoinM σ α :=
  fun state =>
    match scan state.source with
    | (some (.ok value), source) => (.ok value, { state with source })
    | (some (.error fault), source) => (.error (.failed ⟨pattern, fault⟩), { state with source })
    | (none, source) => (.error .outOfFuel, { state with source })

end JoinM

/-- The predicates that the constraints put on an open variable at a position. -/
def variablePredicates (constraints : List Constraint) (position : Position) (v : Variable) :
    Building (List Predicate) := do
  let found ← (constraints.filter (·.var = v)).mapM (constraintPredicates position)
  return found.flatten

/-- The predicates that the constraints put on the open variables of a pattern. -/
def openPredicates (constraints : List Constraint) (lookup : Variable → Option Term)
    (pattern : TriplePattern) : Building (List Predicate) := do
  let found ← pattern.slots.mapM fun (position, slot) =>
    match slot with
    | .term _ => return []
    | .var v => if (lookup v).isSome then return [] else variablePredicates constraints position v
  return found.flatten

/-- All predicates of a pattern under a binding. -/
def queryPredicates (graph : GraphName) (constraints : List Constraint) (pattern : TriplePattern)
    (lookup : Variable → Option Term) : Building (List Predicate) := do
  let own ← patternPredicates graph pattern lookup
  let constrained ← openPredicates constraints lookup pattern
  return own ++ constrained

namespace Evaluation

variable {σ : Type} (evaluation : Evaluation σ) (constraints : List Constraint)

/-- The records that a pattern may match under a binding. -/
def resolve (pattern : TriplePattern) (binding : Option Handle) : JoinM σ (List RecordId) := do
  let arena := (← get).arena
  let filters ← JoinM.building pattern
    (queryPredicates evaluation.graph constraints pattern (arena.lookup binding))
  let scan := Scan.start filters evaluation.pageLength evaluation.order false
  JoinM.scanning pattern (scan.recordIds evaluation.source evaluation.fuel)

/-- Counts a resolved pattern. -/
def countPattern : JoinM σ Unit :=
  modify fun state =>
    { state with stats.patternsResolved := state.stats.patternsResolved + 1 }

/-- Counts a pattern resolved again under a binding. -/
def countProbe : JoinM σ Unit :=
  modify fun state => { state with stats.joinProbes := state.stats.joinProbes + 1 }

/-- The candidates of every pattern, or nothing as soon as one has none. -/
def resolveAll : List TriplePattern → JoinM σ (Option (List Leaf))
  | [] => return some []
  | pattern :: rest => do
    let records ← evaluation.resolve constraints pattern none
    countPattern
    if records.isEmpty then return none
    else return (← resolveAll rest).map (⟨pattern, records, none⟩ :: ·)

/-- Reads a candidate and binds it: a new node of the arena, unless the statement does not match
the pattern. -/
def bindMatch (pattern : TriplePattern) (candidate : Match) : JoinM σ (Option Handle) := do
  let triple ← JoinM.asking pattern (evaluation.source.readTriple candidate.record)
  match (← get).arena.bind candidate.parent pattern triple with
  | none => return none
  | some (handle, arena) =>
    modify fun state => { state with arena }
    return some handle

/-- The candidates of the next pattern under a new binding: resolved again if they share a
variable, and otherwise those that the pattern had. -/
def extendLeaf (next : Leaf) (binding : Handle) : JoinM σ Leaf := do
  let arena := (← get).arena
  if next.pattern.vars.any fun v => (arena.lookup (some binding) v).isSome then
    countProbe
    let records ← evaluation.resolve constraints next.pattern (some binding)
    return ⟨next.pattern, records, some binding⟩
  else return next.withParent (some binding)

/-- The candidates of the next pattern under every binding that the current set yields. -/
def joinLevel (pattern : TriplePattern) (next : Leaf) :
    List Match → Composite → JoinM σ Composite
  | [], composite => return composite
  | candidate :: rest, composite => do
    match ← evaluation.bindMatch pattern candidate with
    | none => joinLevel pattern next rest composite
    | some binding =>
      let leaf ← evaluation.extendLeaf constraints next binding
      joinLevel pattern next rest (composite.add leaf)

/-- Joins the remaining sets to a set, or gives nothing as soon as a level is empty. -/
def joinRest : CandidateSet → List Leaf → JoinM σ (Option CandidateSet)
  | pivot, [] => return some pivot
  | pivot, next :: rest => do
    let composite ← evaluation.joinLevel constraints pivot.pattern next pivot.candidates
      (Composite.empty next.pattern)
    if composite.size = 0 then return none
    else joinRest (.composite composite) rest

/-- The candidate sets with the smallest first; those of one size stay in order. -/
def joinOrder (leaves : List Leaf) : List Leaf :=
  leaves.mergeSort fun a b => a.size ≤ b.size

/-- The candidates of the last pattern under the bindings of all others, or nothing if it is known
that no row will come. -/
def join (patterns : List TriplePattern) : JoinM σ (Option CandidateSet) := do
  match ← evaluation.resolveAll constraints patterns with
  | none => return none
  | some leaves =>
    match joinOrder leaves with
    | [] => return none
    | first :: rest => evaluation.joinRest constraints (.leaf first) rest

end Evaluation

end QuadStore
