import QuadStore.Index
import QuadStore.Config
import QuadStore.Solutions

/-!
# The store

A store shows the records that were last committed and collects changes for the next commit.  A
record that is added takes the place of one with the same identifier; deleting affects all records
that were added before, whether they are committed or not.

Only one store at a time may write to an index; any other is read-only and keeps showing what was
committed when it was opened.

## Main definitions

* `Store`, `Store.create`, `StoreError`.
* `Store.add`, `Store.delete`, `Store.clear`, `Store.clearAll`, `Store.commit`: changes.
* `Store.find`, `Store.count`, `Store.contains`, `Store.graphNames`, `Store.query`: questions.
-/

namespace QuadStore

/-- Why a store cannot do something. -/
inductive StoreError where
  /-- The index cannot be written with this configuration. -/
  | index
  /-- The directory of the index cannot be used. -/
  | io
  | readOnly
  | query (fault : QueryError)
  | resolution (failure : PatternFailure)
  deriving DecidableEq, Repr

/-- The wording of a fault. -/
def StoreError.message : StoreError → String
  | index => "Index error"
  | io => "I/O error"
  | readOnly => "Index is open in read-only mode"
  | query fault => fault.message
  | resolution failure => failure.message

/-- The changes since the last commit. -/
structure Writer where
  /-- The committed segments, without the records deleted since. -/
  image : Index
  /-- The segment of the records added since, without those deleted again. -/
  pending : Segment
  /-- The place of the next record in the pending segment. -/
  nextDoc : Nat
  deriving Repr

namespace Writer

/-- A writer with no changes. -/
def on (image : Index) : Writer := ⟨image, ⟨[], []⟩, 0⟩

/-- Deletes the records that satisfy a condition, committed or not. -/
def erase (writer : Writer) (condition : Record → Bool) : Writer :=
  { writer with image := writer.image.erase condition, pending := writer.pending.erase condition }

/-- Writes a record in place of the one with its identifier. -/
def add (writer : Writer) (record : Record) : Writer :=
  let rest := writer.erase fun old => old.id == record.id
  { rest with
    pending :=
      { graphs := Segment.addGraph rest.pending.graphs record.graph
        records := rest.pending.records ++ [(rest.nextDoc, record)] }
    nextDoc := rest.nextDoc + 1 }

/-- Deletes all committed segments.  What was added since the last commit stays. -/
def clearAll (writer : Writer) : Writer := { writer with image := .empty }

/-- The index with all changes. -/
def committed (writer : Writer) : Index :=
  Index.compact ⟨writer.image.segments ++ [writer.pending]⟩

end Writer

/-- A store. -/
structure Store where
  config : StoreConfig
  /-- What was committed last. -/
  visible : Index
  /-- The changes since; a read-only store can have none. -/
  writer : Option Writer
  languages : LanguageCache
  stats : Statistics
  deriving Repr

/-- An operation on a store. -/
abbrev StoreM := ExceptT StoreError (StateM Store)

namespace Store

/-- A store on an index.  If another store may write to the index the new one is read-only;
otherwise it needs a configuration under which it can write. -/
def create (config : StoreConfig) (index : Index) (locked : Bool) : Except StoreError Store :=
  if locked then .ok ⟨config, index, none, .empty, .zero⟩
  else if config.writer.isAdmissible then .ok ⟨config, index, some (.on index), .empty, .zero⟩
  else .error .index

/-- Whether the store cannot be changed. -/
def isReadOnly (store : Store) : Bool := store.writer.isNone

/-- The number of visible records. -/
def size (store : Store) : Nat := store.visible.size

/-! ## Building predicates -/

/-- Runs a computation that builds predicates. -/
def building {α : Type} (computation : Building α) : StoreM α := fun store =>
  match computation store.languages with
  | (.ok value, languages) => (.ok value, { store with languages })
  | (.error fault, languages) => (.error (.query (.filter fault)), { store with languages })

/-- The predicates of a pattern in a graph, no variable being bound. -/
def predicatesOf (graph : GraphName) (pattern : TriplePattern) : StoreM (List Predicate) :=
  building (patternPredicates graph pattern fun _ => none)

/-! ## Changes -/

/-- Changes what is written, if anything may be. -/
def change (edit : Writer → Writer) : StoreM Unit := do
  let store ← get
  match store.writer with
  | none => throw .readOnly
  | some writer => set { store with writer := some (edit writer) }

/-- Adds a statement to a graph. -/
def add (graph : GraphName) (triple : Triple) : StoreM Unit := do
  change (·.add (Record.ofTriple graph triple))
  modify fun store => { store with stats := store.stats.countWrite }

/-- Adds a statement to its graph. -/
def addQuad (quad : Quad) : StoreM Unit := add quad.graph quad.triple

/-- Adds statements to a graph and says how many there were. -/
def addAll (graph : GraphName) (triples : List Triple) : StoreM Nat := do
  triples.forM (add graph)
  return triples.length

/-- Deletes what satisfies some predicates. -/
def eraseMatching (filters : List Predicate) : StoreM Unit := do
  change (·.erase (·.satisfies filters))
  modify fun store => { store with stats := store.stats.countDelete }

/-- Deletes the statements of a graph that match a pattern. -/
def delete (graph : GraphName) (pattern : TriplePattern) : StoreM Unit := do
  eraseMatching (← predicatesOf graph pattern)

/-- Deletes the statements of a graph. -/
def clear (graph : GraphName) : StoreM Unit := eraseMatching [graphPredicate graph]

/-- Deletes all committed statements. -/
def clearAll : StoreM Unit := do
  change Writer.clearAll
  modify fun store => { store with stats := store.stats.countDelete }

/-- Makes all changes visible. -/
def commit : StoreM Unit := do
  let store ← get
  match store.writer with
  | none => throw .readOnly
  | some writer =>
    set { store with visible := writer.committed, writer := some (.on writer.committed) }

/-- Forgets what was counted. -/
def resetStats (store : Store) : Store := { store with stats := .zero }

/-! ## Questions -/

/-- How many visible records satisfy some predicates. -/
def countMatching (filters : List Predicate) : StoreM Nat := do
  modify fun store => { store with stats := store.stats.countCount }
  return (← get).visible.count filters

/-- The number of statements of a graph. -/
def graphSize (graph : GraphName) : StoreM Nat := countMatching [graphPredicate graph]

/-- The number of statements of a graph that match a pattern, its variables being independent. -/
def count (graph : GraphName) (pattern : TriplePattern) : StoreM Nat := do
  countMatching (← predicatesOf graph pattern)

/-- Whether a graph has a statement, its object being compared by value. -/
def contains (graph : GraphName) (triple : Triple) : StoreM Bool :=
  return decide (0 < (← count graph triple.toPattern))

/-- The scan of the statements of a graph that match a pattern, its variables being
independent. -/
def find (graph : GraphName) (pattern : TriplePattern) : StoreM Scan := do
  let filters ← predicatesOf graph pattern
  let config := (← get).config
  return Scan.start filters config.fetchSize config.order true

/-- Whether the named graph with this written form has statements; if so, the graph. -/
def liveGraph? (term : String) : StoreM (Option GraphName) := do
  match GraphName.decode term with
  | .error fault => throw (.query (.malformedTerm fault))
  | .ok graph => return if 0 < (← graphSize graph) then some graph else none

/-- The named graphs that have statements, in the order of their written forms. -/
def graphNames : StoreM (List GraphName) := do
  let terms := (← get).visible.graphTerms.filter (· ≠ unnamedGraph)
  return (← terms.mapM liveGraph?).filterMap id

/-! ## Queries -/

/-- How a query on a graph is evaluated; a page has at least one record. -/
def evaluation (store : Store) (graph : GraphName) : Evaluation Statistics :=
  { source := store.visible.source
    graph := graph
    pageLength := max store.config.fetchSize 1
    order := store.config.order
    policy := store.config.policy
    fuel := store.visible.scanFuel }

/-- The solutions of a query on a graph.  Every scan of an index ends within its fuel, so a missing
result does not occur; it would be a failed search. -/
def query (graph : GraphName) (patterns : List TriplePattern) (constraints : List Constraint) :
    StoreM Solutions := fun store =>
  let (result, languages, stats) :=
    (store.evaluation graph).run constraints patterns store.languages store.stats
  let store := { store with languages, stats }
  match result with
  | some (.ok solutions) => (.ok solutions, store)
  | some (.error failure) => (.error (.resolution failure), store)
  | none => (.error (.query .search), store)

end Store

end QuadStore
