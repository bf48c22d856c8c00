import Mathlib
import QuadStore.Proofs.BuildingPredicates
import QuadStore.Proofs.GraphSets

/-!
# The history of a store

A store is changed by commands, one after the other.  What it is meant to hold is said without it, by
two families of sets: the statements that are shown and those that are staged for the next commit
(`Contents`).  Whatever commands are given, the store and the sets stay in step
(`StoreCommand.perform_refines`), and so the store shows at any time the sets of the last commit
(`history_shows_last_commit`).

The identifiers of records have to tell the quads apart that are added.  Clearing the whole store is
special: it deletes at once what was committed, but nothing that was staged, so it may be done only when
nothing is, and is to be committed straight away (`ClearsSettled`).
-/

namespace QuadStore

/-- A change of a store. -/
inductive StoreCommand where
  | add (graph : GraphName) (triple : Triple)
  | addQuad (quad : Quad)
  | addAll (graph : GraphName) (triples : List Triple)
  | delete (graph : GraphName) (pattern : TriplePattern)
  | clear (graph : GraphName)
  | clearAll
  | commit
  deriving DecidableEq

/-- Changes a store. -/
def StoreCommand.perform : StoreCommand → StoreM Unit
  | add graph triple => Store.add graph triple
  | addQuad quad => Store.addQuad quad
  | addAll graph triples => do let _ ← Store.addAll graph triples
  | delete graph pattern => Store.delete graph pattern
  | clear graph => Store.clear graph
  | clearAll => Store.clearAll
  | commit => Store.commit

/-- Whether a statement of a graph is found by the predicates of a pattern. -/
def TriplePattern.finds (pattern : TriplePattern) (graph : GraphName) (triple : Triple) : Bool :=
  match built (patternPredicates graph pattern fun _ => none) with
  | .ok filters => (Record.ofTriple graph triple).satisfies filters
  | .error _ => false

/-- The predicates of a pattern ask for the statements of the graph that the pattern finds. -/
lemma TriplePattern.satisfies_iff_finds {graph : GraphName} {pattern : TriplePattern}
    {filters : List Predicate}
    (h : built (patternPredicates graph pattern fun _ => none) = .ok filters) {quad : Quad} :
    quad.record.satisfies filters = true ↔
      quad.graph = graph ∧ pattern.finds graph quad.triple = true := by
  have hfinds : pattern.finds graph quad.triple =
      (Record.ofTriple graph quad.triple).satisfies filters := by
    unfold finds
    rw [h]
  rw [hfinds]
  constructor
  · intro hsatisfies
    obtain ⟨rest, hrest⟩ := exists_graphPredicate_cons h
    have hgraph : (graphPredicate graph).satisfiedBy quad.record = true :=
      List.all_eq_true.mp hsatisfies _ (hrest ▸ List.mem_cons_self)
    obtain ⟨-, rfl⟩ := Quad.satisfiedBy_graphPredicate.mp hgraph
    exact ⟨rfl, hsatisfies⟩
  · rintro ⟨rfl, hsatisfies⟩
    exact hsatisfies

/-! ## What a store is meant to hold -/

/-- The statements that are shown, and those that the next commit will show. -/
structure Contents where
  shown : GraphSets
  staged : GraphSets

namespace Contents

/-- What a command makes of the sets. -/
def apply (contents : Contents) : StoreCommand → Contents
  | .add graph triple => { contents with staged := contents.staged.add graph [triple] }
  | .addQuad quad => { contents with staged := contents.staged.add quad.graph [quad.triple] }
  | .addAll graph triples => { contents with staged := contents.staged.add graph triples }
  | .delete graph pattern =>
    { contents with staged := contents.staged.remove graph (pattern.finds graph) }
  | .clear graph => { contents with staged := contents.staged.remove graph fun _ => true }
  | .clearAll => { contents with staged := fun _ => ∅ }
  | .commit => { contents with shown := contents.staged }

/-- What some commands make of the sets, one after the other. -/
def run (contents : Contents) (commands : List StoreCommand) : Contents :=
  commands.foldl apply contents

end Contents

/-! ## Which histories are considered -/

/-- A command adds known quads only, and the pattern by which it deletes can be asked for. -/
def StoreCommand.Within (known : Set Quad) : StoreCommand → Prop
  | add graph triple => ⟨triple, graph⟩ ∈ known
  | addQuad quad => quad ∈ known
  | addAll graph triples => ∀ triple ∈ triples, ⟨triple, graph⟩ ∈ known
  | delete _ pattern => pattern.Buildable
  | clear _ | clearAll | commit => True

/-- The store is cleared only when nothing is staged, at the start or just after a commit, and what
comes next is a commit. -/
def ClearsSettled : Bool → List StoreCommand → Prop
  | _, [] => True
  | settled, .clearAll :: rest =>
    settled = true ∧ (∀ next ∈ rest.head?, next = .commit) ∧ ClearsSettled false rest
  | _, .commit :: rest => ClearsSettled true rest
  | _, _ :: rest => ClearsSettled false rest

/-! ## The writer -/

namespace Writer

/-- The places of a writer's records are in order, and the next record comes behind them. -/
structure Placed (writer : Writer) : Prop where
  image : writer.image.Ordered
  pending : writer.pending.Ordered
  lt_nextDoc : ∀ place ∈ writer.pending.records, place.1 < writer.nextDoc

/-- A writer that would commit the statements in some sets. -/
structure Holds (known : Set Quad) (sets : GraphSets) (writer : Writer) : Prop
    extends Placed writer where
  records : RecordsOf known sets writer.committed.records

variable {known : Set Quad} {sets sets' : GraphSets} {writer : Writer}

namespace Placed

lemma ordered_committed (h : writer.Placed) : writer.committed.Ordered := by
  apply Index.Ordered.compact
  intro segment hsegment
  rcases List.mem_append.mp hsegment with himage | hpending
  · exact h.image segment himage
  · rw [List.mem_singleton.mp hpending]
    exact h.pending

lemma erase (h : writer.Placed) (condition : Record → Bool) : (writer.erase condition).Placed where
  image := h.image.erase condition
  pending := h.pending.erase condition
  lt_nextDoc := fun place hplace => h.lt_nextDoc place (List.mem_of_mem_filter hplace)

lemma add (h : writer.Placed) (record : Record) : (writer.add record).Placed where
  image := h.image.erase _
  pending := by
    apply List.pairwise_append.mpr
    refine ⟨h.pending.erase _, List.pairwise_singleton _ _, ?_⟩
    intro place hplace last hlast
    rw [List.mem_singleton.mp hlast]
    exact h.lt_nextDoc place (List.mem_of_mem_filter hplace)
  lt_nextDoc := by
    intro place hplace
    rcases List.mem_append.mp hplace with hold | hnew
    · exact Nat.lt_succ_of_lt (h.lt_nextDoc place (List.mem_of_mem_filter hold))
    · rw [List.mem_singleton.mp hnew]
      exact Nat.lt_succ_self _

lemma clearAll (h : writer.Placed) : writer.clearAll.Placed where
  image := Index.ordered_empty
  pending := h.pending
  lt_nextDoc := h.lt_nextDoc

end Placed

lemma placed_on {index : Index} (hordered : index.Ordered) : (on index).Placed where
  image := hordered
  pending := List.Pairwise.nil
  lt_nextDoc := by simp [on]

namespace Holds

lemma erase (h : writer.Holds known sets) {condition : Record → Bool}
    (hsets : sets.LeavesOf condition sets') : (writer.erase condition).Holds known sets' := by
  refine ⟨h.toPlaced.erase condition, ?_⟩
  rw [records_committed_erase]
  exact h.records.erase hsets

lemma add (h : writer.Holds known sets)
    (hids : Set.InjOn (fun quad : Quad => quad.record.id) known) {quad : Quad} (hquad : quad ∈ known) :
    (writer.add quad.record).Holds known (sets.add quad.graph [quad.triple]) := by
  refine ⟨h.toPlaced.add quad.record, ?_⟩
  rw [records_committed_add]
  exact h.records.replace hids hquad

lemma clearAll (h : writer.Holds known sets) (hpending : writer.pending.records = []) :
    writer.clearAll.Holds known fun _ => ∅ := by
  refine ⟨h.toPlaced.clearAll, ?_⟩
  have hnone : writer.clearAll.committed.records = [] := by
    rw [records_committed]
    simp [Writer.clearAll, Index.empty, Index.records, hpending]
  rw [hnone]
  exact RecordsOf.nil known

end Holds

lemma holds_on {index : Index} (hordered : index.Ordered) (h : RecordsOf known sets index.records) :
    (on index).Holds known sets := by
  refine ⟨placed_on hordered, ?_⟩
  rwa [records_committed_on]

end Writer

/-! ## The store -/

namespace Store

/-- A store that shows some sets and has others staged. -/
structure Refines (known : Set Quad) (config : StoreConfig) (contents : Contents) (store : Store) :
    Prop where
  config_eq : store.config = config
  ordered : store.visible.Ordered
  visible : RecordsOf known contents.shown store.visible.records
  writer : ∃ writer, store.writer = some writer ∧ writer.Holds known contents.staged
  languages : store.languages.Sound

/-- Nothing was added to a store since the last commit. -/
def Settled (store : Store) : Prop :=
  ∀ writer, store.writer = some writer → writer.pending.records = []

variable {known : Set Quad} {config : StoreConfig} {contents : Contents} {store : Store}

lemma building_run {α : Type} {computation : Building α} (htransparent : Transparent computation)
    {value : α} (hbuilt : built computation = .ok value) (hlanguages : store.languages.Sound) :
    ∃ languages, languages.Sound ∧
      building computation store = (.ok value, { store with languages }) := by
  obtain ⟨hvalue, hsound⟩ := htransparent _ hlanguages
  refine ⟨_, hsound, ?_⟩
  rw [hbuilt] at hvalue
  unfold building
  rcases hrun : computation store.languages with ⟨answer, languages⟩
  rw [hrun] at hvalue
  subst hvalue
  rfl

namespace Refines

variable (h : store.Refines known config contents)

include h

/-- **A change of the writer**, which counts itself, changes what is staged. -/
lemma edit {change : Writer → Writer} (count : Statistics → Statistics) {staged : GraphSets}
    (hchange : ∀ writer, store.writer = some writer → writer.Holds known contents.staged →
      (change writer).Holds known staged) :
    ∃ store', (do
        Store.change change
        modify fun store => { store with stats := count store.stats } : StoreM Unit) store =
        (.ok (), store') ∧
      store'.Refines known config { contents with staged } := by
  obtain ⟨writer, hwriter, hholds⟩ := h.writer
  have hrun : Store.change change store = (.ok (), { store with writer := some (change writer) }) := by
    unfold Store.change
    rw [get_bind]
    simp only [hwriter]
    rfl
  rw [bind_ok hrun]
  exact ⟨_, rfl, h.config_eq, h.ordered, h.visible, ⟨_, rfl, hchange writer hwriter hholds⟩,
    h.languages⟩

lemma add (hids : Set.InjOn (fun quad : Quad => quad.record.id) known) {quad : Quad}
    (hquad : quad ∈ known) :
    ∃ store', Store.add quad.graph quad.triple store = (.ok (), store') ∧
      store'.Refines known config
        { contents with staged := contents.staged.add quad.graph [quad.triple] } := by
  apply h.edit Statistics.countWrite
  intro writer _ hholds
  exact hholds.add hids hquad

lemma addAll (hids : Set.InjOn (fun quad : Quad => quad.record.id) known) {graph : GraphName}
    {triples : List Triple} (hknown : ∀ triple ∈ triples, ⟨triple, graph⟩ ∈ known) :
    ∃ store', triples.forM (Store.add graph) store = (.ok (), store') ∧
      store'.Refines known config
        { contents with staged := contents.staged.add graph triples } := by
  induction triples generalizing store contents with
  | nil =>
    refine ⟨store, rfl, ?_⟩
    rw [GraphSets.add_nil]
    exact h
  | cons triple rest ih =>
    obtain ⟨added, hadd, hadded⟩ := h.add hids (hknown triple List.mem_cons_self)
    obtain ⟨store', hrest, hrefines⟩ := ih hadded fun other hother =>
      hknown other (List.mem_cons_of_mem triple hother)
    rw [GraphSets.add_add] at hrefines
    refine ⟨store', ?_, hrefines⟩
    show (Store.add graph triple >>= fun _ => rest.forM (Store.add graph)) store = _
    rw [bind_ok hadd]
    exact hrest

lemma eraseMatching {filters : List Predicate} {staged : GraphSets}
    (hstaged : contents.staged.LeavesOf (·.satisfies filters) staged) :
    ∃ store', Store.eraseMatching filters store = (.ok (), store') ∧
      store'.Refines known config { contents with staged } := by
  apply h.edit Statistics.countDelete
  intro writer _ hholds
  exact hholds.erase hstaged

lemma delete (graph : GraphName) {pattern : TriplePattern} (hpattern : pattern.Buildable) :
    ∃ store', Store.delete graph pattern store = (.ok (), store') ∧
      store'.Refines known config
        { contents with staged := contents.staged.remove graph (pattern.finds graph) } := by
  obtain ⟨filters, hfilters, -⟩ :=
    exists_built_patternPredicates graph hpattern fun _ => none
  obtain ⟨languages, hsound, hbuilding⟩ :=
    building_run (transparent_patternPredicates _ _ _) hfilters h.languages
  have hrefines : ({ store with languages } : Store).Refines known config contents :=
    ⟨h.config_eq, h.ordered, h.visible, h.writer, hsound⟩
  have hpredicates : predicatesOf graph pattern store = (.ok filters, { store with languages }) :=
    hbuilding
  unfold Store.delete
  rw [bind_ok hpredicates]
  apply hrefines.eraseMatching
  intro quad _
  rw [GraphSets.mem_remove, TriplePattern.satisfies_iff_finds hfilters]

lemma clear (graph : GraphName) :
    ∃ store', Store.clear graph store = (.ok (), store') ∧
      store'.Refines known config
        { contents with staged := contents.staged.remove graph fun _ => true } := by
  apply h.eraseMatching
  intro quad hkey
  rw [GraphSets.mem_remove, Quad.satisfies_graphPredicate]
  have hsame : quad.graph = graph ↔ isKey graph.encode = true ∧ quad.graph = graph := by
    rw [iff_and_self]
    rintro rfl
    exact hkey
  rw [← hsame, and_iff_left rfl]

lemma clearAll (hsettled : store.Settled) :
    ∃ store', Store.clearAll store = (.ok (), store') ∧
      store'.Refines known config { contents with staged := fun _ => ∅ } := by
  apply h.edit Statistics.countDelete
  intro writer hwriter hholds
  exact hholds.clearAll (hsettled writer hwriter)

lemma commit :
    ∃ store', Store.commit store = (.ok (), store') ∧
      store'.Refines known config { contents with shown := contents.staged } ∧ store'.Settled := by
  obtain ⟨writer, hwriter, hholds⟩ := h.writer
  have hordered := hholds.ordered_committed
  let store' : Store := { store with visible := writer.committed, writer := some (.on writer.committed) }
  have hcommit : Store.commit store = (.ok (), store') := by
    unfold Store.commit
    rw [get_bind]
    simp only [hwriter]
    rfl
  refine ⟨store', hcommit, ⟨h.config_eq, hordered, hholds.records,
    ⟨_, rfl, Writer.holds_on hordered hholds.records⟩, h.languages⟩, ?_⟩
  intro on hon
  cases hon
  rfl

end Refines

end Store

/-! ## Commands -/

/-- **One command** keeps the store and the sets in step. -/
theorem StoreCommand.perform_refines {known : Set Quad} {config : StoreConfig} {contents : Contents}
    {store : Store} (h : store.Refines known config contents)
    (hids : Set.InjOn (fun quad : Quad => quad.record.id) known) {command : StoreCommand}
    (hwithin : command.Within known) (hsettled : command = .clearAll → store.Settled) :
    ∃ store', command.perform store = (.ok (), store') ∧
      store'.Refines known config (contents.apply command) ∧
      (command = .commit → store'.Settled) := by
  cases command with
  | add graph triple =>
    have hquad : (⟨triple, graph⟩ : Quad) ∈ known := hwithin
    obtain ⟨store', hrun, hrefines⟩ := h.add hids hquad
    exact ⟨store', hrun, hrefines, nofun⟩
  | addQuad quad =>
    obtain ⟨store', hrun, hrefines⟩ := h.add hids hwithin
    exact ⟨store', hrun, hrefines, nofun⟩
  | addAll graph triples =>
    obtain ⟨store', hrun, hrefines⟩ := h.addAll hids hwithin
    have hall : Store.addAll graph triples store = (.ok triples.length, store') := by
      unfold Store.addAll
      rw [bind_ok hrun]
      rfl
    refine ⟨store', ?_, hrefines, nofun⟩
    show (Store.addAll graph triples >>= fun _ => pure ()) store = _
    rw [bind_ok hall]
    rfl
  | delete graph pattern =>
    obtain ⟨store', hrun, hrefines⟩ := h.delete graph hwithin
    exact ⟨store', hrun, hrefines, nofun⟩
  | clear graph =>
    obtain ⟨store', hrun, hrefines⟩ := h.clear graph
    exact ⟨store', hrun, hrefines, nofun⟩
  | clearAll =>
    obtain ⟨store', hrun, hrefines⟩ := h.clearAll (hsettled rfl)
    exact ⟨store', hrun, hrefines, nofun⟩
  | commit =>
    obtain ⟨store', hrun, hrefines, hcommitted⟩ := h.commit
    exact ⟨store', hrun, hrefines, fun _ => hcommitted⟩

lemma ClearsSettled.cons {settled : Bool} {command : StoreCommand} {rest : List StoreCommand}
    (h : ClearsSettled settled (command :: rest)) :
    (command = .clearAll → settled = true) ∧ ClearsSettled (decide (command = .commit)) rest := by
  cases command with
  | clearAll => exact ⟨fun _ => h.1, h.2.2⟩
  | commit => exact ⟨nofun, h⟩
  | add graph triple => exact ⟨nofun, h⟩
  | addQuad quad => exact ⟨nofun, h⟩
  | addAll graph triples => exact ⟨nofun, h⟩
  | delete graph pattern => exact ⟨nofun, h⟩
  | clear graph => exact ⟨nofun, h⟩

/-- **A run of commands** keeps the store and the sets in step. -/
theorem StoreCommand.run_refines {known : Set Quad} {config : StoreConfig}
    (hids : Set.InjOn (fun quad : Quad => quad.record.id) known) {commands : List StoreCommand}
    (hwithin : ∀ command ∈ commands, command.Within known) {settled : Bool}
    (hclears : ClearsSettled settled commands) {contents : Contents} {store : Store}
    (h : store.Refines known config contents) (hsettled : settled = true → store.Settled) :
    ∃ store', commands.forM perform store = (.ok (), store') ∧
      store'.Refines known config (contents.run commands) := by
  induction commands generalizing settled contents store with
  | nil => exact ⟨store, rfl, h⟩
  | cons command rest ih =>
    obtain ⟨hclear, hrest⟩ := hclears.cons
    obtain ⟨next, hperform, hnext, hcommitted⟩ := perform_refines h hids
      (hwithin command List.mem_cons_self) fun hcommand => hsettled (hclear hcommand)
    obtain ⟨store', hrun, hrefines⟩ := ih
      (fun other hother => hwithin other (List.mem_cons_of_mem command hother)) hrest hnext
      fun hcommand => hcommitted (of_decide_eq_true hcommand)
    refine ⟨store', ?_, hrefines⟩
    show (command.perform >>= fun _ => rest.forM perform) store = _
    rw [bind_ok hperform]
    exact hrun

/-! ## What is shown -/

namespace Store

/-- A store shows these statements of a graph: it counts them, and finding all statements of the graph
lists each of them once and ends. -/
def Shows (store : Store) (graph : GraphName) (triples : Finset Triple) : Prop :=
  (∃ store', graphSize graph store = (.ok triples.card, store')) ∧
  ∀ s p o : Variable, ∃ scan store', find graph ⟨.var s, .var p, .var o⟩ store = (.ok scan, store') ∧
    ∃ listed : List Triple, listed.Nodup ∧ (∀ triple, triple ∈ listed ↔ triple ∈ triples) ∧
      scan.Lists store.visible.source store.visible.scanFuel listed

lemma Refines.shows {known : Set Quad} {config : StoreConfig} {contents : Contents} {store : Store}
    (h : store.Refines known config contents) (hwellFormed : ∀ quad ∈ known, quad.WellFormed)
    (hfetch : 0 < config.fetchSize) (graph : GraphName) :
    store.Shows graph (contents.shown.findable graph) := by
  have hlength : 0 < store.config.fetchSize := h.config_eq ▸ hfetch
  obtain ⟨hcount, listed, hnodup, hmem, hlists⟩ :=
    h.visible.lists h.ordered hwellFormed graph hlength store.config.order
  constructor
  · exact ⟨{ store with stats := store.stats.countCount }, by rw [← hcount]; rfl⟩
  · intro s p o
    exact ⟨_, store, rfl, listed, hnodup, hmem, hlists⟩

end Store

/-- A new store shows its index and has no changes yet. -/
lemma Store.create_eq {config : StoreConfig} {index : Index} {locked : Bool} {store : Store}
    (hstore : Store.create config index locked = .ok store) :
    store = ⟨config, index, if locked then none else some (.on index), .empty, .zero⟩ := by
  unfold Store.create at hstore
  split_ifs at hstore with hlocked
  · cases hstore
    rw [if_pos hlocked]
  · cases hstore
    rw [if_neg hlocked]

/-- A new store that can be changed shows and stages what its index holds. -/
lemma Store.refines_create {known : Set Quad} {config : StoreConfig} {index : Index}
    {sets : GraphSets} (hordered : index.Ordered) (hindex : RecordsOf known sets index.records)
    {store : Store} (hstore : Store.create config index false = .ok store) :
    store.Refines known config ⟨sets, sets⟩ ∧ store.Settled := by
  obtain rfl := Store.create_eq hstore
  refine ⟨⟨rfl, hordered, hindex, ⟨_, rfl, Writer.holds_on hordered hindex⟩,
    LanguageCache.sound_empty⟩, ?_⟩
  intro writer hwriter
  cases hwriter
  rfl

/-- **A store shows the sets of the last commit.**  Take a store that can be changed, on an index that
holds certain sets of well-formed statements, and any history of commands that add such statements only,
the identifiers of their records being different.  The commands succeed, and what the store shows of a
graph then is what adding, deleting and clearing have made of its set up to the last commit, as far as
it is findable. -/
theorem history_shows_last_commit {known : Set Quad} (hwellFormed : ∀ quad ∈ known, quad.WellFormed)
    (hids : Set.InjOn (fun quad : Quad => quad.record.id) known) {config : StoreConfig}
    (hfetch : 0 < config.fetchSize) {index : Index} {sets : GraphSets} (hordered : index.Ordered)
    (hindex : RecordsOf known sets index.records) {store : Store}
    (hstore : Store.create config index false = .ok store) {commands : List StoreCommand}
    (hwithin : ∀ command ∈ commands, command.Within known) (hclears : ClearsSettled true commands) :
    ∃ store', commands.forM StoreCommand.perform store = (.ok (), store') ∧
      ∀ graph, store'.Shows graph (((⟨sets, sets⟩ : Contents).run commands).shown.findable graph) := by
  obtain ⟨hrefines, hsettled⟩ := Store.refines_create hordered hindex hstore
  obtain ⟨store', hrun, hafter⟩ :=
    StoreCommand.run_refines hids hwithin hclears hrefines fun _ => hsettled
  exact ⟨store', hrun, fun graph => hafter.shows hwellFormed hfetch graph⟩

/-- One statement is added to two graphs and committed, and one of the graphs is cleared.  What is
deleted after the last commit is shown still. -/
theorem history_shows_last_commit_two_graphs :
    let triple : Triple := ⟨.iri ⟨"s"⟩, ⟨"p"⟩, .iri ⟨"o"⟩⟩
    let graph : GraphName := .named (.iri ⟨"g"⟩)
    let everything : TriplePattern := ⟨.var ⟨"s"⟩, .var ⟨"p"⟩, .var ⟨"o"⟩⟩
    let commands : List StoreCommand := [.addAll .default [triple], .addQuad ⟨triple, graph⟩, .commit,
      .clear graph, .add .default triple, .commit, .delete .default everything]
    ∃ store store', Store.create {} .empty false = .ok store ∧
      commands.forM StoreCommand.perform store = (.ok (), store') ∧
      store'.Shows .default {triple} ∧ store'.Shows graph ∅ := by
  intro triple graph everything commands
  let known : Set Quad := {⟨triple, .default⟩, ⟨triple, graph⟩}
  have hwellFormed : ∀ quad ∈ known, quad.WellFormed := by
    rintro quad (rfl | rfl) <;> exact ⟨⟨trivial, trivial⟩, trivial⟩
  have hids : Set.InjOn (fun quad : Quad => quad.record.id) known := by
    have hne : (⟨triple, .default⟩ : Quad).record.id ≠ (⟨triple, graph⟩ : Quad).record.id := by
      decide +kernel
    rintro quad (rfl | rfl) quad' (rfl | rfl) hid
    · rfl
    · exact absurd hid hne
    · exact absurd hid.symm hne
    · rfl
  have hwithin : ∀ command ∈ commands, command.Within known := by
    simp [commands, everything, known, StoreCommand.Within, TriplePattern.Buildable,
      TriplePattern.slots]
  have hclears : ClearsSettled true commands := by
    simp [commands, ClearsSettled]
  obtain ⟨store', hrun, hshows⟩ := history_shows_last_commit hwellFormed hids
    (by decide : 0 < ({} : StoreConfig).fetchSize) Index.ordered_empty (RecordsOf.nil known) rfl
    hwithin hclears
  refine ⟨_, store', rfl, hrun, ?_, ?_⟩
  · have hset : ((⟨fun _ => ∅, fun _ => ∅⟩ : Contents).run commands).shown.findable .default =
        {triple} := by
      decide +kernel
    exact hset ▸ hshows .default
  · have hset : ((⟨fun _ => ∅, fun _ => ∅⟩ : Contents).run commands).shown.findable graph = ∅ := by
      decide +kernel
    exact hset ▸ hshows graph

/-! ## Graphs with long names -/

/-- A graph with a name of at least this length. -/
def longGraph (length : Nat) : GraphName :=
  .named (.iri ⟨"http://x/" ++ String.ofList (List.replicate length 'g')⟩)

lemma length_le_utf8Len (text : List Char) : text.length ≤ String.utf8Len text := by
  induction text with
  | nil => exact Nat.zero_le _
  | cons c text ih =>
    have hpos := c.utf8Size_pos
    rw [List.length_cons, String.utf8Len_cons]
    omega

lemma isKey_longGraph {length : Nat} (h : longestKey ≤ length) :
    isKey (longGraph length).encode = false := by
  have hbare : Bare ("http://x/".toList ++ List.replicate length 'g') := by
    apply Bare.append (by decide)
    intro c hc
    rw [(List.mem_replicate.mp hc).2]
    decide
  have hwritten : (longGraph length).written =
      '<' :: ("http://x/".toList ++ List.replicate length 'g' ++ ['>']) := by
    have htext : ("http://x/" ++ String.ofList (List.replicate length 'g')).toList =
        "http://x/".toList ++ List.replicate length 'g' := by
      rw [String.toList_append]
      exact congrArg _ String.toList_ofList
    show '<' :: (Text.escape ("http://x/" ++ String.ofList _).toList ++ ['>']) = _
    rw [htext, escape_bare hbare]
  have hsize := length_le_utf8Len (longGraph length).written
  rw [← String.utf8ByteSize_ofList, hwritten] at hsize
  rw [isKey, GraphName.encode, hwritten, decide_eq_false_iff_not]
  simp only [List.length_cons, List.length_append, List.length_replicate] at hsize
  omega

/-- **A graph with a long name seems to be empty** though a statement was added to it and committed. -/
theorem long_graph_shows_nothing :
    ∃ triple : Triple, ∃ store store' : Store,
      (⟨triple, longGraph 65530⟩ : Quad).WellFormed ∧
      Store.create {} .empty false = .ok store ∧
      [.add (longGraph 65530) triple, .commit].forM StoreCommand.perform store = (.ok (), store') ∧
      ((⟨fun _ => ∅, fun _ => ∅⟩ : Contents).run
        [.add (longGraph 65530) triple, .commit]).shown (longGraph 65530) = {triple} ∧
      ∃ after, Store.graphSize (longGraph 65530) store' = (.ok 0, after) := by
  let triple : Triple := ⟨.iri ⟨"http://x/s"⟩, ⟨"http://x/p"⟩, .iri ⟨"http://x/o"⟩⟩
  let quad : Quad := ⟨triple, longGraph 65530⟩
  let writer := Writer.add (.on .empty) quad.record
  let store' : Store := ⟨{}, writer.committed, some (.on writer.committed), .empty, Statistics.zero.countWrite⟩
  have hlong : isKey (longGraph 65530).encode = false := isKey_longGraph (Nat.le_refl _)
  have hrecords : writer.committed.records = [quad.record] := Writer.records_committed_add _ _
  have hnone : writer.committed.records.filter
      (·.satisfies [graphPredicate (longGraph 65530)]) = [] := by
    rw [hrecords, List.filter_eq_nil_iff]
    intro record hrecord hsatisfies
    rw [List.mem_singleton.mp hrecord, Quad.satisfies_graphPredicate, hlong] at hsatisfies
    cases hsatisfies.1
  refine ⟨triple, ⟨{}, .empty, some (.on .empty), .empty, .zero⟩, store',
    ⟨⟨trivial, trivial⟩, trivial⟩, rfl, rfl, ?_, ?_⟩
  · ext other
    show other ∈ GraphSets.add (fun _ => ∅) (longGraph 65530) [triple] (longGraph 65530) ↔ _
    rw [GraphSets.mem_add]
    simp
  · refine ⟨{ store' with stats := store'.stats.countCount }, ?_⟩
    have hcount : store'.visible.count [graphPredicate (longGraph 65530)] = 0 :=
      congrArg List.length hnone
    rw [← hcount]
    rfl

end QuadStore
