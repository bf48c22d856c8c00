import Mathlib
import QuadStore.Proofs.FailedLoads
import QuadStore.Proofs.LineReading

/-!
# Loads are unions

A load of a file of which each line is read adds the quads of the file to those whose records the store
has visible (`loads_unite`).  Among these are also quads of graphs that no read can search for, because
their names are too long (`Store.Shows` says what reads show).  Each statement is written in place of the
record with its identifier, wherever that stands, in what was committed or among what is pending; so
nothing is lost as long as identifiers tell the quads apart (`quadsOf_replace`), and statements that
stand twice are counted but not kept twice.

How many quads these are is the number of records, because they are records of quads and none stands
twice.  Every store is like that, whatever commands and loads it has been given
(`Store.invariant_distinct`, `Store.Invariant.afterSteps`).

After a load nothing is pending, so loads may follow one another, and what is visible in the end is the
union of what was visible and of all that was loaded (`Store.Ready.afterLoads`).  A union depends neither on
the order of what is united nor on repetitions.
-/

namespace QuadStore

/-! ## Reports -/

namespace Store

section

variable {σ : Type} (report : Nat → σ → σ)

/-- What reports of numbers, in a row from the one after `added`, make of a state. -/
def reported (added count : Nat) (seen : σ) : σ :=
  (List.range' (added + 1) count).foldl (fun seen number => report number seen) seen

/-- Statements are added with reports as they are without, and each is reported. -/
lemma addReporting_eq (items : List (Except ReadError Quad)) (added : Nat) (seen : σ) (store : Store) :
    ∃ count, (addWhileSound items added store).1 = added + count ∧
      addReporting report items added seen store =
        (added + count, reported report added count seen, (addWhileSound items added store).2) := by
  induction items generalizing added seen store with
  | nil => exact ⟨0, rfl, rfl⟩
  | cons item rest ih =>
    cases item with
    | error fault => exact ⟨0, rfl, rfl⟩
    | ok quad =>
      rcases hrun : (addQuad quad).run store with ⟨fault | ⟨⟩, next⟩
      · simp only [addWhileSound, addReporting, hrun]
        exact ⟨0, rfl, rfl⟩
      · simp only [addWhileSound, addReporting, hrun]
        obtain ⟨count, htotal, hreporting⟩ := ih (added + 1) (report (added + 1) seen) next
        have hnext : added + 1 + count = added + (count + 1) := by omega
        rw [hnext] at htotal hreporting
        exact ⟨count + 1, htotal, hreporting⟩

/-- **A load with reports** has the outcome of one without, and reports the numbers up to that of the
statements that were added. -/
theorem loadReporting_eq (file : Option Content) (defaultGraph : GraphName) (seen : σ) (store : Store) :
    store.loadReporting report file defaultGraph seen =
      (reported report 0 (store.load file defaultGraph).1 seen, (store.load file defaultGraph).2) := by
  cases file with
  | none => rfl
  | some content =>
    obtain ⟨count, htotal, hreporting⟩ :=
      addReporting_eq report (content.quads defaultGraph) 0 seen store
    rw [Nat.zero_add] at htotal hreporting
    rw [loadReporting, hreporting]
    rcases hrun : addWhileSound (content.quads defaultGraph) 0 store with ⟨total, fault, next⟩
    rw [hrun] at htotal
    obtain rfl : total = count := htotal
    cases fault with
    | some fault =>
      rw [load_of_fault hrun]
    | none =>
      unfold load
      simp only [hrun]
      rcases commit.run next with ⟨fault | ⟨⟩, committed⟩ <;> rfl

end

end Store

/-! ## Records of quads -/

/-- Records of quads, none of which stands twice. -/
structure QuadRecords (records : List Record) : Prop where
  nodup : records.Nodup
  quads : ∀ record ∈ records, ∃ quad : Quad, quad.record = record

/-- The quads that have their records in a list. -/
def quadsOf (records : List Record) : Set Quad := {quad | quad.record ∈ records}

lemma mem_quadsOf {records : List Record} {quad : Quad} :
    quad ∈ quadsOf records ↔ quad.record ∈ records := Iff.rfl

namespace QuadRecords

variable {records : List Record}

lemma nil : QuadRecords [] := ⟨.nil, by simp⟩

lemma sublist {records' : List Record} (h : QuadRecords records) (hsub : records'.Sublist records) :
    QuadRecords records' :=
  ⟨h.nodup.sublist hsub, fun record hrecord => h.quads record (hsub.subset hrecord)⟩

/-- A record takes the place of the one with its identifier. -/
lemma replace (h : QuadRecords records) (quad : Quad) :
    QuadRecords ((records.filter fun old => !(old.id == quad.record.id)) ++ [quad.record]) where
  nodup := nodup_replace h.nodup quad.record
  quads := by
    intro record hrecord
    rcases List.mem_append.mp hrecord with hold | hnew
    · exact h.quads record (List.mem_of_mem_filter hold)
    · exact ⟨quad, (List.mem_singleton.mp hnew).symm⟩

/-- There are as many quads as records. -/
lemma ncard_quadsOf (h : QuadRecords records) : (quadsOf records).ncard = records.length := by
  have himage : Quad.record '' quadsOf records = (records.toFinset : Set Record) := by
    ext record
    rw [List.coe_toFinset]
    constructor
    · rintro ⟨quad, hquad, rfl⟩
      exact hquad
    · intro hrecord
      obtain ⟨quad, rfl⟩ := h.quads record hrecord
      exact ⟨quad, hrecord, rfl⟩
  rw [← Set.ncard_image_of_injective _ Quad.record_injective, himage, Set.ncard_coe_finset,
    List.toFinset_card_of_nodup h.nodup]

end QuadRecords

/-- If identifiers tell quads apart, a record that takes the place of the one with its identifier takes
no quad away. -/
lemma quadsOf_replace {records : List Record} {quad : Quad}
    (hids : Set.InjOn (fun quad : Quad => quad.record.id) (insert quad (quadsOf records))) :
    quadsOf ((records.filter fun old => !(old.id == quad.record.id)) ++ [quad.record]) =
      insert quad (quadsOf records) := by
  ext other
  rw [Set.mem_insert_iff]
  simp only [mem_quadsOf, List.mem_append, List.mem_filter, List.mem_singleton,
    Quad.record_injective.eq_iff]
  constructor
  · rintro (⟨hold, -⟩ | hnew)
    · exact .inr hold
    · exact .inl hnew
  · rintro (hnew | hold)
    · exact .inr hnew
    · by_cases hid : other.record.id = quad.record.id
      · exact .inr (hids (.inr hold) (.inl rfl) hid)
      · exact .inl ⟨hold, by simpa using hid⟩

/-! ## Stores on records of quads -/

namespace Writer

variable {writer : Writer}

lemma quadRecords_on {index : Index} (h : QuadRecords index.records) :
    QuadRecords (on index).committed.records := by
  rwa [records_committed_on]

lemma quadRecords_add (h : QuadRecords writer.committed.records) (quad : Quad) :
    QuadRecords (writer.add quad.record).committed.records := by
  rw [records_committed_add]
  exact h.replace quad

lemma quadRecords_erase (h : QuadRecords writer.committed.records) (condition : Record → Bool) :
    QuadRecords (writer.erase condition).committed.records := by
  rw [records_committed_erase]
  exact h.sublist (List.filter_sublist ..)

lemma quadRecords_clearAll (h : QuadRecords writer.committed.records) :
    QuadRecords writer.clearAll.committed.records := by
  rw [records_committed] at h ⊢
  exact h.sublist (List.sublist_append_right ..)

end Writer

namespace Store

/-- A store that has visible, and would commit, records of quads, none of which stands twice. -/
structure Distinct (store : Store) : Prop where
  visible : QuadRecords store.visible.records
  writer : ∀ writer, store.writer = some writer → QuadRecords writer.committed.records

lemma invariant_distinct (known : Set Quad) : Invariant known Distinct where
  asked := fun _ _ h => ⟨h.visible, h.writer⟩
  counted := fun _ h => ⟨h.visible, h.writer⟩
  added := fun hwriter quad _ h =>
    ⟨h.visible, fun _ hnew => Option.some.inj hnew ▸ Writer.quadRecords_add (h.writer _ hwriter) quad⟩
  erased := fun hwriter _ h =>
    ⟨h.visible, fun _ hnew => Option.some.inj hnew ▸ Writer.quadRecords_erase (h.writer _ hwriter) _⟩
  cleared := fun hwriter h =>
    ⟨h.visible, fun _ hnew => Option.some.inj hnew ▸ Writer.quadRecords_clearAll (h.writer _ hwriter)⟩
  committed := fun hwriter h =>
    ⟨h.writer _ hwriter,
      fun _ hnew => Option.some.inj hnew ▸ Writer.quadRecords_on (h.writer _ hwriter)⟩

lemma distinct_create {config : StoreConfig} {index : Index} (h : QuadRecords index.records)
    {locked : Bool} {store : Store} (hstore : create config index locked = .ok store) :
    store.Distinct := by
  obtain rfl := create_eq hstore
  refine ⟨h, fun writer hwriter => ?_⟩
  cases locked with
  | true => cases hwriter
  | false => exact Option.some.inj hwriter ▸ Writer.quadRecords_on h

namespace Invariant

variable {property : Store → Prop} (h : Invariant Set.univ property)

include h

lemma addWhileSound (items : List (Except ReadError Quad)) (added : Nat) {store : Store}
    (hstore : property store) : property (addWhileSound items added store).2.2 := by
  induction items generalizing added store with
  | nil => exact hstore
  | cons item rest ih =>
    cases item with
    | error fault => exact hstore
    | ok quad =>
      have hkeeps : property ((addQuad quad).run store).2 :=
        h.keeps_add quad (Set.mem_univ quad) store hstore
      rcases hrun : (addQuad quad).run store with ⟨fault | ⟨⟩, next⟩ <;> rw [hrun] at hkeeps <;>
        simp only [Store.addWhileSound, hrun]
      · exact hkeeps
      · exact ih (added + 1) hkeeps

lemma load (file : Option Content) (defaultGraph : GraphName) {store : Store}
    (hstore : property store) : property (store.load file defaultGraph).2.2 := by
  cases file with
  | none => exact hstore
  | some content =>
    have hnext := h.addWhileSound (content.quads defaultGraph) 0 hstore
    rcases hrun : Store.addWhileSound (content.quads defaultGraph) 0 store with ⟨added, fault, next⟩
    rw [hrun] at hnext
    cases fault with
    | some fault =>
      rw [load_of_fault hrun]
      exact hnext
    | none =>
      rw [load_of_sound hrun]
      exact h.keeps_commit next hnext

/-- **Steps one after the other** keep what commands keep, whatever they add. -/
theorem afterSteps (steps : List StoreStep) {store : Store} (hstore : property store) :
    property (store.afterSteps steps) := by
  induction steps generalizing store with
  | nil => exact hstore
  | cons step rest ih =>
    apply ih
    cases step with
    | command command =>
      exact h.perform (by cases command <;> simp [StoreCommand.Adds]) store hstore
    | load file defaultGraph => exact h.load file defaultGraph hstore

end Invariant

end Store

/-! ## Contents of which each line is read -/

namespace Content

/-- Each line of a file is a statement, a comment or blank. -/
def Parses (content : Content) : Prop :=
  ∀ line ∈ content.lines, ∃ text statement, line = some text ∧ parseStatement text = .ok statement

/-- The statements in the lines of a file, those without a graph being in the given one. -/
def statements (content : Content) (defaultGraph : GraphName) : Set Quad :=
  {quad | ∃ text statement, some text ∈ content.lines ∧
    parseStatement text = .ok (some statement) ∧ quad = statement.withDefault defaultGraph}

/-- A file of which each line is read is read as a whole. -/
lemma Parses.exists_quads {content : Content} (h : content.Parses) (defaultGraph : GraphName) :
    ∃ quads, readQuads (content.quads defaultGraph) = .ok quads ∧
      ∀ quad, quad ∈ quads ↔ quad ∈ content.statements defaultGraph := by
  have hlines : content.lines ∈ Set.range (List.map some) := by
    rw [Set.range_list_map]
    intro line hline
    obtain ⟨text, -, rfl, -⟩ := h line hline
    exact ⟨text, rfl⟩
  obtain ⟨texts, htexts⟩ := hlines
  have hparsed : texts.map parseStatement ∈ Set.range (List.map Except.ok) := by
    rw [Set.range_list_map]
    intro parsed hparsed
    obtain ⟨text, htext, rfl⟩ := List.mem_map.mp hparsed
    obtain ⟨_, statement, hline, hstatement⟩ :=
      h (some text) (htexts ▸ List.mem_map_of_mem htext)
    cases hline
    exact ⟨statement, hstatement.symm⟩
  obtain ⟨statements, hstatements⟩ := hparsed
  refine ⟨statements.reduceOption.map (Quad.withDefault defaultGraph), ?_, fun quad => ?_⟩
  · rw [Content.quads, ← htexts]
    exact readQuads_quadsFrom_eq_ok.mpr ⟨statements, hstatements.symm, rfl⟩
  · have hok : Function.Injective (Except.ok : Option Quad → Except ParseError (Option Quad)) :=
      fun _ _ => Except.ok.inj
    have hmem (statement : Quad) : some statement ∈ statements ↔
        ∃ text, some text ∈ content.lines ∧ parseStatement text = .ok (some statement) := by
      rw [← List.mem_map_of_injective hok, hstatements, List.mem_map, ← htexts]
      simp
    simp only [List.mem_map, List.reduceOption_mem_iff, hmem]
    constructor
    · rintro ⟨statement, ⟨text, htext, hstatement⟩, rfl⟩
      exact ⟨text, statement, htext, hstatement, rfl⟩
    · rintro ⟨text, statement, htext, hstatement, rfl⟩
      exact ⟨statement, ⟨text, htext, hstatement⟩, rfl⟩

end Content

/-! ## One load -/

namespace Store

/-- The quads of a store's visible records, also those in graphs that no read shows, their names being
too long to be searched for. -/
def quads (store : Store) : Set Quad := quadsOf store.visible.records

/-- A store that can be changed and has no change pending. -/
structure Ready (store : Store) : Prop where
  writable : store.isReadOnly = false
  settled : store.staged = store.visible.records
  distinct : store.Distinct

variable {store : Store} {quads : List Quad}

/-- A row without a fault is that of the quads that are read of it. -/
lemma eq_map_ok_of_readQuads {items : List (Except ReadError Quad)} (h : readQuads items = .ok quads) :
    items = quads.map .ok := by
  induction items generalizing quads with
  | nil =>
    cases h
    rfl
  | cons item rest ih =>
    cases item with
    | error fault => cases h
    | ok quad =>
      obtain ⟨others, hothers, rfl⟩ := exists_of_map_eq_ok h
      rw [ih hothers]
      rfl

lemma addQuad_run (h : store.isReadOnly = false) (quad : Quad) :
    (addQuad quad).run store = (.ok (), store.after (addQuad quad)) := by
  obtain ⟨config, visible, writer, languages, stats⟩ := store
  cases writer with
  | none => cases h
  | some writer => rfl

lemma commit_run (h : store.isReadOnly = false) :
    commit store = (.ok (), store.after commit) := by
  obtain ⟨config, visible, writer, languages, stats⟩ := store
  cases writer with
  | none => cases h
  | some writer => rfl

lemma isReadOnly_after_commit (store : Store) :
    (store.after commit).isReadOnly = store.isReadOnly := by
  obtain ⟨config, visible, writer, languages, stats⟩ := store
  cases writer <;> rfl

lemma isReadOnly_afterAll_addQuad (store : Store) (quads : List Quad) :
    (store.afterAll (quads.map .addQuad)).isReadOnly = store.isReadOnly := by
  induction quads generalizing store with
  | nil => rfl
  | cons quad rest ih =>
    rw [List.map_cons, afterAll, List.foldl_cons, ← afterAll, ih]
    exact isReadOnly_after_add store quad.graph quad.triple

/-- After a commit nothing is pending. -/
lemma staged_after_commit (store : Store) :
    (store.after commit).staged = (store.after commit).visible.records := by
  obtain ⟨config, visible, writer, languages, stats⟩ := store
  cases writer with
  | none => rfl
  | some writer => exact Writer.records_committed_on writer.committed

/-- Quads that are added without a fault are counted. -/
lemma addWhileSound_ok (hwritable : store.isReadOnly = false) (added : Nat) :
    addWhileSound (quads.map .ok) added store =
      (added + quads.length, none, store.afterAll (quads.map .addQuad)) := by
  induction quads generalizing store added with
  | nil => rfl
  | cons quad rest ih =>
    have hnext : (store.after (addQuad quad)).isReadOnly = false := by
      rw [addQuad, isReadOnly_after_add, hwritable]
    have hcount : added + 1 + rest.length = added + (quad :: rest).length := by
      rw [List.length_cons]
      omega
    rw [List.map_cons, addWhileSound, addQuad_run hwritable]
    dsimp only
    rw [ih hnext, hcount]
    rfl

/-- Quads that are added one by one are staged in addition to those that were, if identifiers tell all of
them apart. -/
lemma quadsOf_staged_afterAll (hwritable : store.isReadOnly = false)
    (hids : Set.InjOn (fun quad : Quad => quad.record.id)
      (quadsOf store.staged ∪ {quad | quad ∈ quads})) :
    quadsOf (store.afterAll (quads.map .addQuad)).staged =
      quadsOf store.staged ∪ {quad | quad ∈ quads} := by
  induction quads generalizing store with
  | nil => simp [afterAll]
  | cons quad rest ih =>
    have hnext : (store.after (addQuad quad)).isReadOnly = false := by
      rw [addQuad, isReadOnly_after_add, hwritable]
    have hsplit : quadsOf store.staged ∪ {other | other ∈ quad :: rest} =
        insert quad (quadsOf store.staged) ∪ {other | other ∈ rest} := by
      have hcons : {other | other ∈ quad :: rest} = insert quad {other | other ∈ rest} := by
        ext other
        exact List.mem_cons
      rw [hcons, Set.union_insert, Set.insert_union]
    rw [hsplit] at hids ⊢
    have hstaged : quadsOf (store.after (addQuad quad)).staged =
        insert quad (quadsOf store.staged) := by
      rw [addQuad, staged_add _ _ _ hwritable]
      exact quadsOf_replace (hids.mono Set.subset_union_left)
    rw [← hstaged] at hids ⊢
    exact ih hnext hids

/-- **A load of a file without a bad line** adds its quads to those that are visible.  It counts the quads
that it has read, repeated ones included, and those that are visible afterwards. -/
theorem Ready.load (h : store.Ready) {content : Content} {defaultGraph : GraphName}
    (hquads : readQuads (content.quads defaultGraph) = .ok quads)
    (hids : Set.InjOn (fun quad : Quad => quad.record.id) (store.quads ∪ {quad | quad ∈ quads})) :
    ∃ store', store.load (some content) defaultGraph =
        (quads.length, .ok ⟨quads.length, (store.quads ∪ {quad | quad ∈ quads}).ncard⟩, store') ∧
      store'.Ready ∧ store'.quads = store.quads ∪ {quad | quad ∈ quads} := by
  have hwritable := h.writable
  rw [← isReadOnly_afterAll_addQuad store quads] at hwritable
  have hrun : addWhileSound (quads.map .ok) 0 store = _ := addWhileSound_ok h.writable 0
  rw [← eq_map_ok_of_readQuads hquads, Nat.zero_add] at hrun
  have hstaged : quadsOf store.staged = store.quads := by rw [h.settled]; rfl
  have hshown : ((store.afterAll (quads.map .addQuad)).after commit).quads =
      store.quads ∪ {quad | quad ∈ quads} := by
    rw [← hstaged] at hids ⊢
    rw [Store.quads, visible_commit, quadsOf_staged_afterAll h.writable hids]
  have hdistinct : ((store.afterAll (quads.map .addQuad)).after commit).Distinct := by
    have hload := (invariant_distinct Set.univ).load (some content) defaultGraph h.distinct
    rw [load_of_sound hrun, commit_run hwritable] at hload
    exact hload
  refine ⟨_, ?_, ⟨?_, staged_after_commit _, hdistinct⟩, hshown⟩
  · rw [load_of_sound hrun, commit_run hwritable, ← hshown, Store.quads,
      hdistinct.visible.ncard_quadsOf]
    rfl
  · rw [isReadOnly_after_commit, hwritable]

end Store

/-! ## Loads one after the other -/

/-- A file that is loaded, and the graph of its statements without one. -/
abbrev Loading := Content × GraphName

namespace Loading

/-- The step of a load. -/
def step (loading : Loading) : StoreStep := .load (some loading.1) loading.2

/-- The statements of a load. -/
def quads (loading : Loading) : Set Quad := loading.1.statements loading.2

end Loading

/-- The statements of loads. -/
def loadedQuads (loads : List Loading) : Set Quad := {quad | ∃ loading ∈ loads, quad ∈ loading.quads}

section

variable {loading : Loading} {loads more : List Loading}

lemma mem_loadedQuads {quad : Quad} :
    quad ∈ loadedQuads loads ↔ ∃ loading ∈ loads, quad ∈ loading.quads := Iff.rfl

lemma loadedQuads_nil : loadedQuads [] = ∅ := by
  ext quad
  simp [mem_loadedQuads]

lemma loadedQuads_cons : loadedQuads (loading :: loads) = loading.quads ∪ loadedQuads loads := by
  ext quad
  simp [mem_loadedQuads]

lemma loadedQuads_append : loadedQuads (loads ++ more) = loadedQuads loads ∪ loadedQuads more := by
  ext quad
  simp [mem_loadedQuads, or_and_right, exists_or]

end

namespace Store

/-- The store that loads leave. -/
def afterLoads (store : Store) (loads : List Loading) : Store :=
  store.afterSteps (loads.map Loading.step)

variable {store : Store} {loading : Loading} {loads : List Loading}

/-- **One load** of a file of which each line is read. -/
theorem Ready.afterLoad (h : store.Ready) (hparses : loading.1.Parses)
    (hids : Set.InjOn (fun quad : Quad => quad.record.id) (store.quads ∪ loading.quads)) :
    (store.afterLoads [loading]).Ready ∧
      (store.afterLoads [loading]).quads = store.quads ∪ loading.quads ∧
      ∃ quads, readQuads (loading.1.quads loading.2) = .ok quads ∧
        loading.quads = {quad | quad ∈ quads} ∧
        store.load (some loading.1) loading.2 =
          (quads.length, .ok ⟨quads.length, (store.quads ∪ loading.quads).ncard⟩,
            store.afterLoads [loading]) := by
  obtain ⟨quads, hquads, hmem⟩ := hparses.exists_quads loading.2
  have hset : loading.quads = {quad | quad ∈ quads} := by
    ext quad
    exact (hmem quad).symm
  rw [hset] at hids ⊢
  obtain ⟨store', hload, hready, hunion⟩ := h.load hquads hids
  have hafter : store.afterLoads [loading] = store' := congrArg (·.2.2) hload
  rw [hafter]
  exact ⟨hready, hunion, quads, hquads, rfl, hload⟩

/-- **Loads one after the other** add the statements of all of them. -/
theorem Ready.afterLoads (h : store.Ready) (hparses : ∀ loading ∈ loads, loading.1.Parses)
    (hids : Set.InjOn (fun quad : Quad => quad.record.id) (store.quads ∪ loadedQuads loads)) :
    (store.afterLoads loads).Ready ∧
      (store.afterLoads loads).quads = store.quads ∪ loadedQuads loads := by
  induction loads generalizing store with
  | nil =>
    rw [loadedQuads_nil, Set.union_empty]
    exact ⟨h, rfl⟩
  | cons loading rest ih =>
    obtain ⟨hfirst, hrest⟩ := List.forall_mem_cons.mp hparses
    rw [loadedQuads_cons, ← Set.union_assoc] at hids ⊢
    obtain ⟨hready, hquads, -⟩ := h.afterLoad hfirst (hids.mono Set.subset_union_left)
    rw [← hquads] at hids ⊢
    exact ih hready hrest hids

end Store

/-- If each line of a file stands in a file that is loaded with the same graph, the file is read, and its
statements are among those that are loaded. -/
lemma parses_of_lines_loaded {loads : List Loading} (h : ∀ loading ∈ loads, loading.1.Parses)
    {content : Content} {graph : GraphName}
    (hlines : ∀ line ∈ content.lines, ∃ loading ∈ loads, loading.2 = graph ∧
      line ∈ loading.1.lines) :
    content.Parses ∧ Loading.quads (content, graph) ⊆ loadedQuads loads := by
  constructor
  · intro line hline
    obtain ⟨loading, hloading, -, hmem⟩ := hlines line hline
    exact h loading hloading line hmem
  · rintro quad ⟨text, statement, hline, hstatement, hquad⟩
    obtain ⟨loading, hloading, rfl, hmem⟩ := hlines (some text) hline
    exact ⟨loading, hloading, text, statement, hmem, hstatement, hquad⟩

/-- **A load is a union.**  Take a store that can be changed and has no change pending, whatever was done
with it before, and files of which each line is read, such that identifiers tell apart all quads that
are visible or loaded.  A load counts the statements of its file, repeated ones included, reports the
numbers up to that in their order, makes the quads of the file visible together with those that were, and
returns how many these are.  So loading lines again that were loaded with the same graph, in any order
and any number, changes nothing that is visible, and neither does it matter in which order files are
loaded. -/
theorem loads_unite {config : StoreConfig} {index : Index} (hindex : QuadRecords index.records)
    {locked : Bool} {start : Store} (hstart : Store.create config index locked = .ok start)
    {steps : List StoreStep} {store : Store} (hstore : store = start.afterSteps steps)
    (hwritable : store.isReadOnly = false) (hsettled : store.staged = store.visible.records)
    {loads : List Loading} (hparses : ∀ loading ∈ loads, loading.1.Parses)
    (hids : Set.InjOn (fun quad : Quad => quad.record.id) (store.quads ∪ loadedQuads loads)) :
    (∀ content graph, (content, graph) ∈ loads →
      ∃ quads, readQuads (content.quads graph) = .ok quads ∧
        (∀ (σ : Type) (report : Nat → σ → σ) (seen : σ),
          store.loadReporting report (some content) graph seen =
            ((List.range' 1 quads.length).foldl (fun seen number => report number seen) seen,
              .ok ⟨quads.length, (store.quads ∪ {quad | quad ∈ quads}).ncard⟩,
              store.afterLoads [(content, graph)])) ∧
        (store.afterLoads [(content, graph)]).quads = store.quads ∪ {quad | quad ∈ quads}) ∧
    (∀ content graph, (∀ line ∈ content.lines, ∃ loading ∈ loads, loading.2 = graph ∧
        line ∈ loading.1.lines) →
      (store.afterLoads (loads ++ [(content, graph)])).quads = (store.afterLoads loads).quads) ∧
    ∀ loads', loads'.Perm loads → (store.afterLoads loads').quads = (store.afterLoads loads).quads := by
  have hready : store.Ready := by
    refine ⟨hwritable, hsettled, ?_⟩
    rw [hstore]
    exact (Store.invariant_distinct Set.univ).afterSteps steps (Store.distinct_create hindex hstart)
  refine ⟨?_, ?_, ?_⟩
  · intro content graph hloading
    have hsubset : Loading.quads (content, graph) ⊆ loadedQuads loads := fun quad hquad =>
      ⟨_, hloading, hquad⟩
    obtain ⟨-, hunion, quads, hread, hset, hload⟩ :=
      hready.afterLoad (hparses _ hloading) (hids.mono (Set.union_subset_union_right _ hsubset))
    rw [hset] at hunion hload
    refine ⟨quads, hread, fun σ report seen => ?_, hunion⟩
    rw [Store.loadReporting_eq, hload]
    rfl
  · intro content graph hlines
    obtain ⟨hcontent, hsubset⟩ := parses_of_lines_loaded hparses hlines
    have hsame : loadedQuads (loads ++ [(content, graph)]) = loadedQuads loads := by
      rw [loadedQuads_append, loadedQuads_cons, loadedQuads_nil, Set.union_empty,
        Set.union_eq_self_of_subset_right hsubset]
    have hall : ∀ loading ∈ loads ++ [(content, graph)], loading.1.Parses := by
      intro loading hloading
      rcases List.mem_append.mp hloading with hold | hnew
      · exact hparses loading hold
      · rw [List.mem_singleton.mp hnew]
        exact hcontent
    rw [(hready.afterLoads hparses hids).2, (hready.afterLoads hall (hsame ▸ hids)).2, hsame]
  · intro loads' hperm
    have hsame : loadedQuads loads' = loadedQuads loads := by
      ext quad
      simp only [mem_loadedQuads, hperm.mem_iff]
    have hall : ∀ loading ∈ loads', loading.1.Parses := fun loading hloading =>
      hparses loading (hperm.mem_iff.mp hloading)
    rw [(hready.afterLoads hparses hids).2, (hready.afterLoads hall (hsame ▸ hids)).2, hsame]

/-- A file with a statement that stands there twice and then in a graph. -/
def repeatedStatement : Content :=
  .plain "<s> <p> <o> .\n# again\n<s> <p> <o> .\n<s> <p> <o> <g> .\n".toUTF8.toList

lemma lines_repeatedStatement : repeatedStatement.lines =
    ["<s> <p> <o> .".toList, "# again".toList, "<s> <p> <o> .".toList, "<s> <p> <o> <g> .".toList].map
      some := by
  decide +kernel

/-- A statement that is visible already is loaded twice, and once in a graph.  Loading the file
again changes nothing. -/
theorem loads_unite_repeated :
    let triple : Triple := ⟨.iri ⟨"s"⟩, ⟨"p"⟩, .iri ⟨"o"⟩⟩
    let shown : Quad := ⟨triple, .default⟩
    let other : Quad := ⟨triple, .named (.iri ⟨"g"⟩)⟩
    let loading : Loading := (repeatedStatement, .default)
    ∃ start store store', Store.create {} .empty false = .ok start ∧
      store = start.afterSteps [.command (.addQuad shown), .command .commit] ∧
      store.loadReporting (fun number seen => seen ++ [number]) (some repeatedStatement) .default [] =
        ([1, 2, 3], .ok ⟨3, 2⟩, store') ∧
      store.quads = {shown} ∧ store'.quads = {shown, other} ∧
      (store.afterLoads [loading, loading]).quads = {shown, other} := by
  intro triple shown other loading
  let start : Store := ⟨{}, .empty, some (.on .empty), .empty, .zero⟩
  let store : Store := start.afterSteps [.command (.addQuad shown), .command .commit]
  have hshown : parseStatement "<s> <p> <o> .".toList = .ok (some shown) := by decide +kernel
  have hcomment : parseStatement "# again".toList = .ok none := by decide +kernel
  have hother : parseStatement "<s> <p> <o> <g> .".toList = .ok (some other) := by decide +kernel
  have hparses : repeatedStatement.Parses := by
    intro line hline
    rw [lines_repeatedStatement] at hline
    simp only [List.map_cons, List.map_nil, List.mem_cons, List.not_mem_nil, or_false] at hline
    rcases hline with rfl | rfl | rfl | rfl
    · exact ⟨_, _, rfl, hshown⟩
    · exact ⟨_, _, rfl, hcomment⟩
    · exact ⟨_, _, rfl, hshown⟩
    · exact ⟨_, _, rfl, hother⟩
  have hread : readQuads (repeatedStatement.quads .default) = .ok [shown, shown, other] := by
    rw [Content.quads, lines_repeatedStatement]
    refine readQuads_quadsFrom_eq_ok.mpr ⟨[some shown, none, some shown, some other], ?_, rfl⟩
    simp only [List.map_cons, List.map_nil, hshown, hcomment, hother]
  have hquads : loading.quads = {shown, other} := by
    obtain ⟨quads, hquads, hmem⟩ := hparses.exists_quads .default
    rw [hread] at hquads
    obtain rfl := Except.ok.inj hquads
    ext quad
    rw [Loading.quads, ← hmem]
    simp
  have hstore : store.quads = {shown} := by
    ext quad
    have hrecords : store.visible.records = [shown.record] := rfl
    rw [Store.quads, mem_quadsOf, hrecords, List.mem_singleton, Quad.record_injective.eq_iff]
    rfl
  have hne : shown.record.id ≠ other.record.id := by decide +kernel
  have hunion : store.quads ∪ loading.quads = {shown, other} := by
    rw [hstore, hquads, Set.singleton_union, Set.insert_eq_of_mem (Set.mem_insert _ _)]
  have hids : Set.InjOn (fun quad : Quad => quad.record.id) (store.quads ∪ loadedQuads [loading]) := by
    rw [loadedQuads_cons, loadedQuads_nil, Set.union_empty, hunion]
    rintro quad (rfl | rfl) quad' (rfl | rfl) hid
    · rfl
    · exact absurd hid hne
    · exact absurd hid.symm hne
    · rfl
  have hempty : QuadRecords Index.empty.records := .nil
  have hcreate : Store.create {} .empty false = .ok start := rfl
  obtain ⟨hload, hrepeat, -⟩ := loads_unite hempty hcreate rfl (rfl : store.isReadOnly = false) rfl
    (List.forall_mem_singleton.mpr hparses) hids
  obtain ⟨quads, hquads', hreport, hshows⟩ :=
    hload repeatedStatement .default (List.mem_singleton.mpr rfl)
  rw [hread] at hquads'
  obtain rfl := Except.ok.inj hquads'
  have hset : store.quads ∪ {quad | quad ∈ [shown, shown, other]} = {shown, other} := by
    rw [hstore]
    ext quad
    simp
  have hcard : ({shown, other} : Set Quad).ncard = 2 := Set.ncard_pair fun h => hne (h ▸ rfl)
  have hreported := hreport (List Nat) (fun number seen => seen ++ [number]) []
  rw [hset, hcard] at hreported
  rw [hset] at hshows
  refine ⟨start, store, store.afterLoads [loading], hcreate, rfl, hreported, hstore, hshows, ?_⟩
  have hagain := hrepeat repeatedStatement .default fun line hline =>
    ⟨loading, List.mem_singleton.mpr rfl, rfl, hline⟩
  rw [← hshows, ← hagain]
  rfl

end QuadStore
