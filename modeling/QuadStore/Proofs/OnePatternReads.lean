import Mathlib
import QuadStore.Proofs.NestedLoops
import QuadStore.Proofs.StoreInvariants

/-!
# Three ways of reading a pattern

What matches a pattern can be counted, it can be found, and it can be queried for.  Counting looks at
all records at once; finding pages through them and reads each; a query pages through their numbers
first, and reads and binds each later, when its row is asked for.  Counting and finding take the
variables of the pattern for independent.  A query does not: a statement makes a row only if it has the
same term wherever the pattern has the same variable (`TriplePattern.Fits`).

Still the three see the same records in the same order (`Store.ReadsAs`).  They build the same
predicates, and both scans deliver what these find in the index, whatever the length of a page and the
direction (`Index.answers_source`).  So the rows of the query are the bindings of those statements that
fit, among the ones that are found.
-/

namespace QuadStore

/-! ## The binding of a statement -/

namespace TriplePattern

/-- A statement has the same term wherever the pattern has the same variable. -/
def Fits (pattern : TriplePattern) (triple : Triple) : Prop :=
  ∀ v position other, (position, Slot.var v) ∈ pattern.slots → (other, Slot.var v) ∈ pattern.slots →
    triple.at position = triple.at other

/-- The terms that a statement has for the variables of a pattern, each variable once. -/
def bindingIn (pattern : TriplePattern) (triple : Triple) : Binding :=
  ⟨(pattern.valuesIn triple).eraseDups⟩

variable {pattern : TriplePattern} {triple : Triple}

lemma fits_iff : pattern.Fits triple ↔ Functional (pattern.valuesIn triple) := by
  constructor
  · rintro hfits ⟨v, term⟩ hfirst ⟨w, other⟩ hsecond hvar
    obtain rfl : v = w := hvar
    obtain ⟨position, hslot, rfl⟩ := mem_slotValues.mp hfirst
    obtain ⟨position', hslot', rfl⟩ := mem_slotValues.mp hsecond
    exact hfits v position position' hslot hslot'
  · intro hfunctional v position other hslot hslot'
    exact hfunctional _ (mem_slotValues.mpr ⟨position, hslot, rfl⟩) _
      (mem_slotValues.mpr ⟨other, hslot', rfl⟩) rfl

instance (pattern : TriplePattern) (triple : Triple) : Decidable (pattern.Fits triple) :=
  decidable_of_iff _ fits_iff.symm

lemma keys_valuesIn (pattern : TriplePattern) (triple : Triple) :
    (pattern.valuesIn triple).map Prod.fst = pattern.occurrences := by
  rw [valuesIn, slotValues, List.map_filterMap, occurrences]
  apply List.filterMap_congr
  rintro ⟨position, term | v⟩ - <;> rfl

/-- Every statement fits a pattern whose variables are different. -/
lemma fits_of_nodup (h : pattern.occurrences.Nodup) : pattern.Fits triple := by
  rw [← keys_valuesIn pattern triple] at h
  exact fits_iff.mpr (Distinct.functional h)

end TriplePattern

/-- From no row, a statement makes one if it fits the pattern, and this is its binding. -/
lemma extendRow_nil (pattern : TriplePattern) (triple : Triple) :
    extendRow pattern triple [] =
      if pattern.Fits triple then some (pattern.bindingIn triple).values else none := by
  have hagrees : AgreesWith [] (pattern.valuesIn triple) := fun _ _ _ _ hvalue => nomatch hvalue
  have hspec := extendRow_spec distinct_nil hagrees
  cases hextend : extendRow pattern triple [] with
  | none =>
    rw [hextend] at hspec
    exact (if_neg (mt TriplePattern.fits_iff.mp hspec)).symm
  | some extended =>
    rw [hextend] at hspec
    obtain ⟨-, hfunctional, -⟩ := hspec
    obtain ⟨found, hcollect, hrow⟩ := Option.map_eq_some_iff.mp hextend
    have hfound := collectValues_eq (by simp) hcollect
    rw [if_pos (TriplePattern.fits_iff.mpr hfunctional), ← hrow, hfound]
    simp [TriplePattern.bindingIn, openValues, TriplePattern.valuesIn]

/-- From no row, statements make the bindings of those that fit. -/
lemma filterMap_extendRow_nil (pattern : TriplePattern) (triples : List Triple) :
    (triples.filterMap fun triple => extendRow pattern triple []).map Binding.mk =
      (triples.filter (pattern.Fits ·)).map pattern.bindingIn := by
  rw [List.map_filterMap, ← List.filterMap_eq_map, List.filterMap_filter]
  apply List.filterMap_congr
  intro triple _
  rw [extendRow_nil]
  by_cases hfits : pattern.Fits triple <;> simp [hfits]

/-! ## A query of one pattern -/

namespace Evaluation

variable {σ : Type} {evaluation : Evaluation σ} {constraints : List Constraint}
  {pattern : TriplePattern}

/-- The join of one pattern is what resolving it gives, if this is anything. -/
lemma join_singleton {state resolved : JoinState σ} {records : List RecordId}
    (hresolve : evaluation.resolve constraints pattern none state = (.ok records, resolved)) :
    ∃ joined, evaluation.join constraints [pattern] state =
      (.ok (if records.isEmpty then none else some (.leaf ⟨pattern, records, none⟩)), joined) := by
  let counted : JoinState σ :=
    { resolved with stats.patternsResolved := resolved.stats.patternsResolved + 1 }
  have hcount : (countPattern : JoinM σ Unit) resolved = (.ok (), counted) := rfl
  have hall : evaluation.resolveAll constraints [pattern] state =
      (.ok (if records.isEmpty then none else some [⟨pattern, records, none⟩]), counted) := by
    unfold resolveAll
    rw [bind_ok hresolve, bind_ok hcount]
    split <;> rfl
  refine ⟨counted, ?_⟩
  unfold join
  rw [bind_ok hall]
  split
  · rfl
  · simp only [joinOrder, List.mergeSort_singleton]
    rfl

/-- **A query of one pattern** has as rows the bindings of those statements that fit the pattern, among
the ones that are found for its predicates and in the same order. -/
theorem run_singleton {filters : List Predicate} {holdings : Holdings}
    (hfinds : evaluation.Finds filters holdings.ids)
    (hfilters : built (queryPredicates evaluation.graph constraints pattern fun _ => none) =
      .ok filters)
    (hreads : evaluation.source.Reads holdings.ids fun id => (holdings.quad id).triple)
    {languages : LanguageCache} (hlanguages : languages.Sound) (state : σ) :
    ∃ solutions languages' state', evaluation.run constraints [pattern] languages state =
        (some (.ok solutions), languages', state') ∧
      solutions.Lists evaluation.source
        ((((evaluation.order.sorted holdings.ids).map fun id => (holdings.quad id).triple).filter
          (pattern.Fits ·)).map pattern.bindingIn) := by
  let start : JoinState σ := ⟨state, languages, .empty, .zero⟩
  have hlookup : start.arena.lookup none = fun _ => none := rfl
  obtain ⟨source, languages', -, hresolve⟩ :=
    resolve_of_finds start (hlookup ▸ hfilters) hfinds hlanguages
  obtain ⟨joined, hjoin⟩ := join_singleton hresolve
  let records := evaluation.order.sorted holdings.ids
  let triples := records.map fun id => (holdings.quad id).triple
  have hmakes : Makes holdings joined.arena
      (triples.filterMap fun triple => extendRow pattern triple [])
      (if records.isEmpty then none else some (.leaf ⟨pattern, records, none⟩)) := by
    rw [List.filterMap_map]
    split
    · rename_i hempty
      show records.filterMap _ = []
      rw [List.isEmpty_iff.mp hempty, List.filterMap_nil]
    · refine ⟨_, stands_candidates joined.arena.represents_none, fun item hitem => ?_, ?_⟩
      · obtain ⟨id, hid, rfl⟩ := List.mem_map.mp hitem
        exact (evaluation.order.sorted_perm _).mem_iff.mp hid
      · rw [levelRows, List.filterMap_map]
        rfl
  obtain ⟨solutions, hrun, hlists⟩ := run_of_join hreads (by simp) hjoin hmakes
  rw [filterMap_extendRow_nil] at hlists
  exact ⟨solutions, _, _, hrun, hlists⟩

end Evaluation

/-! ## The store -/

namespace Store

variable {store : Store} {graph : GraphName} {pattern : TriplePattern}

lemma query_ok {patterns : List TriplePattern} {constraints : List Constraint}
    {solutions : Solutions} {languages : LanguageCache} {stats : Statistics}
    (h : (store.evaluation graph).run constraints patterns store.languages store.stats =
      (some (.ok solutions), languages, stats)) :
    (query graph patterns constraints store).1 = .ok solutions := by
  unfold query
  rw [h]

/-- What matches a pattern are these statements, however the store is read.  Finding lists them, and
knows after its first step how many they are; counting gives their number; and the rows of a query are
the bindings of those that fit. -/
structure ReadsAs (store : Store) (graph : GraphName) (pattern : TriplePattern)
    (triples : List Triple) : Prop where
  found : ∃ scan, (find graph pattern store).1 = .ok scan ∧
    scan.Lists store.visible.source store.visible.scanFuel triples ∧
    ∀ stats, (scan.next store.visible.source stats).2.1.total = some triples.length
  counted : (count graph pattern store).1 = .ok triples.length
  queried : ∃ solutions, (query graph [pattern] [] store).1 = .ok solutions ∧
    solutions.Lists store.visible.source
      ((triples.filter (pattern.Fits ·)).map pattern.bindingIn)

/-- **In a sound store** the three ways of reading a pattern see the same statements. -/
theorem Sound.exists_readsAs {config : StoreConfig} (h : store.Sound config)
    (hlength : 0 < config.fetchSize) (hpattern : pattern.Buildable) (graph : GraphName) :
    ∃ triples, store.ReadsAs graph pattern triples := by
  obtain ⟨filters, hfilters, -⟩ := exists_built_patternPredicates graph hpattern fun _ => none
  have hordered := h.visible.ordered
  obtain ⟨holdings, hids, -, hreads⟩ := store.visible.exists_holdings hordered h.visible.quads filters
  have hfetch : 0 < store.config.fetchSize := h.config_eq ▸ hlength
  let order := store.config.order
  let triple : RecordId → Triple := fun id => (holdings.quad id).triple
  have hfound := store.visible.nodup_found hordered filters
  have hanswers := store.visible.answers_source hordered filters
  have hcount : ((order.sorted (store.visible.found filters)).map triple).length =
      (store.visible.found filters).length := by
    rw [List.length_map, order.length_sorted]
  have hquery : built (queryPredicates graph [] pattern fun _ => none) = .ok filters := by
    rw [built_queryPredicates_nil, hfilters]
  have hfinds : (store.evaluation graph).Finds filters holdings.ids := by
    rw [hids]
    exact ⟨hfound, hanswers, Nat.lt_of_lt_of_le Nat.one_pos (Nat.le_max_right _ _),
      store.visible.length_found_lt hordered filters⟩
  obtain ⟨solutions, languages, stats, hrun, hlists⟩ :=
    Evaluation.run_singleton hfinds hquery hreads h.languages store.stats
  rw [hids] at hreads hlists
  refine ⟨(order.sorted (store.visible.found filters)).map triple, ?_, ?_, ?_⟩
  · refine ⟨_, find_ok h.languages hfilters, ?_, fun stats => ?_⟩
    · exact Index.lists_of_reads hordered hreads hfetch order
    · rw [hcount]
      exact Scan.total_next_of_answers order hfound hanswers hreads hfetch stats
  · rw [count_ok h.languages hfilters, hcount, Index.length_found hordered]
  · exact ⟨solutions, query_ok hrun, hlists⟩

end Store

/-- **Finding, counting and a query of one pattern agree**.  Take a store on an index of well-formed
quads, any commands that add such quads, and pages of at least one record.  If the predicates of a
pattern can be built, there are statements that finding lists, whose number is counted and is known
after the first step of finding, and of which a query has the bindings, in the same order, of those
that have the same term wherever the pattern has the same variable: of all, if its variables are
different.  If they cannot be built, finding and counting fail alike. -/
theorem reads_agree {config : StoreConfig} (hlength : 0 < config.fetchSize) {index : Index}
    (hindex : index.Sound) {locked : Bool} {store : Store}
    (hstore : Store.create config index locked = .ok store) {commands : List StoreCommand}
    (hadds : ∀ command ∈ commands, command.Adds { quad | quad.WellFormed }) (graph : GraphName)
    (pattern : TriplePattern) :
    let reached := store.afterAll commands
    (pattern.Buildable → ∃ triples, reached.ReadsAs graph pattern triples ∧
      (pattern.occurrences.Nodup → triples.filter (pattern.Fits ·) = triples)) ∧
    (¬ pattern.Buildable → ∃ fault, (Store.count graph pattern reached).1 = .error fault ∧
      (Store.find graph pattern reached).1 = .error fault) := by
  intro reached
  have hsound : reached.Sound config :=
    (Store.invariant_sound config).afterAll hadds (Store.sound_create hindex hstore)
  refine ⟨fun hpattern => ?_, fun hpattern => ?_⟩
  · obtain ⟨triples, hreads⟩ := hsound.exists_readsAs hlength hpattern graph
    refine ⟨triples, hreads, fun hnodup => List.filter_eq_self.mpr fun triple _ => ?_⟩
    exact decide_eq_true (TriplePattern.fits_of_nodup hnodup)
  · cases hbuilt : built (patternPredicates graph pattern fun _ => none) with
    | ok filters => exact absurd (buildable_of_built hbuilt) hpattern
    | error fault =>
      exact ⟨_, Store.count_error hsound.languages hbuilt, Store.find_error hsound.languages hbuilt⟩

/-- Statements of two commits, read backwards in pages of one record, for a pattern that has one variable
twice: both are found, and the query makes rows of those that fit.  For a number that is none, finding
and counting fail. -/
theorem reads_agree_repeated :
    let statement (subject object : String) : Triple := ⟨.iri ⟨subject⟩, ⟨"p"⟩, .iri ⟨object⟩⟩
    let pattern : TriplePattern := ⟨.var ⟨"x"⟩, .term (.iri ⟨"p"⟩), .var ⟨"x"⟩⟩
    let many : Term := .literal (.ofDatatype "many" Xsd.integer)
    let number : TriplePattern := ⟨.var ⟨"x"⟩, .term (.iri ⟨"p"⟩), .term many⟩
    let commands : List StoreCommand :=
      [.add .default (statement "a" "a"), .commit, .add .default (statement "a" "b"), .commit]
    ∃ store triples, Store.create { fetchSize := 1, order := .descending } .empty false = .ok store ∧
      triples.length = 2 ∧ (store.afterAll commands).ReadsAs .default pattern triples ∧
      ∃ fault, (Store.count .default number (store.afterAll commands)).1 = .error fault ∧
        (Store.find .default number (store.afterAll commands)).1 = .error fault := by
  intro statement pattern many number commands
  let store : Store :=
    ⟨{ fetchSize := 1, order := .descending }, .empty, some (.on .empty), .empty, .zero⟩
  have hstore : Store.create { fetchSize := 1, order := .descending } .empty false = .ok store := rfl
  have hindex : Index.empty.Sound := ⟨Index.ordered_empty, nofun⟩
  have hadds : ∀ command ∈ commands, command.Adds { quad | quad.WellFormed } := by
    have hwellFormed : ∀ subject object, Quad.WellFormed ⟨statement subject object, .default⟩ :=
      fun _ _ => ⟨⟨trivial, trivial⟩, trivial⟩
    simp [commands, StoreCommand.Adds, hwellFormed]
  have hagree := reads_agree (by decide) hindex hstore hadds .default
  have hpattern : pattern.Buildable := by
    intro position term hslot
    simp only [pattern, TriplePattern.slots, List.mem_cons, Prod.mk.injEq, reduceCtorEq, and_false,
      false_or, Slot.term.injEq, List.not_mem_nil, or_false] at hslot
    obtain ⟨rfl, rfl⟩ := hslot
    exact ⟨_, rfl⟩
  have hnumber : ¬ number.Buildable := by
    intro h
    have hmany : (Position.object, Slot.term many) ∈ number.slots := by
      simp [number, TriplePattern.slots]
    have herror : built (positionPredicates .object many) = .error (.invalidValue .numeric "many") := by
      decide +kernel
    obtain ⟨filters, hfilters⟩ := h .object many hmany
    rw [herror] at hfilters
    cases hfilters
  obtain ⟨triples, hreads, -⟩ := (hagree pattern).1 hpattern
  have hcount : (Store.count .default pattern (store.afterAll commands)).1 = .ok 2 := by
    decide +kernel
  rw [hreads.counted] at hcount
  exact ⟨store, triples, hstore, Except.ok.inj hcount, hreads, (hagree number).2 hnumber⟩

end QuadStore
