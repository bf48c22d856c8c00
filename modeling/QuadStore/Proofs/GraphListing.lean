import Mathlib
import QuadStore.Proofs.StoreInvariants

/-!
# The graphs of a store

The named graphs are listed from the dictionaries of the segments.  A dictionary keeps a graph when its
records are deleted, and several dictionaries may have the same graph, so that the listing is more than
the live graphs and each name in it is read back and counted before it is given out.

What has to be kept for that is that a dictionary lacks no graph: that of every record of the segment is
in it, unless its name is too long to be a key (`Index.Catalogued`).  Every command keeps it, whether it
succeeds or not (`Store.invariant_catalogued`), and so the graphs that are listed are exactly those with
statements, and together with the default graph they have all records that can be found
(`graphNames_exact`).

A record whose graph has too long a name is in no dictionary and is not counted for its graph, but it is
one of the records (`long_graph_unlisted`).
-/

namespace QuadStore

/-! ## Dictionaries that lack no graph -/

/-- A text is the written form of a well-formed graph name. -/
def WritesGraph (term : String) : Prop := ∃ graph : GraphName, graph.WellFormed ∧ graph.encode = term

lemma WritesGraph.wellFormed {graph : GraphName} (h : WritesGraph graph.encode) :
    graph.WellFormed := by
  obtain ⟨other, hwellFormed, hsame⟩ := h
  exact GraphName.encode_injective hsame ▸ hwellFormed

namespace Segment

/-- The dictionary and the records of a segment have graphs with well-formed names, and no record's graph
is missing in the dictionary if it is a key. -/
structure Catalogued (segment : Segment) : Prop where
  terms : ∀ term ∈ segment.graphs, WritesGraph term
  graphs : ∀ place ∈ segment.records, WritesGraph place.2.graph
  listed : ∀ place ∈ segment.records, isKey place.2.graph = true → place.2.graph ∈ segment.graphs

lemma catalogued_empty : Catalogued ⟨[], []⟩ := ⟨nofun, nofun, nofun⟩

/-- Erasing leaves the dictionary, which still has the graphs of the records that are left. -/
lemma Catalogued.erase {segment : Segment} (h : segment.Catalogued) (condition : Record → Bool) :
    (segment.erase condition).Catalogued where
  terms := h.terms
  graphs := fun place hplace => h.graphs place (List.mem_of_mem_filter hplace)
  listed := fun place hplace => h.listed place (List.mem_of_mem_filter hplace)

lemma mem_addGraph {graphs : List String} {graph term : String} :
    term ∈ addGraph graphs graph ↔ term ∈ graphs ∨ isKey term = true ∧ term = graph := by
  unfold addGraph
  split_ifs with h
  · rw [iff_self_or]
    rintro ⟨hkey, rfl⟩
    rcases h with hmem | hlong
    · exact hmem
    · rw [hkey] at hlong
      cases hlong
  · rw [not_or, Bool.not_eq_false] at h
    rw [List.mem_append, List.mem_singleton]
    exact or_congr_right ⟨fun hterm => ⟨hterm ▸ h.2, hterm⟩, And.right⟩

lemma nodup_addGraph {graphs : List String} (h : graphs.Nodup) (graph : String) :
    (addGraph graphs graph).Nodup := by
  unfold addGraph
  split_ifs with hmem
  · exact h
  · rw [not_or] at hmem
    exact List.nodup_append'.mpr ⟨h, List.nodup_singleton _, List.disjoint_singleton.mpr hmem.1⟩

end Segment

namespace Index

variable {index : Index}

/-- No segment's dictionary lacks a graph. -/
def Catalogued (index : Index) : Prop := ∀ segment ∈ index.segments, segment.Catalogued

lemma catalogued_empty : empty.Catalogued := by
  intro segment hsegment
  cases hsegment

lemma Catalogued.erase (h : index.Catalogued) (condition : Record → Bool) :
    (index.erase condition).Catalogued := by
  intro segment hsegment
  obtain ⟨before, hbefore, rfl⟩ := List.mem_map.mp hsegment
  exact (h before hbefore).erase condition

lemma Catalogued.compact (h : index.Catalogued) : index.compact.Catalogued := by
  intro segment hsegment
  exact h segment (List.mem_of_mem_filter hsegment)

end Index

namespace Writer

/-- A writer none of whose dictionaries lacks a graph. -/
structure Catalogued (writer : Writer) : Prop where
  image : writer.image.Catalogued
  pending : writer.pending.Catalogued

lemma catalogued_on {index : Index} (h : index.Catalogued) : (on index).Catalogued :=
  ⟨h, Segment.catalogued_empty⟩

namespace Catalogued

variable {writer : Writer}

lemma erase (h : writer.Catalogued) (condition : Record → Bool) :
    (writer.erase condition).Catalogued :=
  ⟨h.image.erase condition, h.pending.erase condition⟩

/-- The graph of a record goes into the dictionary together with the record. -/
lemma add (h : writer.Catalogued) {record : Record} (hgraph : WritesGraph record.graph) :
    (writer.add record).Catalogued where
  image := h.image.erase _
  pending := by
    have hrest := h.pending.erase fun old => old.id == record.id
    constructor
    · intro term hterm
      rcases Segment.mem_addGraph.mp hterm with hold | ⟨-, rfl⟩
      · exact hrest.terms term hold
      · exact hgraph
    · intro place hplace
      rcases List.mem_append.mp hplace with hold | hnew
      · exact hrest.graphs place hold
      · exact List.mem_singleton.mp hnew ▸ hgraph
    · intro place hplace hkey
      apply Segment.mem_addGraph.mpr
      rcases List.mem_append.mp hplace with hold | hnew
      · exact .inl (hrest.listed place hold hkey)
      · exact .inr ⟨hkey, congrArg (·.2.graph) (List.mem_singleton.mp hnew)⟩

lemma clearAll (h : writer.Catalogued) : writer.clearAll.Catalogued :=
  ⟨Index.catalogued_empty, h.pending⟩

lemma committed (h : writer.Catalogued) : writer.committed.Catalogued := by
  apply Index.Catalogued.compact
  intro segment hsegment
  rcases List.mem_append.mp hsegment with himage | hpending
  · exact h.image segment himage
  · exact List.mem_singleton.mp hpending ▸ h.pending

end Catalogued

end Writer

namespace Store

/-- A store that shows, and would commit, no dictionary that lacks a graph. -/
structure Catalogued (store : Store) : Prop where
  visible : store.visible.Catalogued
  writer : ∀ writer, store.writer = some writer → writer.Catalogued

/-- **No command loses a graph**, if those that it adds to have well-formed names. -/
theorem invariant_catalogued : Invariant { quad | quad.graph.WellFormed } Catalogued where
  asked := fun _ _ h => ⟨h.visible, h.writer⟩
  counted := fun _ h => ⟨h.visible, h.writer⟩
  added := fun hwriter quad hquad h =>
    ⟨h.visible, fun _ hnew =>
      Option.some.inj hnew ▸ (h.writer _ hwriter).add ⟨quad.graph, hquad, rfl⟩⟩
  erased := fun hwriter _ h =>
    ⟨h.visible, fun _ hnew => Option.some.inj hnew ▸ (h.writer _ hwriter).erase _⟩
  cleared := fun hwriter h =>
    ⟨h.visible, fun _ hnew => Option.some.inj hnew ▸ (h.writer _ hwriter).clearAll⟩
  committed := fun hwriter h =>
    ⟨(h.writer _ hwriter).committed,
      fun _ hnew => Option.some.inj hnew ▸ Writer.catalogued_on (h.writer _ hwriter).committed⟩

lemma catalogued_create {config : StoreConfig} {index : Index} (h : index.Catalogued) {locked : Bool}
    {store : Store} (hstore : create config index locked = .ok store) : store.Catalogued := by
  obtain rfl := create_eq hstore
  refine ⟨h, fun writer hwriter => ?_⟩
  cases locked with
  | true => cases hwriter
  | false => exact Option.some.inj hwriter ▸ Writer.catalogued_on h

end Store

/-! ## The terms of all dictionaries -/

section

variable {terms graphs : List String} {term : String}

lemma mem_foldl_addGraph : term ∈ terms.foldl Segment.addGraph graphs ↔
    term ∈ graphs ∨ isKey term = true ∧ term ∈ terms := by
  induction terms generalizing graphs with
  | nil => simp
  | cons first rest ih =>
    rw [List.foldl_cons, ih, Segment.mem_addGraph, List.mem_cons, and_or_left, or_assoc]

lemma nodup_foldl_addGraph (h : graphs.Nodup) : (terms.foldl Segment.addGraph graphs).Nodup := by
  induction terms generalizing graphs with
  | nil => exact h
  | cons first rest ih => exact ih (Segment.nodup_addGraph h first)

end

namespace Index

variable {index : Index}

lemma mem_graphTerms {term : String} : term ∈ index.graphTerms ↔
    isKey term = true ∧ ∃ segment ∈ index.segments, term ∈ segment.graphs := by
  unfold graphTerms
  rw [List.mem_mergeSort, mem_foldl_addGraph, List.mem_flatMap]
  simp

/-- **The terms are in strict order**, also if several dictionaries have the same. -/
theorem pairwise_graphTerms (index : Index) : index.graphTerms.Pairwise (· < ·) := by
  have hsorted : index.graphTerms.Pairwise fun a b => !decide (b < a) := by
    apply List.pairwise_mergeSort
    · intro a b c hab hbc
      simp only [Bool.not_eq_true', decide_eq_false_iff_not, not_lt] at hab hbc ⊢
      exact hab.trans hbc
    · intro a b
      simp only [Bool.or_eq_true, Bool.not_eq_true', decide_eq_false_iff_not, not_lt]
      exact le_total a b
  have hnodup : index.graphTerms.Nodup :=
    (List.mergeSort_perm _ _).nodup_iff.mpr (nodup_foldl_addGraph List.nodup_nil)
  apply hsorted.imp₂ _ hnodup
  intro a b hab hne
  simp only [Bool.not_eq_true', decide_eq_false_iff_not, not_lt] at hab
  exact lt_of_le_of_ne hab hne

/-! ## The number of records of a graph -/

/-- How many records are found by the predicate for a graph. -/
def graphSize (index : Index) (graph : GraphName) : Nat := index.count [graphPredicate graph]

/-- The written forms of the graphs of all records. -/
def recordGraphs (index : Index) : List String := index.records.map Record.graph

/-- The records that are found for a graph are those that have its written form, if that is a key. -/
lemma graphSize_eq (index : Index) (graph : GraphName) : index.graphSize graph =
    if isKey graph.encode = true then index.recordGraphs.count graph.encode else 0 := by
  unfold graphSize Index.count recordGraphs
  have hsatisfies (record : Record) : record.satisfies [graphPredicate graph] =
      (isKey graph.encode && record.graph == graph.encode) :=
    Bool.and_true _
  simp only [hsatisfies]
  split_ifs with hkey
  · simp only [hkey, Bool.true_and, ← List.countP_eq_length_filter]
    rw [List.count_eq_countP, List.countP_map]
    rfl
  · simp [hkey]

lemma graphSize_pos {graph : GraphName} : 0 < index.graphSize graph ↔
    isKey graph.encode = true ∧ graph.encode ∈ index.recordGraphs := by
  rw [graphSize_eq]
  split_ifs with hkey
  · rw [List.count_pos_iff, and_iff_right hkey]
  · simp [hkey]

lemma countP_long (index : Index) : (index.records.countP fun record => !isKey record.graph) =
    index.recordGraphs.countP fun term => !isKey term := by
  rw [recordGraphs, List.countP_map]
  rfl

/-- A graph that has records is a term of some dictionary. -/
lemma Catalogued.mem_graphTerms (h : index.Catalogued) {graph : GraphName}
    (hpos : 0 < index.graphSize graph) : graph.encode ∈ index.graphTerms := by
  obtain ⟨hkey, hmem⟩ := graphSize_pos.mp hpos
  obtain ⟨record, hrecord, hgraph⟩ := List.mem_map.mp hmem
  obtain ⟨segment, hsegment, hstands⟩ := List.mem_flatMap.mp hrecord
  obtain ⟨place, hplace, rfl⟩ := List.mem_map.mp hstands
  refine Index.mem_graphTerms.mpr ⟨hkey, segment, hsegment, ?_⟩
  rw [← hgraph] at hkey ⊢
  exact (h segment hsegment).listed place hplace hkey

/-- Every term of a dictionary is the written form of a graph. -/
lemma Catalogued.exists_graphs (h : index.Catalogued) : ∃ graphs : List GraphName,
    (∀ graph ∈ graphs, graph.WellFormed) ∧ graphs.map GraphName.encode = index.graphTerms := by
  have hwrites : ∀ term ∈ index.graphTerms, WritesGraph term := by
    intro term hterm
    obtain ⟨-, segment, hsegment, hmem⟩ := Index.mem_graphTerms.mp hterm
    exact (h segment hsegment).terms term hmem
  have hrange : index.graphTerms ∈ Set.range (List.map GraphName.encode) := by
    rw [Set.range_list_map]
    intro term hterm
    obtain ⟨graph, -, hgraph⟩ := hwrites term hterm
    exact ⟨graph, hgraph⟩
  obtain ⟨graphs, hgraphs⟩ := hrange
  refine ⟨graphs, fun graph hgraph => ?_, hgraphs⟩
  exact (hwrites _ (hgraphs ▸ List.mem_map_of_mem hgraph)).wellFormed

end Index

/-! ## The partition of the records -/

lemma isKey_unnamedGraph : isKey unnamedGraph = true := by decide +kernel

/-- A text is the written form of the default graph, another key, or too long. -/
lemma length_eq_count_unnamed_add (texts : List String) : texts.length =
    texts.count unnamedGraph + texts.countP (fun text => isKey text && text != unnamedGraph) +
      texts.countP fun text => !isKey text := by
  induction texts with
  | nil => rfl
  | cons text rest ih =>
    rw [List.length_cons, ih]
    by_cases hunnamed : text = unnamedGraph
    · subst hunnamed
      simp [isKey_unnamedGraph]
      omega
    · cases hkey : isKey text <;> simp [hkey, hunnamed] <;> omega

/-- **The sizes of the graphs add up** to the number of records that can be found, if every named graph
with records is among them just once. -/
theorem Index.size_eq_sum (index : Index) {names : List GraphName} (hnodup : names.Nodup)
    (hnames : ∀ graph, graph ∈ names ↔ graph ≠ .default ∧ 0 < index.graphSize graph)
    (hwritten : ∀ record ∈ index.records, WritesGraph record.graph) :
    index.size = index.graphSize .default + (names.map index.graphSize).sum +
      index.records.countP fun record => !isKey record.graph := by
  let named : String → Bool := fun text => isKey text && text != unnamedGraph
  have hperm : (names.map GraphName.encode).Perm (index.recordGraphs.dedup.filter named) := by
    rw [List.perm_ext_iff_of_nodup (hnodup.map GraphName.encode_injective)
      ((List.nodup_dedup _).filter _)]
    intro term
    rw [List.mem_map, List.mem_filter, List.mem_dedup]
    constructor
    · rintro ⟨graph, hgraph, rfl⟩
      obtain ⟨hne, hpos⟩ := (hnames graph).mp hgraph
      obtain ⟨hkey, hmem⟩ := graphSize_pos.mp hpos
      refine ⟨hmem, ?_⟩
      have hencode : graph.encode ≠ unnamedGraph := fun h => hne (GraphName.encode_injective h)
      simp [named, hkey, hencode]
    · rintro ⟨hmem, hterm⟩
      obtain ⟨record, hrecord, rfl⟩ := List.mem_map.mp hmem
      obtain ⟨graph, -, hgraph⟩ := hwritten record hrecord
      rw [← hgraph] at hmem hterm
      simp only [named, Bool.and_eq_true, bne_iff_ne] at hterm
      refine ⟨graph, (hnames graph).mpr ⟨?_, graphSize_pos.mpr ⟨hterm.1, hmem⟩⟩, hgraph⟩
      rintro rfl
      exact hterm.2 rfl
  have hsizes : names.map index.graphSize =
      (names.map GraphName.encode).map fun term => index.recordGraphs.count term := by
    rw [List.map_map]
    apply List.map_congr_left
    intro graph hgraph
    have hkey := (graphSize_pos.mp ((hnames graph).mp hgraph).2).1
    rw [graphSize_eq, if_pos hkey]
    rfl
  have hdefault : index.graphSize .default = index.recordGraphs.count unnamedGraph := by
    rw [graphSize_eq]
    exact if_pos isKey_unnamedGraph
  have hlength : index.size = index.recordGraphs.length := (List.length_map _).symm
  rw [hlength, length_eq_count_unnamed_add, hdefault, hsizes, countP_long, (hperm.map _).sum_eq,
    List.sum_map_count_dedup_filter_eq_countP]

/-! ## The listing -/

namespace Store

variable {store : Store}

lemma graphSize_run (graph : GraphName) (store : Store) : graphSize graph store =
    (.ok (store.visible.graphSize graph), { store with stats := store.stats.countCount }) := rfl

/-- A graph is read back from its written form and counted. -/
lemma liveGraph?_run {graph : GraphName} (h : graph.WellFormed) (store : Store) :
    liveGraph? graph.encode store =
      (.ok (if 0 < store.visible.graphSize graph then some graph else none),
        { store with stats := store.stats.countCount }) := by
  unfold liveGraph?
  rw [GraphName.decode_encode h]
  dsimp only
  rw [bind_ok (graphSize_run graph store)]
  rfl

/-- **Counting one graph after the other** keeps those that have records. -/
theorem mapM_liveGraph? {graphs : List GraphName} (h : ∀ graph ∈ graphs, graph.WellFormed)
    (store : Store) : ∃ stats, (graphs.map GraphName.encode).mapM liveGraph? store =
      (.ok (graphs.map fun graph => if 0 < store.visible.graphSize graph then some graph else none),
        { store with stats }) := by
  induction graphs generalizing store with
  | nil => exact ⟨store.stats, rfl⟩
  | cons graph rest ih =>
    obtain ⟨stats, hrest⟩ := ih (fun other hother => h other (List.mem_cons_of_mem graph hother))
      { store with stats := store.stats.countCount }
    refine ⟨stats, ?_⟩
    rw [List.map_cons, List.mapM_cons, bind_ok (liveGraph?_run (h graph List.mem_cons_self) store),
      bind_ok hrest]
    rfl

lemma filterMap_live (graphs : List GraphName) (sizes : GraphName → Nat) :
    (graphs.map fun graph => if 0 < sizes graph then some graph else none).filterMap id =
      graphs.filter fun graph => 0 < sizes graph := by
  rw [List.filterMap_map, ← List.filterMap_eq_filter]
  apply List.filterMap_congr
  intro graph _
  simp [Option.guard]

/-- The named graphs that are listed are those that have records, in the order of their written
forms. -/
lemma Catalogued.graphNames_run (h : store.Catalogued) : ∃ names : List GraphName,
    (graphNames store).1 = .ok names ∧ (names.map GraphName.encode).Pairwise (· < ·) ∧
      ∀ graph, graph ∈ names ↔ graph ≠ .default ∧ 0 < store.visible.graphSize graph := by
  obtain ⟨graphs, hwellFormed, hgraphs⟩ := h.visible.exists_graphs
  let named := graphs.filter fun graph => graph.encode ≠ unnamedGraph
  let names := named.filter fun graph => 0 < store.visible.graphSize graph
  have hterms : store.visible.graphTerms.filter (· ≠ unnamedGraph) = named.map GraphName.encode := by
    rw [← hgraphs, List.filter_map]
    rfl
  have hnamed : ∀ graph ∈ named, graph.WellFormed := fun graph hgraph =>
    hwellFormed graph (List.mem_of_mem_filter hgraph)
  obtain ⟨stats, hrun⟩ := mapM_liveGraph? hnamed store
  refine ⟨names, ?_, ?_, ?_⟩
  · unfold graphNames
    rw [get_bind, hterms, bind_ok hrun]
    exact congrArg Except.ok (filterMap_live _ _)
  · have hsublist : (names.map GraphName.encode).Sublist store.visible.graphTerms := by
      rw [← hgraphs]
      exact (List.filter_sublist.trans List.filter_sublist).map _
    exact store.visible.pairwise_graphTerms.sublist hsublist
  · intro graph
    simp only [names, named, List.mem_filter, decide_eq_true_eq]
    constructor
    · rintro ⟨⟨-, hne⟩, hpos⟩
      exact ⟨fun hdefault => hne (hdefault ▸ rfl), hpos⟩
    · rintro ⟨hne, hpos⟩
      have hterm := h.visible.mem_graphTerms hpos
      rw [← hgraphs, List.mem_map_of_injective GraphName.encode_injective] at hterm
      exact ⟨⟨hterm, fun hencode => hne (GraphName.encode_injective hencode)⟩, hpos⟩

end Store

/-- **The listing of graphs is exact, and the graphs share out the records.**  Take a store on an index
whose dictionaries lack no graph, such as the empty one, and whatever commands add quads with well-formed
graph names only, whether they succeed or not.  Then listing the graphs succeeds; it gives in strict order
of their written forms the named graphs with a positive size and no other; and each record belongs to the
default graph or to one of these, except for the records whose graphs have names too long to be found.
The dictionaries again lack no graph. -/
theorem graphNames_exact {config : StoreConfig} {index : Index} (hindex : index.Catalogued)
    {locked : Bool} {store : Store} (hstore : Store.create config index locked = .ok store)
    {commands : List StoreCommand}
    (hadds : ∀ command ∈ commands, command.Adds { quad | quad.graph.WellFormed }) :
    let reached := store.afterAll commands
    ∃ (sizes : GraphName → Nat) (names : List GraphName),
      (∀ graph, (Store.graphSize graph reached).1 = .ok (sizes graph)) ∧
      (Store.graphNames reached).1 = .ok names ∧
      (names.map GraphName.encode).Pairwise (· < ·) ∧
      (∀ graph, graph ∈ names ↔ graph ≠ .default ∧ 0 < sizes graph) ∧
      reached.size = sizes .default + (names.map sizes).sum +
        (reached.visible.records.countP fun record => !isKey record.graph) ∧
      reached.visible.Catalogued := by
  intro reached
  have hreached : reached.Catalogued :=
    Store.invariant_catalogued.afterAll hadds (Store.catalogued_create hindex hstore)
  obtain ⟨names, hrun, hordered, hnames⟩ := hreached.graphNames_run
  have hnodup : names.Nodup := List.Nodup.of_map _ (hordered.imp ne_of_lt)
  refine ⟨reached.visible.graphSize, names, fun graph => rfl, hrun, hordered, hnames, ?_,
    hreached.visible⟩
  apply reached.visible.size_eq_sum hnodup hnames
  intro record hrecord
  obtain ⟨segment, hsegment, hstands⟩ := List.mem_flatMap.mp hrecord
  obtain ⟨place, hplace, rfl⟩ := List.mem_map.mp hstands
  exact (hreached.visible segment hsegment).graphs place hplace

/-- A graph whose only record was deleted stays in the dictionary of its segment, and another graph is in
two dictionaries.  Only the latter is listed, once, and it has both records. -/
theorem graphNames_exact_cleared :
    let live : GraphName := .named (.iri ⟨"live"⟩)
    let gone : GraphName := .named (.blank ⟨"gone"⟩)
    let triple : Triple := ⟨.iri ⟨"s"⟩, ⟨"p"⟩, .iri ⟨"o"⟩⟩
    let other : Triple := ⟨.iri ⟨"t"⟩, ⟨"p"⟩, .iri ⟨"o"⟩⟩
    let commands : List StoreCommand := [.addAll gone [triple], .add live triple, .commit, .clear gone,
      .addQuad ⟨other, live⟩, .commit]
    ∃ store, Store.create {} .empty false = .ok store ∧
      (store.afterAll commands).visible.segments.map Segment.graphs =
        [[gone.encode, live.encode], [live.encode]] ∧
      (Store.graphNames (store.afterAll commands)).1 = .ok [live] ∧
      (Store.graphSize live (store.afterAll commands)).1 = .ok 2 ∧
      (store.afterAll commands).size = 2 := by
  intro live gone triple other commands
  let store : Store := ⟨{}, .empty, some (.on .empty), .empty, .zero⟩
  let reached := store.afterAll commands
  have hadds : ∀ command ∈ commands, command.Adds { quad | quad.graph.WellFormed } := by
    have hgone : gone.WellFormed := by simp [gone, GraphName.WellFormed, Resource.WellFormed,
      BlankNode.WellFormed]
    have hlive : live.WellFormed := trivial
    simp [commands, StoreCommand.Adds, hgone, hlive]
  have hgraphs : reached.visible.recordGraphs = [live.encode, live.encode] := by decide +kernel
  obtain ⟨sizes, names, hsizes, hrun, hordered, hnames, hsize, -⟩ :=
    graphNames_exact Index.catalogued_empty (rfl : Store.create {} .empty false = .ok store) hadds
  have hsizes_eq (graph : GraphName) : reached.visible.graphSize graph = sizes graph :=
    Except.ok.inj (hsizes graph)
  have hmem (graph : GraphName) : graph ∈ names ↔ graph ∈ [live] := by
    rw [hnames, ← hsizes_eq, Index.graphSize_pos, hgraphs]
    constructor
    · rintro ⟨-, -, hencode⟩
      simpa [GraphName.encode_injective.eq_iff] using hencode
    · intro hlive
      rw [List.mem_singleton.mp hlive]
      exact ⟨by decide, by decide +kernel, List.mem_cons_self⟩
  have honly : names = [live] := by
    have hnodup : names.Nodup := List.Nodup.of_map _ (hordered.imp ne_of_lt)
    exact List.perm_singleton.mp
      ((List.perm_ext_iff_of_nodup hnodup (List.nodup_singleton _)).mpr hmem)
  have hcount : sizes live = 2 := by
    rw [← hsizes_eq, Index.graphSize_eq, hgraphs]
    decide +kernel
  have hdefault : sizes .default = 0 := by
    rw [← hsizes_eq, Index.graphSize_eq, hgraphs]
    decide +kernel
  have hlong : (reached.visible.records.countP fun record => !isKey record.graph) = 0 := by
    rw [Index.countP_long, hgraphs]
    decide +kernel
  refine ⟨store, rfl, by decide +kernel, honly ▸ hrun, hcount ▸ hsizes live, ?_⟩
  rw [hsize, hdefault, honly, List.map_singleton, List.sum_singleton, hcount, hlong]

/-- **A graph with a long name is not listed** though a statement was added to it and committed: there is
a record, but no graph has it. -/
theorem long_graph_unlisted :
    let triple : Triple := ⟨.iri ⟨"http://x/s"⟩, ⟨"http://x/p"⟩, .iri ⟨"http://x/o"⟩⟩
    let commands : List StoreCommand := [.add (longGraph 65530) triple, .commit]
    ∃ store, Store.create {} .empty false = .ok store ∧ (longGraph 65530).WellFormed ∧
      (Store.graphNames (store.afterAll commands)).1 = .ok [] ∧
      (Store.graphSize .default (store.afterAll commands)).1 = .ok 0 ∧
      (store.afterAll commands).size = 1 := by
  intro triple commands
  let store : Store := ⟨{}, .empty, some (.on .empty), .empty, .zero⟩
  let reached := store.afterAll commands
  have hlong : isKey (longGraph 65530).encode = false := isKey_longGraph (Nat.le_refl _)
  have hrecords : reached.visible.records = [Record.ofTriple (longGraph 65530) triple] :=
    Writer.records_committed_add _ _
  have hgraphs : reached.visible.recordGraphs = [(longGraph 65530).encode] :=
    congrArg (List.map Record.graph) hrecords
  have hnone (graph : GraphName) : ¬ 0 < reached.visible.graphSize graph := by
    intro hpos
    obtain ⟨hkey, hmem⟩ := Index.graphSize_pos.mp hpos
    rw [hgraphs] at hmem
    rw [List.mem_singleton.mp hmem, hlong] at hkey
    cases hkey
  have hadds : ∀ command ∈ commands, command.Adds { quad | quad.graph.WellFormed } := by
    intro command hcommand
    obtain rfl | rfl := List.mem_pair.mp hcommand <;> trivial
  have hreached : reached.Catalogued := Store.invariant_catalogued.afterAll hadds
    (Store.catalogued_create Index.catalogued_empty (rfl : Store.create {} .empty false = .ok store))
  obtain ⟨names, hrun, -, hnames⟩ := hreached.graphNames_run
  have hempty : names = [] := by
    apply List.eq_nil_iff_forall_not_mem.mpr
    intro graph hgraph
    exact hnone graph ((hnames graph).mp hgraph).2
  have hdefault : reached.visible.graphSize .default = 0 := Nat.eq_zero_of_not_pos (hnone .default)
  refine ⟨store, rfl, trivial, hempty ▸ hrun, congrArg Except.ok hdefault, ?_⟩
  exact congrArg List.length hrecords

end QuadStore
