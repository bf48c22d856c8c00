import Mathlib
import QuadStore.Proofs.Holdings
import QuadStore.Proofs.IndexSource
import QuadStore.Proofs.RecordReplacement

/-!
# Sets of statements

A store is meant to hold a set of statements for each graph.  `RecordsOf` says that some records are
those of the statements in such sets: none stands twice, and a statement has its record among them
exactly if it is in the set of its graph.

Changes of the records are changes of the sets.  Erasing takes out the statements whose records satisfy
the condition (`RecordsOf.erase`).  Adding a record takes out those with its identifier; as the quads
are told apart by the identifiers of their records, it takes out no other statement
(`RecordsOf.replace`).  And the index lists the set of a graph, each statement once
(`RecordsOf.lists`).

A graph is searched for by its written form.  If that is too long the index finds nothing, whatever it
keeps, so that nothing is said of the records of such a graph, and it seems to be empty
(`GraphSets.findable`).
-/

namespace QuadStore

/-- For each graph a set of statements. -/
abbrev GraphSets := GraphName → Finset Triple

namespace GraphSets

variable (sets : GraphSets) (graph : GraphName)

/-- The sets with some more statements in a graph. -/
def add (triples : List Triple) : GraphSets :=
  Function.update sets graph (sets graph ∪ triples.toFinset)

/-- The sets without the statements of a graph that satisfy a condition. -/
def remove (condition : Triple → Bool) : GraphSets :=
  Function.update sets graph ((sets graph).filter fun triple => condition triple = false)

/-- The statements of a graph, as far as they are found: those of a graph with a long name are not. -/
def findable : Finset Triple := if isKey graph.encode = true then sets graph else ∅

/-- What is left of the sets if the statements whose records satisfy a condition are taken out, as far
as it can be found. -/
def LeavesOf (condition : Record → Bool) (rest : GraphSets) : Prop :=
  ∀ quad : Quad, isKey quad.graph.encode = true →
    (quad.triple ∈ rest quad.graph ↔ quad.triple ∈ sets quad.graph ∧ ¬ condition quad.record = true)

variable {sets graph}

lemma mem_findable {triple : Triple} :
    triple ∈ sets.findable graph ↔ isKey graph.encode = true ∧ triple ∈ sets graph := by
  unfold findable
  by_cases h : isKey graph.encode = true
  · rw [if_pos h, and_iff_right h]
  · rw [if_neg h]
    simp [h]

lemma mem_add {triples : List Triple} {graph' : GraphName} {triple : Triple} :
    triple ∈ sets.add graph triples graph' ↔
      triple ∈ sets graph' ∨ graph' = graph ∧ triple ∈ triples := by
  unfold add
  by_cases h : graph' = graph
  · subst h
    rw [Function.update_self, Finset.mem_union, List.mem_toFinset]
    simp only [true_and]
  · rw [Function.update_of_ne h]
    simp only [h, false_and, or_false]

lemma add_nil : sets.add graph [] = sets := by
  funext graph'
  ext triple
  rw [mem_add]
  simp

lemma add_add (triples more : List Triple) :
    (sets.add graph triples).add graph more = sets.add graph (triples ++ more) := by
  funext graph'
  ext triple
  rw [mem_add, mem_add, mem_add, List.mem_append, or_assoc, ← and_or_left]

lemma mem_remove {condition : Triple → Bool} {graph' : GraphName} {triple : Triple} :
    triple ∈ sets.remove graph condition graph' ↔
      triple ∈ sets graph' ∧ ¬ (graph' = graph ∧ condition triple = true) := by
  unfold remove
  by_cases h : graph' = graph
  · subst h
    rw [Function.update_self, Finset.mem_filter]
    simp only [true_and, Bool.not_eq_true]
  · rw [Function.update_of_ne h]
    simp only [h, false_and, not_false_eq_true, and_true]

end GraphSets

/-! ## What a search for a graph finds -/

/-- A graph is searched for by its written form, if that is short enough. -/
lemma Quad.satisfiedBy_graphPredicate {quad : Quad} {graph : GraphName} :
    (graphPredicate graph).satisfiedBy quad.record = true ↔
      isKey graph.encode = true ∧ quad.graph = graph := by
  have hsearchable : (graphPredicate graph).isSearchable = isKey graph.encode := rfl
  rw [Predicate.satisfiedBy, Bool.and_eq_true, hsearchable, Quad.holdsOf_graphPredicate]

lemma Quad.satisfies_graphPredicate {quad : Quad} {graph : GraphName} :
    quad.record.satisfies [graphPredicate graph] = true ↔
      isKey graph.encode = true ∧ quad.graph = graph := by
  rw [Record.satisfies, List.all_cons, List.all_nil, Bool.and_true, Quad.satisfiedBy_graphPredicate]

/-! ## Records of the statements in some sets -/

/-- A record that takes the place of the one with its identifier does not stand twice. -/
lemma nodup_replace {records : List Record} (h : records.Nodup) (record : Record) :
    ((records.filter fun old => !(old.id == record.id)) ++ [record]).Nodup := by
  rw [← List.concat_eq_append]
  apply List.Nodup.concat _ (h.filter _)
  intro hmem
  have hother := (List.mem_filter.mp hmem).2
  simp at hother

/-- Records of known quads, none twice, which are those of the statements in some sets. -/
structure RecordsOf (known : Set Quad) (sets : GraphSets) (records : List Record) : Prop where
  nodup : records.Nodup
  known : ∀ record ∈ records, ∃ quad ∈ known, quad.record = record
  mem_iff : ∀ quad : Quad, isKey quad.graph.encode = true →
    (quad.record ∈ records ↔ quad.triple ∈ sets quad.graph)

namespace RecordsOf

variable {known : Set Quad} {sets sets' : GraphSets} {records : List Record}

lemma nil (known : Set Quad) : RecordsOf known (fun _ => ∅) [] where
  nodup := .nil
  known := by simp
  mem_iff := by simp

/-- **Erasing** the records that satisfy a condition takes their statements out of the sets. -/
theorem erase (h : RecordsOf known sets records) {condition : Record → Bool}
    (hsets : sets.LeavesOf condition sets') :
    RecordsOf known sets' (records.filter fun record => !condition record) where
  nodup := h.nodup.filter _
  known := fun record hrecord => h.known record (List.mem_of_mem_filter hrecord)
  mem_iff := by
    intro quad hkey
    rw [List.mem_filter, h.mem_iff quad hkey, hsets quad hkey, Bool.not_eq_true', Bool.not_eq_true]

/-- **Adding a record in place of the one with its identifier** adds its statement, and takes out no
other as long as identifiers tell the known quads apart. -/
theorem replace (h : RecordsOf known sets records)
    (hids : Set.InjOn (fun quad : Quad => quad.record.id) known) {quad : Quad} (hquad : quad ∈ known) :
    RecordsOf known (sets.add quad.graph [quad.triple])
      ((records.filter fun old => !(old.id == quad.record.id)) ++ [quad.record]) where
  nodup := nodup_replace h.nodup quad.record
  known := by
    intro record hrecord
    rcases List.mem_append.mp hrecord with hold | hnew
    · exact h.known record (List.mem_of_mem_filter hold)
    · exact ⟨quad, hquad, (List.mem_singleton.mp hnew).symm⟩
  mem_iff := by
    intro other hkey
    have hsame : other.record = quad.record ↔ other.graph = quad.graph ∧ other.triple = quad.triple := by
      rw [Quad.record_injective.eq_iff]
      constructor
      · rintro rfl
        exact ⟨rfl, rfl⟩
      · rintro ⟨hgraph, htriple⟩
        cases other
        cases quad
        simp_all
    rw [List.mem_append, List.mem_filter, List.mem_singleton, h.mem_iff other hkey, GraphSets.mem_add,
      List.mem_singleton, hsame]
    constructor
    · rintro (⟨hold, -⟩ | hnew)
      · exact .inl hold
      · exact .inr hnew
    · rintro (hold | hnew)
      · by_cases hid : other.record.id = quad.record.id
        · obtain ⟨kept, hkept, hrecord⟩ := h.known _ ((h.mem_iff other hkey).mpr hold)
          have hother : other ∈ known := Quad.record_injective hrecord ▸ hkept
          exact .inr (hsame.mp (congrArg Quad.record (hids hother hquad hid)))
        · exact .inl ⟨hold, by simpa using hid⟩
      · exact .inr hnew

/-- **The index lists what is findable of a graph**, each statement once, and counts it. -/
theorem lists {index : Index} (h : RecordsOf known sets index.records) (hordered : index.Ordered)
    (hwellFormed : ∀ quad ∈ known, quad.WellFormed) (graph : GraphName) {length : Nat}
    (hlength : 0 < length) (order : SortOrder) :
    index.count [graphPredicate graph] = (sets.findable graph).card ∧
    ∃ triples : List Triple, triples.Nodup ∧
      (∀ triple, triple ∈ triples ↔ triple ∈ sets.findable graph) ∧
      (Scan.start [graphPredicate graph] length order true).Lists index.source index.scanFuel
        triples := by
  have hquads : ∀ record ∈ index.records, ∃ quad : Quad, quad.WellFormed ∧ quad.record = record := by
    intro record hrecord
    obtain ⟨quad, hquad, rfl⟩ := h.known record hrecord
    exact ⟨quad, hwellFormed quad hquad, rfl⟩
  obtain ⟨quads, hperm, hlists⟩ :=
    Index.exists_lists hordered hquads [graphPredicate graph] hlength order
  have hmem : ∀ quad, quad ∈ quads ↔
      quad.graph = graph ∧ quad.triple ∈ sets.findable quad.graph := by
    intro quad
    have hmap : quad ∈ quads ↔ quad.record ∈ quads.map Quad.record :=
      (List.mem_map_of_injective Quad.record_injective).symm
    rw [hmap, hperm.mem_iff, List.mem_filter, Quad.satisfies_graphPredicate, GraphSets.mem_findable]
    constructor
    · rintro ⟨hrecord, hkey, rfl⟩
      exact ⟨rfl, hkey, (h.mem_iff quad hkey).mp hrecord⟩
    · rintro ⟨rfl, hkey, htriple⟩
      exact ⟨(h.mem_iff quad hkey).mpr htriple, hkey, rfl⟩
  have hnodup : (quads.map Quad.triple).Nodup := by
    have hrecords : (quads.map Quad.record).Nodup := hperm.nodup_iff.mpr (h.nodup.filter _)
    apply List.Nodup.map_on _ (List.Nodup.of_map _ hrecords)
    intro quad hquad quad' hquad' htriple
    have hgraph : quad.graph = quad'.graph :=
      ((hmem quad).mp hquad).1.trans ((hmem quad').mp hquad').1.symm
    cases quad
    cases quad'
    simp_all
  have htriples : ∀ triple, triple ∈ quads.map Quad.triple ↔ triple ∈ sets.findable graph := by
    intro triple
    rw [List.mem_map]
    constructor
    · rintro ⟨quad, hquad, rfl⟩
      obtain ⟨rfl, htriple⟩ := (hmem quad).mp hquad
      exact htriple
    · intro htriple
      exact ⟨⟨triple, graph⟩, (hmem ⟨triple, graph⟩).mpr ⟨rfl, htriple⟩, rfl⟩
  refine ⟨?_, quads.map Quad.triple, hnodup, htriples, hlists⟩
  have hset : (quads.map Quad.triple).toFinset = sets.findable graph := by
    ext triple
    rw [List.mem_toFinset, htriples]
  rw [← hset, List.toFinset_card_of_nodup hnodup, List.length_map, ← List.length_map Quad.record]
  exact hperm.length_eq.symm

end RecordsOf

end QuadStore
