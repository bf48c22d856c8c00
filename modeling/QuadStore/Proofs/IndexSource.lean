import Mathlib
import QuadStore.Index
import QuadStore.Proofs.Holdings
import QuadStore.Proofs.PageMerging
import QuadStore.Proofs.ScanCoverage
import QuadStore.Proofs.TermRoundTrip

/-!
# The index as a source

In every segment of an index the records stand at ascending places (`Index.Ordered`), and every change
keeps it so.  What is found by some predicates is then in ascending order from segment to segment, and
reading it back gives the records that satisfy the predicates, one for one (`Index.map_find?_found`).
So the index is a source that answers exactly (`Index.answers_source`), what it finds can be read
(`Index.exists_holdings`), and a scan of it lists each of these records once (`Index.exists_lists`).
-/

namespace QuadStore

/-! ## Places -/

namespace Segment

/-- The records of a segment stand at ascending places. -/
def Ordered (segment : Segment) : Prop := segment.records.Pairwise fun a b => a.1 < b.1

lemma Ordered.erase {segment : Segment} (h : segment.Ordered) (condition : Record → Bool) :
    (segment.erase condition).Ordered :=
  List.Pairwise.filter _ h

/-- The record at a place is the one that is found there. -/
lemma Ordered.lookup_eq {segment : Segment} (h : segment.Ordered) {doc : Nat} {record : Record}
    (hmem : (doc, record) ∈ segment.records) : segment.records.lookup doc = some record := by
  obtain ⟨graphs, records⟩ := segment
  have hpairwise : records.Pairwise fun a b => a.1 < b.1 := h
  clear h
  induction records with
  | nil => cases hmem
  | cons first rest ih =>
    obtain ⟨hfirst, hrest⟩ := List.pairwise_cons.mp hpairwise
    rcases List.mem_cons.mp hmem with rfl | hlater
    · exact List.lookup_cons_self
    · have hne : (doc == first.1) = false := by
        have hlt := hfirst _ hlater
        simp only [beq_eq_false_iff_ne]
        omega
      rw [List.lookup_cons, hne]
      exact ih hlater hrest

lemma Ordered.ascending {segment : Segment} (h : segment.Ordered) (ordinal : Nat)
    (filters : List Predicate) :
    (segment.matching ordinal filters).Pairwise SortOrder.ascending.Before := by
  unfold matching
  rw [List.pairwise_map]
  apply (List.Pairwise.filter _ h).imp
  intro a b hab
  have hlt : (⟨ordinal, a.1⟩ : RecordId) < ⟨ordinal, b.1⟩ := .inr ⟨rfl, hab⟩
  exact decide_eq_true hlt

lemma segment_of_mem_matching {segment : Segment} {ordinal : Nat} {filters : List Predicate}
    {id : RecordId} (h : id ∈ segment.matching ordinal filters) : id.segment = ordinal := by
  obtain ⟨place, -, rfl⟩ := List.mem_map.mp h
  rfl

end Segment

namespace Index

variable {index : Index}

/-- All segments have their records at ascending places. -/
def Ordered (index : Index) : Prop := ∀ segment ∈ index.segments, segment.Ordered

lemma ordered_empty : empty.Ordered := by
  intro segment hsegment
  cases hsegment

lemma Ordered.erase (h : index.Ordered) (condition : Record → Bool) :
    (index.erase condition).Ordered := by
  intro segment hsegment
  obtain ⟨before, hbefore, rfl⟩ := List.mem_map.mp hsegment
  exact (h before hbefore).erase condition

lemma Ordered.compact (h : index.Ordered) : index.compact.Ordered := by
  intro segment hsegment
  exact h segment (List.mem_of_mem_filter hsegment)

/-! ## What is found -/

/-- The numbers of the records that satisfy some predicates. -/
def found (index : Index) (filters : List Predicate) : List RecordId :=
  (index.matching filters).flatten

/-- What is found is in ascending order, from segment to segment. -/
lemma ascending_found (h : index.Ordered) (filters : List Predicate) :
    (index.found filters).Pairwise SortOrder.ascending.Before := by
  unfold found matching
  rw [List.pairwise_flatten]
  constructor
  · intro ids hids
    obtain ⟨⟨segment, ordinal⟩, hmem, rfl⟩ := List.mem_map.mp hids
    exact (h segment (List.fst_mem_of_mem_zipIdx hmem)).ascending ordinal filters
  · rw [List.pairwise_map]
    have hordinals : (index.segments.zipIdx.map Prod.snd).Pairwise (· < ·) := by
      rw [List.zipIdx_map_snd]
      exact List.pairwise_lt_range'
    apply (List.pairwise_map.mp hordinals).imp
    intro a b hab id hid other hother
    have hlt : id < other := .inl (by
      rw [Segment.segment_of_mem_matching hid, Segment.segment_of_mem_matching hother]
      exact hab)
    exact decide_eq_true hlt

lemma nodup_found (h : index.Ordered) (filters : List Predicate) : (index.found filters).Nodup :=
  SortOrder.nodup_of_pairwise (ascending_found h filters)

/-- **Reading back what is found** gives the records that satisfy the predicates. -/
theorem map_find?_found (h : index.Ordered) (filters : List Predicate) :
    (index.found filters).map index.find? =
      (index.records.filter (·.satisfies filters)).map some := by
  have hsegments : index.segments = index.segments.zipIdx.map Prod.fst :=
    (List.zipIdx_map_fst 0 index.segments).symm
  have hrecords : index.records.filter (·.satisfies filters) =
      index.segments.zipIdx.flatMap fun place =>
        (place.1.records.map Prod.snd).filter (·.satisfies filters) := by
    unfold records
    rw [hsegments, List.flatMap_map, List.filter_flatMap, ← hsegments]
  unfold found matching
  rw [hrecords, List.map_flatMap, ← List.flatMap_def, List.map_flatMap]
  apply List.flatMap_congr
  rintro ⟨segment, ordinal⟩ hmem
  have hsegment : index.segments[ordinal]? = some segment := List.mem_zipIdx_iff_getElem?.mp hmem
  have hordered := h segment (List.fst_mem_of_mem_zipIdx hmem)
  unfold Segment.matching
  rw [List.map_map, List.filter_map, List.map_map]
  apply List.map_congr_left
  rintro ⟨doc, record⟩ hplace
  have hlookup := hordered.lookup_eq (List.mem_of_mem_filter hplace)
  show index.segments[ordinal]?.bind (fun segment => segment.records.lookup doc) = some record
  rw [hsegment]
  exact hlookup

/-! ## Scanning -/

/-- **The index answers exactly** what is asked of it. -/
theorem answers_source (h : index.Ordered) (filters : List Predicate) :
    index.source.Answers filters (index.found filters) := by
  rintro request stats rfl
  have hascending := ascending_found h request.filters
  have hpage : PageCollector.page request (index.matching request.filters) =
      Page.exact (index.found request.filters) request :=
    PageCollector.page_eq_exact request (List.pairwise_flatten.mp hascending).1
      (SortOrder.nodup_of_pairwise hascending)
  exact congrArg Except.ok hpage

lemma readTriple_source {id : RecordId} {quad : Quad} (hfind : index.find? id = some quad.record)
    (hwellFormed : quad.WellFormed) (stats : Statistics) :
    (index.source.readTriple id stats).1 = .ok quad.triple := by
  have hread : index.source.read id stats = (.ok quad.triple.stored, stats.countRead) := by
    simp only [source, hfind]
    rfl
  unfold RecordSource.readTriple
  rw [hread]
  simp only [Triple.decode_stored hwellFormed.triple]

end Index

/-- A scan that reads statements gives these, in whatever state the source is, and ends. -/
def Scan.Lists {σ : Type} (source : RecordSource σ) (scan : Scan) (fuel : Nat)
    (triples : List Triple) : Prop :=
  ∀ count, fuel ≤ count → ∀ state,
    (scan.take source count state).1.map (fun item => item.map ScannedRecord.triple) =
      triples.map fun triple => .ok (some triple)

namespace Index

variable {index : Index}

/-- As many records are found as are counted. -/
lemma length_found (h : index.Ordered) (filters : List Predicate) :
    (index.found filters).length = index.count filters := by
  have hlength := congrArg List.length (map_find?_found h filters)
  rwa [List.length_map, List.length_map] at hlength

/-- No scan of the index runs out of its fuel. -/
lemma length_found_lt (h : index.Ordered) (filters : List Predicate) :
    (index.found filters).length < index.scanFuel := by
  rw [length_found h, count, scanFuel, size]
  exact Nat.lt_succ_of_le (List.length_filter_le _ _)

/-- **What is found are quads** that can be read, those of the records that satisfy the predicates. -/
theorem exists_holdings (h : index.Ordered)
    (hquads : ∀ record ∈ index.records, ∃ quad : Quad, quad.WellFormed ∧ quad.record = record)
    (filters : List Predicate) :
    ∃ holdings : Holdings, holdings.ids = index.found filters ∧
      (holdings.ids.map fun id => (holdings.quad id).record) =
        index.records.filter (·.satisfies filters) ∧
      index.source.Reads holdings.ids fun id => (holdings.quad id).triple := by
  have hread := map_find?_found h filters
  have hfound : ∀ id ∈ index.found filters, ∃ quad : Quad, quad.WellFormed ∧
      index.find? id = some quad.record := by
    intro id hid
    have hmem : index.find? id ∈ (index.records.filter (·.satisfies filters)).map some :=
      hread ▸ List.mem_map_of_mem hid
    obtain ⟨record, hrecord, hfind⟩ := List.mem_map.mp hmem
    obtain ⟨quad, hwellFormed, rfl⟩ := hquads record (List.mem_of_mem_filter hrecord)
    exact ⟨quad, hwellFormed, hfind.symm⟩
  have : Nonempty Quad := ⟨⟨⟨.iri default, default, .iri default⟩, .default⟩⟩
  choose! quad hwellFormed hfind using hfound
  refine ⟨⟨index.found filters, nodup_found h filters, quad, hwellFormed⟩, rfl, ?_,
    fun id hid stats => readTriple_source (hfind id hid) (hwellFormed id hid) stats⟩
  have hsome : ((index.found filters).map fun id => (quad id).record).map some =
      (index.records.filter (·.satisfies filters)).map some := by
    rw [← hread, List.map_map]
    exact (List.map_congr_left hfind).symm
  exact List.map_injective_iff.mpr (Option.some_injective _) hsome

/-- A scan of the index lists the statements of what is found, in the direction of the scan. -/
lemma lists_of_reads (h : index.Ordered) {filters : List Predicate} {triple : RecordId → Triple}
    (hreads : index.source.Reads (index.found filters) triple) {length : Nat} (hlength : 0 < length)
    (order : SortOrder) :
    (Scan.start filters length order true).Lists index.source index.scanFuel
      ((order.sorted (index.found filters)).map triple) := by
  intro count hfuel stats
  rw [Scan.take_of_answers order (nodup_found h filters) (answers_source h filters) hreads hlength
    (Nat.lt_of_lt_of_le (length_found_lt h filters) hfuel) stats, List.map_map, List.map_map]
  rfl

/-- **A scan of the index** lists the statements of the records that satisfy its predicates, each
once. -/
theorem exists_lists (h : index.Ordered)
    (hquads : ∀ record ∈ index.records, ∃ quad : Quad, quad.WellFormed ∧ quad.record = record)
    (filters : List Predicate) {length : Nat} (hlength : 0 < length) (order : SortOrder) :
    ∃ quads : List Quad,
      (quads.map Quad.record).Perm (index.records.filter (·.satisfies filters)) ∧
      (Scan.start filters length order true).Lists index.source index.scanFuel
        (quads.map Quad.triple) := by
  obtain ⟨holdings, hids, hrecords, hreads⟩ := exists_holdings h hquads filters
  rw [hids] at hrecords hreads
  refine ⟨(order.sorted (index.found filters)).map holdings.quad, ?_, ?_⟩
  · rw [List.map_map, ← hrecords]
    exact (order.sorted_perm _).map _
  · rw [List.map_map]
    exact lists_of_reads h hreads hlength order

end Index

end QuadStore
