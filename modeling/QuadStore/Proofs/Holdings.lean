import QuadStore.Proofs.ScanCoverage
import QuadStore.Proofs.TermRoundTrip
import QuadStore.Filter

/-!
# Sources that hold statements

Queries are said to be right for a source that holds certain well-formed quads, each under a number:
it answers every request with the exact page of the records that are as the predicates ask, and
every record can be read (`RecordSource.Serves`).  In what state the source is does not matter, so
it may count or cache what it likes.

Predicates are taken at their word here (`Record.meets`).  An index does not search for very long
texts, and is a source of this kind as long as it keeps none.
-/

namespace QuadStore

variable {σ : Type}

/-- The quads that a source holds, by record number. -/
structure Holdings where
  ids : List RecordId
  nodup : ids.Nodup
  quad : RecordId → Quad
  wellFormed : ∀ id ∈ ids, (quad id).WellFormed

namespace Holdings

variable (holdings : Holdings)

/-- The records that are as some predicates ask. -/
def matching (filters : List Predicate) : List RecordId :=
  holdings.ids.filter fun id => (holdings.quad id).record.meets filters

lemma nodup_matching (filters : List Predicate) : (holdings.matching filters).Nodup :=
  holdings.nodup.filter _

lemma length_matching_le (filters : List Predicate) :
    (holdings.matching filters).length ≤ holdings.ids.length :=
  List.length_filter_le _ _

end Holdings

/-- A source that holds these quads: it answers exactly, and what it answers can be read. -/
structure RecordSource.Serves (source : RecordSource σ) (holdings : Holdings) : Prop where
  resolve : ∀ request state, (source.resolve request state).1 =
    .ok (Page.exact (holdings.matching request.filters) request)
  read : ∀ id ∈ holdings.ids, ∀ state,
    (source.read id state).1 = .ok (holdings.quad id).triple.stored

/-- The source that only answers. -/
def Holdings.source (holdings : Holdings) : RecordSource Unit where
  resolve request _ := (.ok (Page.exact (holdings.matching request.filters) request), ())
  read id _ := (.ok (holdings.quad id).triple.stored, ())

lemma Holdings.serves_source (holdings : Holdings) : holdings.source.Serves holdings :=
  ⟨fun _ _ => rfl, fun _ _ _ => rfl⟩

namespace RecordSource.Serves

variable {source : RecordSource σ} {holdings : Holdings} (h : source.Serves holdings)

include h

lemma answers (filters : List Predicate) : source.Answers filters (holdings.matching filters) := by
  intro request state hfilters
  rw [h.resolve, hfilters]

/-- What is read is the statement that is held. -/
lemma reads : source.Reads holdings.ids fun id => (holdings.quad id).triple := by
  intro id hid state
  have hread := h.read id hid state
  rcases hanswer : source.read id state with ⟨answer, state'⟩
  rw [hanswer] at hread
  subst hread
  simp only [RecordSource.readTriple, hanswer,
    Triple.decode_stored (holdings.wellFormed id hid).triple]

end RecordSource.Serves

/-! ## What the predicates of terms ask -/

/-- The field of a position holds the written form of the term there. -/
lemma Quad.textOf_field (quad : Quad) (position : Position) :
    quad.record.textOf position.field = some (quad.triple.at position).encode := by
  cases position with
  | subject => exact congrArg some quad.triple.subject.encode_toTerm.symm
  | predicate => rfl
  | object => rfl

/-- The predicate for a term asks for exactly this term. -/
lemma Quad.holdsOf_termPredicate {quad : Quad} {position : Position} {term : Term} :
    (termPredicate position term).holdsOf quad.record = true ↔ quad.triple.at position = term := by
  rw [termPredicate, Predicate.holdsOf, quad.textOf_field, beq_iff_eq, Option.some.injEq]
  exact Term.encode_injective.eq_iff

/-- The predicate for a graph asks for exactly this graph. -/
lemma Quad.holdsOf_graphPredicate {quad : Quad} {graph : GraphName} :
    (graphPredicate graph).holdsOf quad.record = true ↔ quad.graph = graph := by
  have htext : quad.record.textOf .graph = some quad.graph.encode := rfl
  rw [graphPredicate, Predicate.holdsOf, htext, beq_iff_eq, Option.some.injEq]
  exact GraphName.encode_injective.eq_iff

end QuadStore
