import Mathlib
import QuadStore.Proofs.RecordIdentity
import QuadStore.Proofs.StoreContents
import QuadStore.Grammar.Query

/-!
# Which additions replace another record

A record that is added takes the place of the one with its name.  Two statements of one name are
therefore never in a store together, and the one that is added last is kept.

The main statement, `recordName_separates`, says which statements this concerns.  As long as none of
the IRIs of a quad forges a boundary, no other quad has its name, and neither addition takes the
other's record away.  For every IRI that forges one, `forged_boundary_collision` gives two quads of
one name, the first of which is lost when the second is added.  The IRIs that do it can be read from
a text, where the bracket is escaped: `escaped_bracket_replaces`.
-/

namespace QuadStore

open Text

/-! ## Two quads of one name -/

/-- An IRI that forges no boundary. -/
def Iri.harmless : Iri := ⟨"x"⟩

/-- Without an opening bracket nothing is forged. -/
lemma Iri.not_forgesBoundary {i : Iri} (h : '<' ∉ i.text.toList) : ¬ i.ForgesBoundary := by
  rintro (hpart | ⟨label, -, hpart⟩)
  · exact h (hpart.subset (by simp))
  · exact h (hpart.subset (by simp))

/-- An IRI that holds the end and the beginning of an IRI can be divided between subject and
predicate. -/
lemma collision_of_adjacent {i : Iri} {u v : List Char}
    (h : i.text.toList = u ++ ['>', ' ', '<'] ++ v) :
    (⟨⟨.iri i, .harmless, .iri .harmless⟩, .default⟩ : Quad).recordName =
      (⟨⟨.iri ⟨.ofList u⟩, ⟨.ofList (v ++ ['>', ' ', '<', 'x'])⟩, .iri .harmless⟩, .default⟩ :
        Quad).recordName := by
  have hescape : escape i.text.toList = escape u ++ '>' :: ' ' :: '<' :: escape v := by
    rw [h, escape_append, escape_append]
    simp [show escape ['>', ' ', '<'] = ['>', ' ', '<'] from rfl]
  have hend : escape ['>', ' ', '<', 'x'] = ['>', ' ', '<', 'x'] := rfl
  have hharmless : escape Iri.harmless.text.toList = ['x'] := by decide
  rw [← String.toList_inj, Quad.recordName_toList, Quad.recordName_toList]
  simp [Resource.written, Term.written, Iri.written, hescape, escape_append, hend, hharmless]

/-- An IRI that holds a blank node between two IRIs can be divided among predicate, object and
graph. -/
lemma collision_of_apart {i : Iri} {u v : List Char} {label : String} (hlabel : IsPlainLabel label)
    (h : i.text.toList = u ++ (['>', ' ', '_', ':'] ++ label.toList ++ [' ', '<']) ++ v) :
    (⟨⟨.iri .harmless, i, .iri .harmless⟩, .named (.iri .harmless)⟩ : Quad).recordName =
      (⟨⟨.iri .harmless, ⟨.ofList u⟩, .blank ⟨label⟩⟩,
        .named (.iri ⟨.ofList (v ++ ['>', ' ', '<', 'x', '>', ' ', '<', 'x'])⟩)⟩ :
          Quad).recordName := by
  have hescape : escape i.text.toList = escape u ++ '>' :: ' ' :: '_' :: ':' ::
      (label.toList ++ ' ' :: '<' :: escape v) := by
    rw [h, escape_append, escape_append, escape_append, escape_append, escape_bare hlabel.2]
    simp [show escape ['>', ' ', '_', ':'] = ['>', ' ', '_', ':'] from rfl,
      show escape [' ', '<'] = [' ', '<'] from rfl]
  have hend : escape ['>', ' ', '<', 'x', '>', ' ', '<', 'x'] =
      ['>', ' ', '<', 'x', '>', ' ', '<', 'x'] := rfl
  have hharmless : escape Iri.harmless.text.toList = ['x'] := by decide
  rw [← String.toList_inj, Quad.recordName_toList, Quad.recordName_toList]
  simp [Resource.written, Term.written, GraphName.written, BlankNode.written, Iri.written, hescape,
    escape_append, hend, hharmless]

/-- **Every IRI that forges a boundary lets two quads have one name**, though all other IRIs of the
first of them are harmless. -/
theorem forged_boundary_collision {i : Iri} (h : i.ForgesBoundary) :
    ∃ q q' : Quad, q.Plain ∧ q'.Plain ∧ i ∈ q.iris ∧ (∀ j ∈ q.iris, j.ForgesBoundary → j = i) ∧
      q ≠ q' ∧ q.recordName = q'.recordName := by
  have hother : ∀ j, j ∈ [i, Iri.harmless] → j.ForgesBoundary → j = i := by
    intro j hj hforges
    rcases List.mem_pair.mp hj with rfl | rfl
    · rfl
    · exact absurd hforges (Iri.not_forgesBoundary (by decide))
  rcases h with ⟨u, v, htext⟩ | ⟨label, hlabel, u, v, htext⟩
  · refine ⟨_, _, ?_, ?_, ?_, fun j hj => hother j ?_, ?_, collision_of_adjacent htext.symm⟩
    · simp [Quad.Plain, Quad.terms, Term.labels, Resource.toTerm, GraphName.term?]
    · simp [Quad.Plain, Quad.terms, Term.labels, Resource.toTerm, GraphName.term?]
    · simp [Quad.iris, Quad.terms, Term.iris, Resource.toTerm]
    · simpa [Quad.iris, Quad.terms, Term.iris, Resource.toTerm, GraphName.term?] using hj
    · -- The subject of the second quad is a part of the first one's.
      intro heq
      have hlength := congrArg (fun q : Quad => q.triple.predicate.text.toList.length) heq
      simp [Iri.harmless] at hlength
  · refine ⟨_, _, ?_, ?_, ?_, fun j hj => hother j ?_, ?_, collision_of_apart hlabel htext.symm⟩
    · simp [Quad.Plain, Quad.terms, Term.labels, Resource.toTerm, GraphName.term?]
    · simp [Quad.Plain, Quad.terms, Term.labels, Resource.toTerm, GraphName.term?, hlabel]
    · simp [Quad.iris, Quad.terms, Term.iris, Resource.toTerm]
    · have hcases : j = Iri.harmless ∨ j = i ∨ j = Iri.harmless := by
        simpa [Quad.iris, Quad.terms, Term.iris, Resource.toTerm, GraphName.term?] using hj
      rcases hcases with rfl | rfl | rfl <;> simp
    · intro heq
      have hobject := congrArg (fun q : Quad => q.triple.object) heq
      cases hobject

/-! ## Records of different quads -/

/-- The written forms in a record tell the quad, even where its name does not. -/
lemma Quad.record_injective : Function.Injective Quad.record := by
  intro q q' h
  obtain ⟨triple, graph⟩ := q
  obtain ⟨triple', graph'⟩ := q'
  have htriple : triple = triple' := Triple.stored_injective (congrArg Record.stored h)
  have hgraph : graph = graph' := GraphName.encode_injective (congrArg Record.graph h)
  rw [htriple, hgraph]

namespace Store

/-- A record stays when a quad with another identifier is added. -/
lemma mem_staged_addQuad {store : Store} {record : Record} {quad : Quad}
    (hne : record.id ≠ quad.record.id) (hmem : record ∈ store.staged) :
    record ∈ (store.after (addQuad quad)).staged := by
  cases hreadOnly : store.isReadOnly with
  | true => rwa [addQuad, after_add_of_readOnly hreadOnly]
  | false =>
    rw [addQuad, staged_add _ _ _ hreadOnly]
    exact List.mem_append_left _ (List.mem_filter.mpr ⟨hmem, by simpa [Quad.record] using hne⟩)

/-- A record goes when a quad with its identifier is added, unless it is that quad's. -/
lemma notMem_staged_addQuad {store : Store} {record : Record} {quad : Quad}
    (hwritable : store.isReadOnly = false) (hid : record.id = quad.record.id)
    (hne : record ≠ quad.record) : record ∉ (store.after (addQuad quad)).staged := by
  rw [addQuad, staged_add _ _ _ hwritable]
  intro hmem
  rcases List.mem_append.mp hmem with hold | hnew
  · have hother := (List.mem_filter.mp hold).2
    rw [hid] at hother
    simp [Quad.record] at hother
  · exact hne (List.mem_singleton.mp hnew)

/-- Of two quads of one name, the one that is added first is not kept. -/
lemma notMem_staged_of_recordName_eq {q q' : Quad} (hne : q ≠ q')
    (hname : q.recordName = q'.recordName) {store : Store} (h : store.isReadOnly = false) :
    q.record ∉ ((store.after (addQuad q)).after (addQuad q')).staged := by
  have hwritable : (store.after (addQuad q)).isReadOnly = false := by
    rw [addQuad, isReadOnly_after_add, h]
  exact notMem_staged_addQuad hwritable (congrArg NameId.ofName hname)
    (Quad.record_injective.ne hne)

end Store

/-- **Names tell quads apart just as far as no IRI forges a boundary.**  Take the quads in which no
IRI does, or at most `i`.  If `i` does not either, then no other quad has the name of such a quad,
and the record of each survives the addition of the other.  If `i` does, then some such quad has the
name of another quad, and of the two the one that is added first is not kept. -/
theorem recordName_separates (i : Iri) :
    (¬ i.ForgesBoundary ↔
      ∀ q q' : Quad, q.Plain → q'.Plain → (∀ j ∈ q.iris, j.ForgesBoundary → j = i) → q ≠ q' →
        q.recordName ≠ q'.recordName ∧
        ((NameId.ofName q.recordName = NameId.ofName q'.recordName →
            q.recordName = q'.recordName) →
          ∀ store : Store,
            (q.record ∈ store.staged → q.record ∈ (store.after (Store.addQuad q')).staged) ∧
            (q'.record ∈ store.staged → q'.record ∈ (store.after (Store.addQuad q)).staged))) ∧
    (i.ForgesBoundary →
      ∃ q q' : Quad, q.Plain ∧ q'.Plain ∧ i ∈ q.iris ∧
        (∀ j ∈ q.iris, j.ForgesBoundary → j = i) ∧ q ≠ q' ∧ q.recordName = q'.recordName ∧
        ∀ store : Store, store.isReadOnly = false →
          q.record ∉ ((store.after (Store.addQuad q)).after (Store.addQuad q')).staged) := by
  refine ⟨⟨fun hi q q' hq hq' honly hne => ?_, fun hseparates hforges => ?_⟩, fun hforges => ?_⟩
  · have hiris : ∀ j ∈ q.iris, ¬ j.ForgesBoundary := fun j hj hforges =>
      hi (honly j hj hforges ▸ hforges)
    have hname : q.recordName ≠ q'.recordName := fun h =>
      hne (Quad.eq_of_recordName_eq hq hq' hiris h)
    refine ⟨hname, fun hdigest store => ?_⟩
    have hid : q.record.id ≠ q'.record.id := fun h => hname (hdigest h)
    exact ⟨Store.mem_staged_addQuad hid, Store.mem_staged_addQuad hid.symm⟩
  · obtain ⟨q, q', hq, hq', -, honly, hne, hname⟩ := forged_boundary_collision hforges
    exact (hseparates q q' hq hq' honly hne).1 hname
  · obtain ⟨q, q', hq, hq', hmem, honly, hne, hname⟩ := forged_boundary_collision hforges
    exact ⟨q, q', hq, hq', hmem, honly, hne, hname, fun store =>
      Store.notMem_staged_of_recordName_eq hne hname⟩

/-- Brackets and blanks do no harm to a quad as long as they forge no boundary.  It is kept when one
with nearly its name is added to a new store, although an IRI of that one forges a boundary. -/
theorem recordName_separates_brackets :
    let q : Quad := ⟨⟨.iri ⟨"a> b"⟩, ⟨"p"⟩, .blank ⟨"b0"⟩⟩, .default⟩
    let q' : Quad := ⟨⟨.iri ⟨"a"⟩, ⟨"b> <p"⟩, .blank ⟨"b0"⟩⟩, .default⟩
    let store : Store := ⟨{}, .empty, some (.on .empty), .empty, .zero⟩
    q.recordName ≠ q'.recordName ∧
      q.record ∈ ((store.after (Store.addQuad q)).after (Store.addQuad q')).staged ∧
      ∃ r r' : Quad, r ≠ r' ∧ r.recordName = r'.recordName := by
  intro q q' store
  have hplain : IsPlainLabel "b0" := ⟨by decide, by decide⟩
  have hq : q.Plain := by simp [q, Quad.Plain, Quad.terms, Term.labels, Resource.toTerm,
    GraphName.term?, hplain]
  have hq' : q'.Plain := by simp [q', Quad.Plain, Quad.terms, Term.labels, Resource.toTerm,
    GraphName.term?, hplain]
  have hbracket : ¬ Iri.ForgesBoundary ⟨"a> b"⟩ := Iri.not_forgesBoundary (by decide)
  have honly : ∀ j ∈ q.iris, j.ForgesBoundary → j = ⟨"a> b"⟩ := by
    intro j hj hforges
    have hcases : j = ⟨"a> b"⟩ ∨ j = ⟨"p"⟩ := by
      simpa [q, Quad.iris, Quad.terms, Term.iris, Resource.toTerm, GraphName.term?] using hj
    rcases hcases with rfl | rfl
    · rfl
    · exact absurd hforges (Iri.not_forgesBoundary (by decide))
  have hdigest : NameId.ofName q.recordName ≠ NameId.ofName q'.recordName := by decide +kernel
  obtain ⟨hname, hkept⟩ :=
    (recordName_separates ⟨"a> b"⟩).1.1 hbracket q q' hq hq' honly (by decide)
  have hadded : q.record ∈ (store.after (Store.addQuad q)).staged := by
    rw [Store.addQuad, Store.staged_add _ _ _ rfl]
    exact List.mem_append_right _ List.mem_cons_self
  obtain ⟨r, r', -, -, -, -, hne, hequal, -⟩ :=
    (recordName_separates ⟨"b> <p"⟩).2 (.inl ⟨['b'], ['p'], rfl⟩)
  exact ⟨hname, (hkept (fun h => absurd h hdigest) _).1 hadded, r, r', hne, hequal⟩

/-- Two lines whose IRIs escape a bracket.  They are read as different statements, whose records
have one name, so the first statement is not kept. -/
theorem escaped_bracket_replaces :
    ∃ q q' : Quad,
      parseStatement "<http://x/a\\u003E <http://x/b> <http://x/p> <http://x/o> .".toList =
        .ok (some q) ∧
      parseStatement "<http://x/a> <http://x/b\\u003E <http://x/p> <http://x/o> .".toList =
        .ok (some q') ∧
      q ≠ q' ∧ q.recordName = q'.recordName ∧
      ∀ store : Store, store.isReadOnly = false →
        q.record ∉ ((store.after (Store.addQuad q)).after (Store.addQuad q')).staged := by
  let object : Term := .iri ⟨"http://x/o"⟩
  let q : Quad := ⟨⟨.iri ⟨"http://x/a> <http://x/b"⟩, ⟨"http://x/p"⟩, object⟩, .default⟩
  let q' : Quad := ⟨⟨.iri ⟨"http://x/a"⟩, ⟨"http://x/b> <http://x/p"⟩, object⟩, .default⟩
  have hne : q ≠ q' := by decide
  have hname : q.recordName = q'.recordName := by decide
  refine ⟨q, q', ?_, ?_, hne, hname, fun store =>
    Store.notMem_staged_of_recordName_eq hne hname⟩
  · cbv
  · cbv

end QuadStore
