import Mathlib
import QuadStore.Proofs.TermRoundTrip
import QuadStore.Proofs.Membership
import QuadStore.Proofs.ValueOrder
import QuadStore.Proofs.DateReading

/-!
# What a record tells of its statement

A record serves two purposes.  Its four written forms tell the graph and the statement, so that what is
found can be given back.  And its other fields are what an object is found by: a literal of a datatype
with values by the value that it denotes, any other object by a text.

Which values there are is said here by the datatype and the lexical form (`Literal.Denotes`), without the
kinds and the readers, and `Literal.value?_eq_some_iff` says that those come to the same.  The main
statement, `record_projects`, then describes all fields of the record of any well-formed statement: just
one of value and text is there, and it is the one that the object calls for.
-/

namespace QuadStore

open Calendar

/-! ## Kinds -/

namespace LiteralKind

/-- **A kind has the datatypes of its entries in the table**, none of which is there twice. -/
lemma ofDatatype_eq_iff {datatype : Iri} {kind : LiteralKind} (h : kind ≠ .text) :
    ofDatatype datatype = kind ↔ (datatype, kind) ∈ table := by
  have hentries : ∀ entry ∈ table, ofDatatype entry.1 = entry.2 := by decide +kernel
  refine ⟨fun hkind => ?_, fun hentry => hentries _ hentry⟩
  unfold ofDatatype at hkind
  cases hlookup : table.lookup datatype with
  | none =>
    rw [hlookup] at hkind
    exact absurd hkind.symm h
  | some found =>
    rw [hlookup] at hkind
    cases hkind
    obtain ⟨before, after, htable, -⟩ := List.lookup_eq_some_iff.mp hlookup
    rw [htable]
    exact List.mem_append_right _ List.mem_cons_self

lemma ofDatatype_eq_boolean_iff {datatype : Iri} :
    ofDatatype datatype = boolean ↔ datatype = Xsd.boolean := by
  simp [ofDatatype_eq_iff, table]

lemma ofDatatype_eq_numeric_iff {datatype : Iri} :
    ofDatatype datatype = numeric ↔
      datatype ∈ [Xsd.int, Xsd.integer, Xsd.decimal, Xsd.double, Xsd.long] := by
  simp [ofDatatype_eq_iff, table]

lemma ofDatatype_eq_date_iff {datatype : Iri} :
    ofDatatype datatype = date ↔ datatype ∈ [Xsd.date, Xsd.dateTime] := by
  simp [ofDatatype_eq_iff, table]

lemma boolean?_eq_some_iff {lexical : List Char} {value : Bool} :
    boolean? lexical = some value ↔
      String.ofList (Text.trim lexical) ∈ if value then ["true", "1"] else ["false", "0"] := by
  unfold boolean?
  generalize String.ofList (Text.trim lexical) = word
  by_cases htrue : word = "true" ∨ word = "1"
  · rcases htrue with rfl | rfl <;> cases value <;> decide
  · by_cases hfalse : word = "false" ∨ word = "0"
    · rcases hfalse with rfl | rfl <;> cases value <;> decide
    · rw [if_neg htrue, if_neg hfalse]
      cases value with
      | false => simpa using hfalse
      | true => simpa using htrue

end LiteralKind

/-! ## Values -/

/-- The values that literals denote, blanks around their lexical forms aside. -/
inductive Literal.Denotes (l : Literal) : Value → Prop where
  | truth {value : Bool} (datatype_eq : l.datatype = Xsd.boolean)
    (word : String.ofList (Text.trim l.lexical.toList) ∈
      if value then ["true", "1"] else ["false", "0"]) : l.Denotes (.boolean value)
  /-- Both zeros are the one without a sign. -/
  | number {x : Binary64}
    (datatype_mem : l.datatype ∈ [Xsd.int, Xsd.integer, Xsd.decimal, Xsd.double, Xsd.long])
    (read_eq : Binary64.read? (Text.trim l.lexical.toList) = some x) :
    l.Denotes (.numeric x.unsignedZero)
  | instant {date : DateText} {millis : Int} (datatype_mem : l.datatype ∈ [Xsd.date, Xsd.dateTime])
    (text_eq : date.text = Text.trim l.lexical.toList)
    (denotes : date.Denotes (milliNanos * millis)) : l.Denotes (.date millis)

/-- **The reader of values gives what is denoted.** -/
theorem Literal.value?_eq_some_iff {l : Literal} {value : Value} :
    l.value? = some value ↔ l.Denotes value := by
  constructor
  · intro h
    unfold Literal.value? LiteralKind.value? at h
    split at h
    · rename_i hkind
      obtain ⟨truth, htruth, rfl⟩ := Option.map_eq_some_iff.mp h
      exact .truth (LiteralKind.ofDatatype_eq_boolean_iff.mp hkind)
        (LiteralKind.boolean?_eq_some_iff.mp htruth)
    · rename_i hkind
      simp only [LiteralKind.numeric?, Option.map_map, Option.map_eq_some_iff] at h
      obtain ⟨x, hx, rfl⟩ := h
      exact .number (LiteralKind.ofDatatype_eq_numeric_iff.mp hkind) hx
    · rename_i hkind
      obtain ⟨millis, hmillis, rfl⟩ := Option.map_eq_some_iff.mp h
      obtain ⟨date, htext, hdenotes⟩ := millis?_eq_some_iff.mp hmillis
      exact .instant (LiteralKind.ofDatatype_eq_date_iff.mp hkind) htext hdenotes
    · cases h
  · rintro (⟨hdatatype, hword⟩ | ⟨hdatatype, hread⟩ | ⟨hdatatype, htext, hdenotes⟩)
    · have hkind : l.kind = .boolean := LiteralKind.ofDatatype_eq_boolean_iff.mpr hdatatype
      rw [Literal.value?, hkind, LiteralKind.value?, LiteralKind.boolean?_eq_some_iff.mpr hword]
      rfl
    · have hkind : l.kind = .numeric := LiteralKind.ofDatatype_eq_numeric_iff.mpr hdatatype
      rw [Literal.value?, hkind, LiteralKind.value?, LiteralKind.numeric?, hread]
      rfl
    · have hkind : l.kind = .date := LiteralKind.ofDatatype_eq_date_iff.mpr hdatatype
      rw [Literal.value?, hkind, LiteralKind.value?, millis?_eq_some_iff.mpr ⟨_, htext, hdenotes⟩]
      rfl

/-! ## Records -/

/-- The values of an object, which only a literal has. -/
def Term.Denotes (term : Term) (value : Value) : Prop := ∃ l, term = .literal l ∧ l.Denotes value

/-- The text by which an object without a value is found. -/
def Term.plainText : Term → String
  | .literal l => l.lexical
  | term => term.encode

/-- The language under which an object is found, which only a literal has. -/
def Term.languageKey? : Term → Option String
  | .literal l => some l.languageKey
  | _ => none

lemma Record.value_ofTriple {graph : GraphName} {triple : Triple} {value : Value} :
    (Record.ofTriple graph triple).value = some value ↔ triple.object.Denotes value := by
  by_cases hliteral : ∃ l, triple.object = .literal l
  · obtain ⟨l, hl⟩ := hliteral
    have hquad : (⟨triple, graph⟩ : Quad).triple.object = .literal l := hl
    obtain ⟨-, hvalue, -⟩ := Quad.record_of_literal hquad
    rw [Quad.record] at hvalue
    rw [hvalue, Literal.value?_eq_some_iff, hl]
    simp [Term.Denotes]
  · have hresource : ∀ l, triple.object ≠ .literal l := fun l hl => hliteral ⟨l, hl⟩
    have hnone : (Record.ofTriple graph triple).value = none := by
      simp only [Record.ofTriple, Term.project.eq_2 _ hresource]
    rw [hnone]
    constructor
    · intro h
      cases h
    · rintro ⟨l, hl, -⟩
      exact absurd hl (hresource l)

/-- An object without a value, and no other, is found by its text. -/
lemma Record.text_ofTriple (graph : GraphName) (triple : Triple) :
    (Record.ofTriple graph triple).text =
      if (Record.ofTriple graph triple).value = none then some triple.object.plainText else none := by
  cases hobject : triple.object with
  | literal l =>
    have hquad : (⟨triple, graph⟩ : Quad).triple.object = .literal l := hobject
    obtain ⟨-, hvalue, htext⟩ := Quad.record_of_literal hquad
    rw [Quad.record] at hvalue htext
    rw [hvalue, htext]
    rfl
  | iri | blank => simp [Record.ofTriple, hobject, Term.project, Term.plainText]

lemma Record.language_ofTriple (graph : GraphName) (triple : Triple) :
    (Record.ofTriple graph triple).language = triple.object.languageKey? := by
  cases hobject : triple.object <;> simp [Record.ofTriple, hobject, Term.project, Term.languageKey?]

/-- **A record tells its statement, and has the one field that its object is found by.** -/
theorem record_projects {graph : GraphName} {triple : Triple} (hgraph : graph.WellFormed)
    (htriple : triple.WellFormed) :
    let record := Record.ofTriple graph triple
    GraphName.decode record.graph = .ok graph ∧ record.stored.decode = .ok triple ∧
      Xor (record.value ≠ none) (record.text ≠ none) ∧
      (∀ value, record.value = some value ↔ triple.object.Denotes value) ∧
      (∀ x, record.value = some (.numeric x) → x.bits.toNat ≠ Binary64.signBit) ∧
      (∀ text, record.text = some text ↔ record.value = none ∧ text = triple.object.plainText) ∧
      record.language = triple.object.languageKey? := by
  intro record
  have htext := Record.text_ofTriple graph triple
  refine ⟨GraphName.decode_encode hgraph, Triple.decode_stored htriple, ?_,
    fun value => Record.value_ofTriple, fun x hx => ?_, fun text => ?_,
    Record.language_ofTriple graph triple⟩
  · show Xor (record.value ≠ none) (record.text ≠ none)
    by_cases hvalue : record.value = none
    · exact .inr ⟨by simp [record, htext, hvalue], not_not.mpr hvalue⟩
    · exact .inl ⟨hvalue, by simp [record, htext, hvalue]⟩
  · obtain ⟨l, -, hl⟩ := Record.value_ofTriple.mp hx
    exact LiteralKind.bits_ne_signBit (Literal.value?_eq_some_iff.mpr hl)
  · show record.text = some text ↔ record.value = none ∧ text = triple.object.plainText
    by_cases hvalue : record.value = none
    · simp [record, htext, hvalue, eq_comm]
    · simp [record, htext, hvalue]

/-- A negative zero in a graph that is named by a blank node: it has a value, which is the positive one,
and so it is no text; but its written form is kept as it was. -/
theorem record_projects_zero :
    let graph : GraphName := .named (.blank ⟨"g"⟩)
    let triple : Triple := ⟨.blank ⟨"b"⟩, ⟨"http://x/p"⟩,
      .literal (.typed " -0.0 " ⟨Xsd.double, by decide⟩)⟩
    let record := Record.ofTriple graph triple
    graph.WellFormed ∧ triple.WellFormed ∧ GraphName.decode record.graph = .ok graph ∧
      record.stored.decode = .ok triple ∧ record.value = some (.numeric .zero) ∧ record.text = none ∧
      record.language = some "__nolang__" := by
  intro graph triple record
  have hlabel : BlankNode.WellFormed ⟨"g"⟩ ∧ BlankNode.WellFormed ⟨"b"⟩ := by
    simp [BlankNode.WellFormed]
  have hgraph : graph.WellFormed := hlabel.1
  have htriple : triple.WellFormed := ⟨hlabel.2, trivial⟩
  obtain ⟨hdecode, hstored, hone, hvalue, -, -, hlanguage⟩ := record_projects hgraph htriple
  have hread : Binary64.read? (Text.trim " -0.0 ".toList) = some ⟨0x8000000000000000⟩ := by
    decide +kernel
  have hdenotes : (Literal.typed " -0.0 " ⟨Xsd.double, by decide⟩).Denotes (.numeric .zero) :=
    .number (x := ⟨0x8000000000000000⟩) (by decide) hread
  have hzero : record.value = some (.numeric .zero) := (hvalue _).mpr ⟨_, rfl, hdenotes⟩
  refine ⟨hgraph, htriple, hdecode, hstored, hzero, ?_, hlanguage⟩
  rcases hone with ⟨-, htext⟩ | ⟨-, hnone⟩
  · exact not_not.mp htext
  · exact absurd (hzero.symm.trans (not_not.mp hnone)) (Option.some_ne_none _)

end QuadStore
