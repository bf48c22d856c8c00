import Mathlib
import QuadStore.Grammar.Query
import QuadStore.Proofs.BuildingPredicates
import QuadStore.Proofs.TokenScanning

/-!
# Printed statements are read back

A statement is printed as a line of a statement file, three written forms and a full stop.  The
line is read back to the statement if and only if the statement is *clean*: its labels and language
tags are those of the grammar, and no IRI of it holds a closing bracket
(`parseStatement_line_of_clean`, `clean_of_parseStatement_line`).

Everything that was read from a line has labels and language tags of the grammar.  Its IRIs, though,
may hold a closing bracket, which the line had escaped; printing does not escape it again, and then
the printed line is read as something else, if it is read at all (`parseStatement_line_iff`).

Reading is followed one term at a time (`TermAt`): behind a term that was printed cleanly the rest of
the line is left as it was, and a term that was not is never read as itself.
-/

namespace QuadStore

open Grammar

/-! ## Clean statements -/

namespace Triple

/-- The terms of a statement. -/
def terms (triple : Triple) : List Term :=
  [triple.subject.toTerm, .iri triple.predicate, triple.object]

/-- The IRIs of a statement, those of datatypes included. -/
def iris (triple : Triple) : List Iri := triple.terms.flatMap Term.iris

/-- A statement of which all terms are clean. -/
def Clean (triple : Triple) : Prop := ∀ term ∈ triple.terms, term.Clean

/-- A statement whose labels and language tags are those of the grammar. -/
def Grammatical (triple : Triple) : Prop := ∀ term ∈ triple.terms, term.Grammatical

lemma clean_iff {triple : Triple} :
    triple.Clean ↔ triple.Grammatical ∧ ∀ iri ∈ triple.iris, '>' ∉ iri.text.toList := by
  constructor
  · intro h
    refine ⟨fun term hterm => (h term hterm).grammatical, fun iri hiri => ?_⟩
    obtain ⟨term, hterm, hmem⟩ := List.mem_flatMap.mp hiri
    exact (h term hterm).bracketFree iri hmem
  · rintro ⟨hgrammatical, hbrackets⟩ term hterm
    exact ⟨hgrammatical term hterm, fun iri hiri =>
      hbrackets iri (List.mem_flatMap.mpr ⟨term, hterm, hiri⟩)⟩

lemma line_toList (triple : Triple) : triple.line.toList =
    triple.subject.toTerm.written ++ ' ' :: ((Term.iri triple.predicate).written ++ ' ' ::
      (triple.object.written ++ [' ', '.'])) := by
  have hblank : " ".toList = [' '] := rfl
  have hstop : " .".toList = [' ', '.'] := rfl
  rw [Resource.written_toTerm]
  simp [line, Resource.encode, Iri.encode, Term.encode, Term.written, hblank, hstop]

end Triple

lemma Term.Grammatical.wellFormed {term : Term} (h : term.Grammatical) : term.WellFormed := by
  cases term with
  | iri i => trivial
  | blank b =>
    rintro hempty
    exact h.1 (String.toList_eq_nil_iff.mpr hempty)
  | literal l =>
    cases l with
    | simple lexical => trivial
    | tagged lexical tag =>
      rintro rfl
      obtain ⟨first, parts, htoList, ⟨hne, -⟩, -⟩ := h
      exact hne (List.append_eq_nil_iff.mp htoList.symm).1
    | typed lexical datatype => trivial

/-! ## One term of a line -/

namespace Grammar

/-- A text has a term at its front, behind blanks and comments, and `rest` behind the term. -/
def TermAt (text : List Char) (term : Term) (rest : List Char) : Prop :=
  ∃ token, term? (skip text) = some (token, rest) ∧ Term.read token = .ok term

lemma skip_blank (text : List Char) : skip (' ' :: text) = skip text := rfl

/-- No written form begins with a blank or a comment. -/
lemma skip_written (term : Term) (rest : List Char) :
    skip (term.written ++ rest) = term.written ++ rest := by
  cases term <;> rfl

variable {text rest after : List Char} {term : Term}

lemma TermAt.grammatical (h : TermAt text term rest) : term.Grammatical := by
  obtain ⟨token, hscan, hread⟩ := h
  exact grammatical_of_term? hscan hread

/-- **A printed term is read back just when it is clean**, and then nothing else is taken. -/
lemma termAt_written (hgrammatical : term.Grammatical) (hrest : EndsToken rest) :
    TermAt (term.written ++ rest) term after ↔ term.Clean ∧ after = rest := by
  rw [TermAt, skip_written]
  constructor
  · rintro ⟨token, hscan, hread⟩
    have hclean : term.Clean := by
      refine ⟨hgrammatical, fun iri hiri hbracket => ?_⟩
      obtain ⟨token', after', other, hscan', hread', hne⟩ :=
        exists_term?_written_of_bracket hiri hbracket rest
      rw [hscan', Option.some.injEq, Prod.mk.injEq] at hscan
      rw [← hscan.1, hread'] at hread
      exact hne (Except.ok.inj hread)
    rw [term?_written hclean hrest, Option.some.injEq, Prod.mk.injEq] at hscan
    exact ⟨hclean, hscan.2.symm⟩
  · rintro ⟨hclean, rfl⟩
    exact ⟨term.written, term?_written hclean hrest, Term.read_written hgrammatical.wellFormed⟩

lemma termAt_blank_written (hgrammatical : term.Grammatical) (hrest : EndsToken rest) :
    TermAt (' ' :: (term.written ++ rest)) term after ↔ term.Clean ∧ after = rest := by
  rw [← termAt_written hgrammatical hrest, TermAt, skip_blank]
  rfl

end Grammar

/-! ## The three terms of a line -/

lemma Iri.term_read {token : List Char} {iri : Iri} (h : Iri.read token = .ok iri) :
    Term.read token = .ok (.iri iri) := by
  cases token with
  | nil => cases h
  | cons c inner =>
    by_cases hc : c = '<'
    · subst hc
      rw [Term.read, h]
      rfl
    · have hnone : enclosed? (c :: inner) = none := by
        unfold enclosed?
        split
        · rename_i heq
          exact absurd (List.cons.inj heq).1 hc
        · rfl
      rw [Iri.read, hnone] at h
      cases h

lemma Resource.term_read {token : List Char} {resource : Resource}
    (h : Resource.read token = .ok resource) : Term.read token = .ok resource.toTerm := by
  unfold Resource.read at h
  split at h
  · cases h
  · rename_i term hread
    cases term <;> cases h <;> exact hread

namespace Grammar

/-- The row of a statement has the tokens of its three terms, one behind the other, and that of the
graph's name if there is one. -/
lemma exists_of_statement? {text rest : List Char} {row : List (List Char)}
    (h : statement? text = some (row, rest)) :
    ∃ subject predicate object first second third,
      row = subject :: predicate :: object :: ((graphLabel? (skip third)).map Prod.fst).toList ∧
      term? text = some (subject, first) ∧ term? (skip first) = some (predicate, second) ∧
      term? (skip second) = some (object, third) := by
  simp only [statement?, Option.bind_eq_bind, Option.bind_eq_some_iff] at h
  obtain ⟨⟨subject, first⟩, hsubject, ⟨predicate, second⟩, hpredicate, ⟨object, third⟩, hobject,
    _, -, hpair⟩ := h
  cases hpair
  exact ⟨subject, predicate, object, first, second, third, rfl, hsubject, hpredicate, hobject⟩

lemma eq_ok_of_readAs {α : Type} {read : Except TermError α} {a : α} (h : readAs read = .ok a) :
    read = .ok a := by
  cases read with
  | error fault => cases h
  | ok b => exact congrArg Except.ok (Except.ok.inj h)

lemma eq_ok_of_mapError {ε δ α : Type} {f : ε → δ} {x : Except ε α} {a : α}
    (h : x.mapError f = .ok a) : x = .ok a := by
  cases x with
  | error fault => cases h
  | ok b => exact congrArg Except.ok (Except.ok.inj h)

/-- From a row of three tokens or more all are taken that are asked for. -/
lemma readQuad_row (text subject predicate object : List Char) (labels : List (List Char)) :
    readQuad text (subject :: predicate :: object :: labels) = (do
      let s ← readAs (Resource.read subject)
      let p ← readAs (Iri.read predicate)
      let o ← readAs (Term.read object)
      let graph ← readGraph labels
      return ⟨⟨s, p, o⟩, graph⟩) := rfl

lemma readQuad_eq_ok {text subject predicate object : List Char} {labels : List (List Char)}
    {quad : Quad} (h : readQuad text (subject :: predicate :: object :: labels) = .ok quad) :
    Resource.read subject = .ok quad.triple.subject ∧
      Iri.read predicate = .ok quad.triple.predicate ∧
      Term.read object = .ok quad.triple.object := by
  rw [readQuad_row] at h
  obtain ⟨s, hsubject, h⟩ := exists_ok_of_bind h
  obtain ⟨p, hpredicate, h⟩ := exists_ok_of_bind h
  obtain ⟨o, hobject, h⟩ := exists_ok_of_bind h
  obtain ⟨graph, -, h⟩ := exists_ok_of_bind h
  cases h
  exact ⟨eq_ok_of_readAs hsubject, eq_ok_of_readAs hpredicate, eq_ok_of_readAs hobject⟩

/-- The statement of a line, as its row and what that stands for. -/
lemma exists_of_parseStatement {line : List Char} {quad : Quad}
    (h : parseStatement line = .ok (some quad)) :
    ∃ row rest, statement? (skip line) = some (row, rest) ∧ readQuad line row = .ok quad := by
  have hread := eq_ok_of_mapError h
  unfold readStatement at hread
  split at hread
  · cases hread
  · cases hread
  · rename_i row hline
    obtain ⟨read, hquad, hsome⟩ := exists_of_map_eq_ok hread
    cases hsome
    simp only [line?] at hline
    split at hline
    · rename_i found rest hstatement
      split at hline
      · cases hline
        exact ⟨row, rest, hstatement, hquad⟩
      · cases hline
    · split at hline <;> cases hline

end Grammar

/-- What is read of a line has its three terms in a row. -/
lemma exists_termAt_of_parseStatement {line : List Char} {quad : Quad}
    (h : parseStatement line = .ok (some quad)) :
    ∃ first second third, TermAt line quad.triple.subject.toTerm first ∧
      TermAt first (.iri quad.triple.predicate) second ∧
      TermAt second quad.triple.object third := by
  obtain ⟨row, rest, hstatement, hread⟩ := exists_of_parseStatement h
  obtain ⟨_, _, _, first, second, third, rfl, hfirst, hsecond, hthird⟩ :=
    exists_of_statement? hstatement
  obtain ⟨hsubject, hpredicate, hobject⟩ := readQuad_eq_ok hread
  exact ⟨first, second, third, ⟨_, hfirst, Resource.term_read hsubject⟩,
    ⟨_, hsecond, Iri.term_read hpredicate⟩, ⟨_, hthird, hobject⟩⟩

/-- Labels and language tags that were read from a line are those of the grammar. -/
lemma grammatical_of_parseStatement {line : List Char} {quad : Quad}
    (h : parseStatement line = .ok (some quad)) : quad.triple.Grammatical := by
  obtain ⟨first, second, third, hsubject, hpredicate, hobject⟩ := exists_termAt_of_parseStatement h
  simp only [Triple.Grammatical, Triple.terms, List.forall_mem_cons, List.not_mem_nil,
    false_implies, implies_true, and_true]
  exact ⟨hsubject.grammatical, hpredicate.grammatical, hobject.grammatical⟩

/-! ## The line of a statement -/

section

variable {triple : Triple}

/-- A clean statement is taken from its line. -/
lemma statement?_line (h : triple.Clean) : statement? triple.line.toList =
    some ([triple.subject.toTerm.written, (Term.iri triple.predicate).written,
      triple.object.written], []) := by
  obtain ⟨hsubject, hpredicate, hobject⟩ :
      triple.subject.toTerm.Clean ∧ (Term.iri triple.predicate).Clean ∧ triple.object.Clean := by
    simpa [Triple.Clean, Triple.terms] using h
  rw [Triple.line_toList]
  simp only [statement?, term?_written hsubject (endsToken_blank _),
    term?_written hpredicate (endsToken_blank _), term?_written hobject (endsToken_blank _),
    skip_blank, skip_written, Option.bind_eq_bind, Option.bind_some]
  -- What is left is the full stop, which begins no graph name.
  rfl

lemma readQuad_written (h : triple.Grammatical) (text : List Char) :
    readQuad text [triple.subject.toTerm.written, (Term.iri triple.predicate).written,
      triple.object.written] = .ok ⟨triple, .default⟩ := by
  have hsubject : Resource.read triple.subject.toTerm.written = .ok triple.subject := by
    have hterm : triple.subject.toTerm.WellFormed := (h _ (by simp [Triple.terms])).wellFormed
    rw [Resource.read, Term.read_written hterm]
    simp only [Resource.toResource?_toTerm]
  have hpredicate : Iri.read (Term.iri triple.predicate).written = .ok triple.predicate :=
    Iri.read_written triple.predicate
  have hobject : Term.read triple.object.written = .ok triple.object :=
    Term.read_written (h _ (by simp [Triple.terms])).wellFormed
  rw [readQuad_row, hsubject, hpredicate, hobject]
  rfl

/-- **A clean statement is read back from its line.** -/
theorem parseStatement_line_of_clean (h : triple.Clean) :
    parseStatement triple.line.toList = .ok (some ⟨triple, .default⟩) := by
  have hskip : skip triple.line.toList = triple.line.toList := by
    rw [Triple.line_toList, skip_written]
  have hline : line? triple.line.toList =
      some (some [triple.subject.toTerm.written, (Term.iri triple.predicate).written,
        triple.object.written]) := by
    simp only [line?, hskip, statement?_line h]
    rfl
  rw [parseStatement, readStatement, hline]
  simp only [readQuad_written fun term hterm => (h term hterm).grammatical]
  rfl

/-- A statement that is read from its own line, if its labels and language tags are those of the
grammar, is clean. -/
theorem clean_of_parseStatement_line {quad : Quad} (hgrammatical : triple.Grammatical)
    (h : parseStatement triple.line.toList = .ok (some quad)) (hquad : quad.triple = triple) :
    triple.Clean := by
  obtain ⟨first, second, third, hsubject, hpredicate, hobject⟩ := exists_termAt_of_parseStatement h
  simp only [Triple.Grammatical, Triple.Clean, Triple.terms, List.forall_mem_cons, List.not_mem_nil,
    false_implies, implies_true, and_true] at hgrammatical ⊢
  obtain ⟨gsubject, gpredicate, gobject⟩ := hgrammatical
  rw [hquad] at hsubject hpredicate hobject
  rw [Triple.line_toList] at hsubject
  obtain ⟨csubject, rfl⟩ := (termAt_written gsubject (endsToken_blank _)).mp hsubject
  obtain ⟨cpredicate, rfl⟩ := (termAt_blank_written gpredicate (endsToken_blank _)).mp hpredicate
  obtain ⟨cobject, rfl⟩ := (termAt_blank_written gobject (endsToken_blank _)).mp hobject
  exact ⟨csubject, cpredicate, cobject⟩

end

/-- **What was read from a line is read back from its own line just when its IRIs hold no closing
bracket.**  Which escapes the first line had does not matter otherwise, nor in which graph the
statement was. -/
theorem parseStatement_line_iff {line : List Char} {quad : Quad}
    (h : parseStatement line = .ok (some quad)) :
    parseStatement quad.triple.line.toList = .ok (some ⟨quad.triple, .default⟩) ↔
      ∀ iri ∈ quad.triple.iris, '>' ∉ iri.text.toList := by
  have hgrammatical := grammatical_of_parseStatement h
  constructor
  · intro hread
    exact (Triple.clean_iff.mp (clean_of_parseStatement_line hgrammatical hread rfl)).2
  · intro hbrackets
    exact parseStatement_line_of_clean (Triple.clean_iff.mpr ⟨hgrammatical, hbrackets⟩)

/-- A line with escapes of every kind of token.  The bracket in the lexical form does no harm. -/
theorem parseStatement_line_iff_escapes :
    let line := "_:b-1 <http://x/\\u0070> \"a\\u003E\\\"\\n\"^^<http://x/d\\u0020t> <http://x/g> . # c"
    let quad : Quad := ⟨⟨.blank ⟨"b-1"⟩, ⟨"http://x/p"⟩,
      .literal (.ofDatatype "a>\"\n" ⟨"http://x/d t"⟩)⟩, .named (.iri ⟨"http://x/g"⟩)⟩
    parseStatement line.toList = .ok (some quad) ∧
      (∀ iri ∈ quad.triple.iris, '>' ∉ iri.text.toList) ∧
      parseStatement quad.triple.line.toList = .ok (some ⟨quad.triple, .default⟩) := by
  intro line quad
  have hline : parseStatement line.toList = .ok (some quad) := by decide +kernel
  have hbrackets : ∀ iri ∈ quad.triple.iris, '>' ∉ iri.text.toList := by decide +kernel
  exact ⟨hline, hbrackets, (parseStatement_line_iff hline).mpr hbrackets⟩

/-- A statement whose subject is an IRI with an escaped bracket is printed as a line of four terms.
That line is accepted, as another statement, in the graph that the object names. -/
theorem escaped_bracket_misread :
    let line := "<http://x/a\\u003E <http://x/q> <http://x/p> <http://x/o> ."
    let triple : Triple :=
      ⟨.iri ⟨"http://x/a> <http://x/q"⟩, ⟨"http://x/p"⟩, .iri ⟨"http://x/o"⟩⟩
    let other : Triple := ⟨.iri ⟨"http://x/a"⟩, ⟨"http://x/q"⟩, .iri ⟨"http://x/p"⟩⟩
    parseStatement line.toList = .ok (some ⟨triple, .default⟩) ∧
      parseStatement triple.line.toList = .ok (some ⟨other, .named (.iri ⟨"http://x/o"⟩)⟩) ∧
      parseStatement triple.line.toList ≠ .ok (some ⟨triple, .default⟩) := by
  decide +kernel

end QuadStore
