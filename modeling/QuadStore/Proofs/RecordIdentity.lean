import QuadStore.Proofs.NamePieces
import QuadStore.Proofs.TermRoundTrip
import QuadStore.Record

/-!
# What the name of a record tells

A record is known by a name, its four written forms one blank apart, and a record that is added
takes the place of the one with the same name.  So the name ought to tell the statement and its
graph.

It does not tell them always.  Writing an IRI escapes neither blanks nor angle brackets, and a text
may name such an IRI by escaping them, so an IRI can hold the very characters at which one written
form ends and the next begins.

The main statement, `Quad.eq_of_recordName_eq`, is that only IRIs of one kind do this
(`Iri.ForgesBoundary`): those that hold the end of an IRI followed by the beginning of another, at
once or with one blank node between them.  A quad without such IRIs shares its name with no other
quad, whatever the other's IRIs hold.  Labels and language tags are taken to hold no delimiter,
which is so of all that are read.

The two halves of a name are told apart by the quote that opens a literal, which no IRI holds
unescaped; within a half the pieces are counted (`Piece.eq_of_terminated_eq`).
-/

namespace QuadStore

open Text

/-! ## Names and IRIs of a quad -/

/-- The IRIs of a term. -/
def Term.iris : Term → List Iri
  | .iri i => [i]
  | .literal (.typed _ datatype) => [datatype.iri]
  | _ => []

/-- The label or language tag of a term. -/
def Term.labels : Term → List String
  | .blank b => [b.label]
  | .literal (.tagged _ tag) => [tag]
  | _ => []

/-- The term that names a graph. -/
def GraphName.term? : GraphName → Option Term
  | .default => none
  | .named name => some name.toTerm

namespace Quad

/-- The terms of a quad. -/
def terms (quad : Quad) : List Term :=
  [quad.triple.subject.toTerm, .iri quad.triple.predicate, quad.triple.object] ++
    quad.graph.term?.toList

/-- The IRIs of a quad. -/
def iris (quad : Quad) : List Iri := quad.terms.flatMap Term.iris

/-- The name of a quad's record. -/
def recordName (quad : Quad) : String :=
  QuadStore.recordName quad.graph.encode quad.triple.stored.subject quad.triple.stored.predicate
    quad.triple.stored.object

lemma eq_of_parts {q q' : Quad} (hsubject : q.triple.subject = q'.triple.subject)
    (hpredicate : q.triple.predicate = q'.triple.predicate)
    (hobject : q.triple.object = q'.triple.object) (hgraph : q.graph = q'.graph) : q = q' := by
  obtain ⟨⟨s, p, t⟩, g⟩ := q
  obtain ⟨⟨s', p', t'⟩, g'⟩ := q'
  rw [Quad.mk.injEq, Triple.mk.injEq]
  exact ⟨⟨hsubject, hpredicate, hobject⟩, hgraph⟩

end Quad

/-- A label or language tag without delimiters, and not empty. -/
def IsPlainLabel (label : String) : Prop := label ≠ "" ∧ Bare label.toList

/-- All labels and language tags of a quad are plain. -/
def Quad.Plain (quad : Quad) : Prop := ∀ t ∈ quad.terms, ∀ label ∈ t.labels, IsPlainLabel label

/-- An IRI that holds the end of one IRI and the beginning of another, one blank apart or with a
blank node between them. -/
def Iri.ForgesBoundary (iri : Iri) : Prop :=
  ['>', ' ', '<'] <:+: iri.text.toList ∨
    ∃ label, IsPlainLabel label ∧
      (['>', ' ', '_', ':'] ++ label.toList ++ [' ', '<']) <:+: iri.text.toList

/-! ## What escaping leaves alone -/

lemma escapeChar_of_bare {c : Char} (h : isDelimiter c = false) : escapeChar c = [c] := by
  simp only [isDelimiter, Bool.or_eq_false_iff, decide_eq_false_iff_not] at h
  obtain ⟨⟨⟨-, hquote⟩, hbackslash⟩, hcontrol⟩ := h
  have hne : ∀ d, isControl d = true → c ≠ d := fun d hd hcd => by
    rw [hcd, hd] at hcontrol
    cases hcontrol
  simp [escapeChar, hbackslash, hquote, hcontrol, hne '\n' rfl, hne '\r' rfl, hne '\t' rfl]

lemma escape_bare {text : List Char} (h : Bare text) : escape text = text := by
  induction text with
  | nil => rfl
  | cons c text ih =>
    rw [escape_cons, escapeChar_of_bare (h c List.mem_cons_self),
      ih fun d hd => h d (List.mem_cons_of_mem c hd)]
    rfl

lemma escapeChar_eq_or_backslash (c : Char) :
    escapeChar c = [c] ∨ ∃ rest, escapeChar c = '\\' :: rest := by
  unfold escapeChar
  split_ifs
  case neg => exact .inl rfl
  all_goals exact .inr ⟨_, rfl⟩

lemma eq_of_gt_mem_escapeChar {c : Char} (h : '>' ∈ escapeChar c) : c = '>' := by
  have hdigit : ∀ n < 16, '>' ≠ hexDigit n := by decide
  unfold escapeChar at h
  split_ifs at h <;> simp only [List.mem_cons, List.not_mem_nil, or_false, Char.reduceEq,
    false_or] at h
  · -- No digit of an escape is a bracket.
    simp only [hexQuad, List.mem_cons, List.not_mem_nil, or_false] at h
    rcases h with h | h | h | h <;> exact absurd h (hdigit _ (Nat.mod_lt _ (by decide)))
  · exact h.symm

/-- A closing bracket in an escaped text was one in the text. -/
lemma exists_of_escape_eq_append_gt {text before after : List Char}
    (h : escape text = before ++ '>' :: after) :
    ∃ first rest, text = first ++ '>' :: rest ∧ escape rest = after := by
  induction text generalizing before with
  | nil => simp at h
  | cons c text ih =>
    rw [escape_cons] at h
    rcases List.append_eq_append_iff.mp h with ⟨more, -, hmore⟩ | ⟨more, hc, hmore⟩
    · obtain ⟨first, rest, rfl, hrest⟩ := ih hmore
      exact ⟨c :: first, rest, rfl, hrest⟩
    · cases more with
      | nil =>
        obtain ⟨first, rest, rfl, hrest⟩ := ih (show escape text = [] ++ _ from hmore.symm)
        exact ⟨c :: first, rest, rfl, hrest⟩
      | cons d more =>
        obtain ⟨rfl, hafter⟩ := List.cons.inj hmore
        have hgt : c = '>' := eq_of_gt_mem_escapeChar (hc ▸ by simp)
        subst hgt
        have hone : ['>'] = before ++ '>' :: more := hc
        have hlength := congrArg List.length hone
        simp only [List.length_append, List.length_cons, List.length_nil] at hlength
        have hmore : more = [] := List.eq_nil_of_length_eq_zero (by omega)
        exact ⟨[], text, rfl, by rw [hafter, hmore]; rfl⟩

/-- What stands unescaped at the beginning of an escaped text stands at the beginning of the
text. -/
lemma exists_of_escape_eq_append {text plain after : List Char} (hplain : '\\' ∉ plain)
    (h : escape text = plain ++ after) : ∃ rest, text = plain ++ rest := by
  induction plain generalizing text with
  | nil => exact ⟨text, rfl⟩
  | cons c plain ih =>
    cases text with
    | nil => simp at h
    | cons d text =>
      rw [escape_cons] at h
      rcases escapeChar_eq_or_backslash d with hd | ⟨rest, hd⟩
      · rw [hd] at h
        obtain ⟨rfl, hrest⟩ := List.cons.inj h
        obtain ⟨rest, rfl⟩ := ih (fun hmem => hplain (List.mem_cons_of_mem d hmem)) hrest
        exact ⟨rest, rfl⟩
      · rw [hd] at h
        exact absurd ((List.cons.inj h).1 ▸ List.mem_cons_self) hplain

/-- An unescaped text with a closing bracket before it is found in an escaped text only if it stands
in the text. -/
lemma infix_of_infix_escape {text plain : List Char} (hplain : '\\' ∉ plain)
    (h : ('>' :: plain) <:+: escape text) : ('>' :: plain) <:+: text := by
  obtain ⟨before, after, hpart⟩ := h
  have hgt : escape text = before ++ '>' :: (plain ++ after) := by rw [← hpart]; simp
  obtain ⟨first, rest, rfl, hrest⟩ := exists_of_escape_eq_append_gt hgt
  obtain ⟨last, rfl⟩ := exists_of_escape_eq_append hplain hrest
  exact ⟨first, last, by simp⟩

/-! ## The pieces of a name -/

/-- A resource as a piece of a name. -/
def Resource.piece : Resource → Piece
  | .iri i => .bracketed [] (escape i.text.toList)
  | .blank b => .word b.written

/-- A graph name as a piece of a name. -/
def GraphName.piece : GraphName → Piece
  | .default => .word unnamedGraph.toList
  | .named name => name.piece

/-- The annotation of a literal as a piece of a name. -/
def Literal.suffixPiece : Literal → Piece
  | .simple _ => .word []
  | .tagged _ tag => .word ('@' :: tag.toList)
  | .typed _ datatype => .bracketed ['^', '^'] (escape datatype.iri.text.toList)

lemma Resource.text_piece (r : Resource) : r.piece.text = r.written := by
  cases r <;> rfl

lemma GraphName.text_piece (g : GraphName) : g.piece.text = g.written := by
  cases g with
  | default => rfl
  | named name => exact name.text_piece

lemma Literal.text_suffixPiece (l : Literal) : l.suffixPiece.text = l.suffix := by
  cases l <;> rfl

lemma bare_written {label : String} (h : IsPlainLabel label) :
    Bare (BlankNode.written ⟨label⟩) :=
  Bare.append (a := ['_', ':']) (by decide) h.2

lemma Resource.valid_piece {r : Resource} (h : ∀ label ∈ r.toTerm.labels, IsPlainLabel label) :
    r.piece.Valid := by
  cases r with
  | iri i => exact fun c hc => absurd hc List.not_mem_nil
  | blank b => exact bare_written (h b.label List.mem_cons_self)

lemma GraphName.valid_piece {g : GraphName}
    (h : ∀ t ∈ g.term?, ∀ label ∈ t.labels, IsPlainLabel label) : g.piece.Valid := by
  cases g with
  | default => exact (by decide : Bare unnamedGraph.toList)
  | named name => exact Resource.valid_piece (h name.toTerm rfl)

lemma Literal.valid_suffixPiece {l : Literal}
    (h : ∀ label ∈ (Term.literal l).labels, IsPlainLabel label) : l.suffixPiece.Valid := by
  cases l with
  | simple lexical => exact fun c hc => absurd hc List.not_mem_nil
  | tagged lexical tag =>
    exact Bare.append (a := ['@']) (by decide) (h tag List.mem_cons_self).2
  | typed lexical datatype => exact (by decide : Bare ['^', '^'])

/-! ## The gaps between brackets

Between two bracketed pieces of a name there is at most one word, the object, and the words before
a datatype are none. -/

/-- What a piece must hold to hide a boundary of a name. -/
def IsGap (gap : List Char) : Prop :=
  gap = ['<'] ∨ ∃ label, IsPlainLabel label ∧ gap = BlankNode.written ⟨label⟩ ++ [' ', '<']

/-- An IRI that forges no boundary hides none. -/
lemma Iri.not_hides {i : Iri} (h : ¬ i.ForgesBoundary) {gap : List Char} (hgap : IsGap gap) :
    ¬ ('>' :: ' ' :: gap) <:+: escape i.text.toList := by
  intro hpart
  apply h
  rcases hgap with rfl | ⟨label, hlabel, rfl⟩
  · exact .inl (infix_of_infix_escape (by decide) hpart)
  · have hplain : '\\' ∉ ' ' :: (BlankNode.written ⟨label⟩ ++ [' ', '<']) := by
      simp [(bare_written hlabel).notMem (c := '\\') rfl]
    exact .inr ⟨label, hlabel, by simpa [BlankNode.written] using infix_of_infix_escape hplain hpart⟩

lemma lead_graph {g : GraphName} {gap : List Char} (h : Piece.lead [g.piece] = some gap) :
    gap = ['<'] := by
  cases g with
  | default => cases h
  | named name => cases name <;> cases h; rfl

lemma lead_object {o : Resource} {g : GraphName} {gap : List Char}
    (ho : ∀ label ∈ o.toTerm.labels, IsPlainLabel label)
    (h : Piece.lead [o.piece, g.piece] = some gap) : IsGap gap := by
  cases o with
  | iri i => cases h; exact .inl rfl
  | blank b =>
    rw [Resource.piece, Piece.lead, Option.map_eq_some_iff] at h
    obtain ⟨rest, hrest, rfl⟩ := h
    rw [lead_graph hrest]
    exact .inr ⟨b.label, ho b.label List.mem_cons_self, rfl⟩

/-! ## Bracketed pieces hold IRIs -/

lemma Resource.exists_iri_of_piece {r : Resource} {mark inner : List Char}
    (h : r.piece = .bracketed mark inner) :
    ∃ i ∈ r.toTerm.iris, inner = escape i.text.toList := by
  cases r with
  | iri i => cases h; exact ⟨i, List.mem_cons_self, rfl⟩
  | blank b => cases h

lemma GraphName.exists_iri_of_piece {g : GraphName} {mark inner : List Char}
    (h : g.piece = .bracketed mark inner) :
    ∃ t ∈ g.term?, ∃ i ∈ t.iris, inner = escape i.text.toList := by
  cases g with
  | default => cases h
  | named name => exact ⟨name.toTerm, rfl, Resource.exists_iri_of_piece h⟩

lemma Literal.exists_iri_of_suffixPiece {l : Literal} {mark inner : List Char}
    (h : l.suffixPiece = .bracketed mark inner) :
    ∃ i ∈ (Term.literal l).iris, inner = escape i.text.toList := by
  cases l with
  | simple lexical => cases h
  | tagged lexical tag => cases h
  | typed lexical datatype => cases h; exact ⟨datatype.iri, List.mem_cons_self, rfl⟩

/-- Rows disclose each other's boundaries if the first holds only IRIs that forge none and the
second is cut at gaps. -/
lemma discloses_of_iris {row other : List Piece}
    (hrow : ∀ mark inner, Piece.bracketed mark inner ∈ row →
      ∃ i : Iri, ¬ i.ForgesBoundary ∧ inner = escape i.text.toList)
    (hother : ∀ before mark inner next gap, other = before ++ .bracketed mark inner :: next →
      Piece.lead next = some gap → IsGap gap) :
    Piece.Discloses row other := by
  intro mark inner hmem before mark' inner' next gap hsplit hgap
  obtain ⟨i, hi, rfl⟩ := hrow mark inner hmem
  exact Iri.not_hides hi (hother before mark' inner' next gap hsplit hgap)

/-! ## The two halves of a name -/

lemma Quad.recordName_toList (q : Quad) : q.recordName.toList =
    q.triple.subject.written ++ ' ' :: (q.triple.predicate.written ++ ' ' ::
      (q.triple.object.written ++ ' ' :: q.graph.written)) := by
  have hblank : " ".toList = [' '] := rfl
  simp [Quad.recordName, QuadStore.recordName, Triple.stored, Resource.encode, Iri.encode,
    Term.encode, GraphName.encode, hblank]

/-- No quote opens a literal in the written form of a resource. -/
lemma Resource.splitAtQuote_written {r : Resource}
    (h : ∀ label ∈ r.toTerm.labels, IsPlainLabel label) (rest : List Char) :
    splitAtQuote (r.written ++ rest) =
      (splitAtQuote rest).map fun p => (r.written ++ p.1, p.2) := by
  cases r with
  | iri i =>
    have hopen : ∀ rest, splitAtQuote ('<' :: rest) =
        (splitAtQuote rest).map fun p => ('<' :: p.1, p.2) :=
      splitAtQuote_cons (by decide) (by decide)
    have hclose : ∀ rest, splitAtQuote ('>' :: rest) =
        (splitAtQuote rest).map fun p => ('>' :: p.1, p.2) :=
      splitAtQuote_cons (by decide) (by decide)
    simp [Resource.written, Iri.written, hopen, hclose, splitAtQuote_escape_append,
      Function.comp_def]
  | blank b =>
    have hbare : Bare b.written := bare_written (h b.label List.mem_cons_self)
    rw [Resource.written, ← escape_bare hbare]
    exact splitAtQuote_escape_append _ _

lemma splitAtQuote_blank (rest : List Char) :
    splitAtQuote (' ' :: rest) = (splitAtQuote rest).map fun p => (' ' :: p.1, p.2) :=
  splitAtQuote_cons (by decide) (by decide) rest

/-- The first half of a name is passed over in the search for a literal. -/
lemma Quad.splitAtQuote_head {q : Quad} (h : q.Plain) (rest : List Char) :
    splitAtQuote (q.triple.subject.written ++ ' ' :: (q.triple.predicate.written ++ ' ' :: rest)) =
      (splitAtQuote rest).map fun p =>
        (q.triple.subject.written ++ ' ' :: (q.triple.predicate.written ++ ' ' :: p.1), p.2) := by
  have hsubject := h q.triple.subject.toTerm (by simp [Quad.terms])
  have hpredicate : ∀ rest, splitAtQuote (q.triple.predicate.written ++ rest) =
      (splitAtQuote rest).map fun p => (q.triple.predicate.written ++ p.1, p.2) :=
    Resource.splitAtQuote_written (r := .iri q.triple.predicate) (by simp [Resource.toTerm,
      Term.labels])
  rw [Resource.splitAtQuote_written hsubject, splitAtQuote_blank, hpredicate, splitAtQuote_blank]
  simp [Function.comp_def]

/-- The graph at the end of a name opens no literal. -/
lemma GraphName.splitAtQuote_written {g : GraphName}
    (h : ∀ t ∈ g.term?, ∀ label ∈ t.labels, IsPlainLabel label) :
    splitAtQuote g.written = none := by
  cases g with
  | default => decide
  | named name =>
    have hname := Resource.splitAtQuote_written (h name.toTerm rfl) []
    rw [List.append_nil] at hname
    rw [GraphName.written, hname]
    rfl

/-- The name of a quad whose object is a resource holds no quote that opens a literal. -/
lemma Quad.splitAtQuote_of_resource {q : Quad} (h : q.Plain) {o : Resource}
    (ho : q.triple.object = o.toTerm) : splitAtQuote q.recordName.toList = none := by
  have hobject : ∀ label ∈ o.toTerm.labels, IsPlainLabel label :=
    h o.toTerm (by simp [Quad.terms, ho])
  have hgraph := GraphName.splitAtQuote_written (g := q.graph)
    fun t ht => h t (by simp [Quad.terms, Option.mem_def.mp ht])
  rw [Quad.recordName_toList, Quad.splitAtQuote_head h, ho, Resource.written_toTerm,
    Resource.splitAtQuote_written hobject, splitAtQuote_blank, hgraph]
  rfl

/-- The quote that opens the object divides the name of a quad whose object is a literal. -/
lemma Quad.splitAtQuote_of_literal {q : Quad} (h : q.Plain) {l : Literal}
    (ho : q.triple.object = .literal l) : splitAtQuote q.recordName.toList =
      some (q.triple.subject.written ++ ' ' :: (q.triple.predicate.written ++ [' ']),
        escape l.lexical.toList ++ '"' :: (l.suffix ++ ' ' :: q.graph.written)) := by
  rw [Quad.recordName_toList, Quad.splitAtQuote_head h, ho]
  simp [Term.written, Literal.written, splitAtQuote]

/-! ## Equal names -/

lemma Resource.piece_injective : Function.Injective Resource.piece := by
  intro a b h
  have htext := congrArg Piece.text h
  rw [text_piece, text_piece] at htext
  exact written_injective htext

lemma GraphName.piece_injective : Function.Injective GraphName.piece := by
  intro a b h
  have htext := congrArg Piece.text h
  rw [text_piece, text_piece] at htext
  exact written_injective htext

section

variable {q q' : Quad} (hq : q.Plain) (hq' : q'.Plain) (hiris : ∀ i ∈ q.iris, ¬ i.ForgesBoundary)

include hq in
lemma Quad.valid_subject : q.triple.subject.piece.Valid :=
  Resource.valid_piece (hq _ (by simp [Quad.terms]))

lemma Quad.valid_predicate : (Resource.iri q.triple.predicate).piece.Valid :=
  Resource.valid_piece (by simp [Resource.toTerm, Term.labels])

include hq in
lemma Quad.valid_graph : q.graph.piece.Valid :=
  GraphName.valid_piece fun t ht => hq t (by simp [Quad.terms, Option.mem_def.mp ht])

include hiris in
/-- An IRI of a term of the quad forges no boundary. -/
lemma Quad.not_forges {t : Term} (ht : t ∈ q.terms) {inner : List Char}
    (h : ∃ i ∈ t.iris, inner = escape i.text.toList) :
    ∃ i : Iri, ¬ i.ForgesBoundary ∧ inner = escape i.text.toList := by
  obtain ⟨i, hi, hinner⟩ := h
  exact ⟨i, hiris i (List.mem_flatMap.mpr ⟨t, ht, hi⟩), hinner⟩

include hiris in
lemma Quad.not_forges_subject {mark inner : List Char}
    (h : q.triple.subject.piece = .bracketed mark inner) :
    ∃ i : Iri, ¬ i.ForgesBoundary ∧ inner = escape i.text.toList :=
  Quad.not_forges hiris (by simp [Quad.terms]) (Resource.exists_iri_of_piece h)

include hiris in
lemma Quad.not_forges_predicate {mark inner : List Char}
    (h : (Resource.iri q.triple.predicate).piece = .bracketed mark inner) :
    ∃ i : Iri, ¬ i.ForgesBoundary ∧ inner = escape i.text.toList :=
  Quad.not_forges hiris (t := .iri q.triple.predicate) (by simp [Quad.terms])
    (Resource.exists_iri_of_piece h)

include hiris in
lemma Quad.not_forges_graph {mark inner : List Char}
    (h : q.graph.piece = .bracketed mark inner) :
    ∃ i : Iri, ¬ i.ForgesBoundary ∧ inner = escape i.text.toList := by
  obtain ⟨t, ht, hiri⟩ := GraphName.exists_iri_of_piece h
  exact Quad.not_forges hiris (by simp [Quad.terms, Option.mem_def.mp ht]) hiri

include hq hq' hiris in
/-- The subject and predicate of a quad whose IRIs forge no boundary are told by the first half of
its name. -/
lemma Quad.head_eq
    (h : q.triple.subject.written ++ ' ' :: (q.triple.predicate.written ++ [' ']) =
      q'.triple.subject.written ++ ' ' :: (q'.triple.predicate.written ++ [' '])) :
    q.triple.subject = q'.triple.subject ∧ q.triple.predicate = q'.triple.predicate := by
  have hdiscloses : Piece.Discloses [q.triple.subject.piece, (Resource.iri q.triple.predicate).piece]
      [q'.triple.subject.piece, (Resource.iri q'.triple.predicate).piece] := by
    refine discloses_of_iris (fun mark inner hmem => ?_) fun before mark inner next gap hsplit hgap =>
      ?_
    · simp only [List.mem_cons, List.not_mem_nil, or_false] at hmem
      rcases hmem with hmem | hmem
      · exact Quad.not_forges_subject hiris hmem.symm
      · exact Quad.not_forges_predicate hiris hmem.symm
    · rcases before with _ | ⟨first, _ | ⟨second, before⟩⟩
      · obtain ⟨-, rfl⟩ := List.cons.inj hsplit
        cases hgap
        exact .inl rfl
      · obtain ⟨-, hrest⟩ := List.cons.inj hsplit
        obtain ⟨-, rfl⟩ := List.cons.inj hrest
        cases hgap
      · simp at hsplit
  have hterminated : Piece.terminated [q.triple.subject.piece, (Resource.iri q.triple.predicate).piece]
      = Piece.terminated [q'.triple.subject.piece, (Resource.iri q'.triple.predicate).piece] := by
    simpa [Resource.text_piece, Resource.written] using h
  have hrows := (Piece.eq_of_terminated_eq (by simp [Quad.valid_subject hq, Quad.valid_predicate])
    (by simp [Quad.valid_subject hq', Quad.valid_predicate]) hdiscloses hterminated).2 rfl
  obtain ⟨hsubject, hrest⟩ := List.cons.inj hrows
  have hpredicate := Resource.piece_injective (List.cons.inj hrest).1
  exact ⟨Resource.piece_injective hsubject, Resource.iri.inj hpredicate⟩

include hq hq' hiris in
/-- The annotation of the object and the graph of a quad whose IRIs forge no boundary are told by
what follows the lexical form in its name. -/
lemma Quad.tail_eq {l l' : Literal} (ho : q.triple.object = .literal l)
    (ho' : q'.triple.object = .literal l')
    (h : l.suffix ++ ' ' :: q.graph.written = l'.suffix ++ ' ' :: q'.graph.written) :
    l.suffix = l'.suffix ∧ q.graph = q'.graph := by
  have hobject : ∀ label ∈ (Term.literal l).labels, IsPlainLabel label :=
    hq _ (by simp [Quad.terms, ho])
  have hobject' : ∀ label ∈ (Term.literal l').labels, IsPlainLabel label :=
    hq' _ (by simp [Quad.terms, ho'])
  have hdiscloses : Piece.Discloses [l.suffixPiece, q.graph.piece]
      [l'.suffixPiece, q'.graph.piece] := by
    refine discloses_of_iris (fun mark inner hmem => ?_) fun before mark inner next gap hsplit hgap =>
      ?_
    · simp only [List.mem_cons, List.not_mem_nil, or_false] at hmem
      rcases hmem with hmem | hmem
      · exact Quad.not_forges hiris (by simp [Quad.terms, ho])
          (Literal.exists_iri_of_suffixPiece hmem.symm)
      · exact Quad.not_forges_graph hiris hmem.symm
    · rcases before with _ | ⟨first, _ | ⟨second, before⟩⟩
      · obtain ⟨-, rfl⟩ := List.cons.inj hsplit
        exact .inl (lead_graph hgap)
      · obtain ⟨-, hrest⟩ := List.cons.inj hsplit
        obtain ⟨-, rfl⟩ := List.cons.inj hrest
        cases hgap
      · simp at hsplit
  have hterminated : Piece.terminated [l.suffixPiece, q.graph.piece] =
      Piece.terminated [l'.suffixPiece, q'.graph.piece] := by
    have hblank := congrArg (· ++ [' ']) h
    simpa [Literal.text_suffixPiece, GraphName.text_piece] using hblank
  have hrows := (Piece.eq_of_terminated_eq
    (by simp [Literal.valid_suffixPiece hobject, Quad.valid_graph hq])
    (by simp [Literal.valid_suffixPiece hobject', Quad.valid_graph hq'])
    hdiscloses hterminated).2 rfl
  obtain ⟨hsuffix, hrest⟩ := List.cons.inj hrows
  refine ⟨?_, GraphName.piece_injective (List.cons.inj hrest).1⟩
  rw [← Literal.text_suffixPiece, hsuffix, Literal.text_suffixPiece]

include hq hq' hiris in
/-- A quad whose object is a resource and whose IRIs forge no boundary is told by its name from all
such quads. -/
lemma Quad.eq_of_resource_objects {o o' : Resource} (ho : q.triple.object = o.toTerm)
    (ho' : q'.triple.object = o'.toTerm) (h : q.recordName.toList = q'.recordName.toList) :
    q = q' := by
  have hobject : ∀ label ∈ o.toTerm.labels, IsPlainLabel label :=
    hq _ (by simp [Quad.terms, ho])
  have hobject' : ∀ label ∈ o'.toTerm.labels, IsPlainLabel label :=
    hq' _ (by simp [Quad.terms, ho'])
  have hdiscloses : Piece.Discloses
      [q.triple.subject.piece, (Resource.iri q.triple.predicate).piece, o.piece, q.graph.piece]
      [q'.triple.subject.piece, (Resource.iri q'.triple.predicate).piece, o'.piece,
        q'.graph.piece] := by
    refine discloses_of_iris (fun mark inner hmem => ?_) fun before mark inner next gap hsplit hgap =>
      ?_
    · simp only [List.mem_cons, List.not_mem_nil, or_false] at hmem
      rcases hmem with hmem | hmem | hmem | hmem
      · exact Quad.not_forges_subject hiris hmem.symm
      · exact Quad.not_forges_predicate hiris hmem.symm
      · exact Quad.not_forges hiris (by simp [Quad.terms, ho])
          (Resource.exists_iri_of_piece hmem.symm)
      · exact Quad.not_forges_graph hiris hmem.symm
    · -- The boundary lies after the subject, the predicate, the object or the graph.
      rcases before with _ | ⟨_, _ | ⟨_, _ | ⟨_, _ | ⟨_, before⟩⟩⟩⟩
      · obtain ⟨-, rfl⟩ := List.cons.inj hsplit
        cases hgap
        exact .inl rfl
      · obtain ⟨-, rfl⟩ := List.cons.inj (List.cons.inj hsplit).2
        exact lead_object hobject' hgap
      · obtain ⟨-, rfl⟩ := List.cons.inj (List.cons.inj (List.cons.inj hsplit).2).2
        exact .inl (lead_graph hgap)
      · obtain ⟨-, rfl⟩ := List.cons.inj (List.cons.inj (List.cons.inj (List.cons.inj hsplit).2).2).2
        cases hgap
      · simp at hsplit
  have hterminated : Piece.terminated
      [q.triple.subject.piece, (Resource.iri q.triple.predicate).piece, o.piece, q.graph.piece] =
      Piece.terminated [q'.triple.subject.piece, (Resource.iri q'.triple.predicate).piece, o'.piece,
        q'.graph.piece] := by
    have hblank := congrArg (· ++ [' ']) h
    rw [Quad.recordName_toList, Quad.recordName_toList, ho, ho'] at hblank
    simpa [Resource.text_piece, GraphName.text_piece, Resource.written_toTerm, Resource.written]
      using hblank
  have hrows := (Piece.eq_of_terminated_eq
    (by simp [Quad.valid_subject hq, Quad.valid_predicate, Resource.valid_piece hobject,
      Quad.valid_graph hq])
    (by simp [Quad.valid_subject hq', Quad.valid_predicate, Resource.valid_piece hobject',
      Quad.valid_graph hq'])
    hdiscloses hterminated).2 rfl
  simp only [List.cons.injEq, and_true] at hrows
  obtain ⟨hsubject, hpredicate, hobjects, hgraph⟩ := hrows
  refine Quad.eq_of_parts (Resource.piece_injective hsubject)
    (Resource.iri.inj (Resource.piece_injective hpredicate)) ?_ (GraphName.piece_injective hgraph)
  rw [ho, ho', Resource.piece_injective hobjects]

include hq hq' hiris in
/-- **A quad whose IRIs forge no boundary shares its name with no other quad.** -/
theorem Quad.eq_of_recordName_eq (h : q.recordName = q'.recordName) : q = q' := by
  have hname := congrArg String.toList h
  have hkind : ∀ t : Term, (∃ r : Resource, t = r.toTerm) ∨ ∃ l, t = .literal l := by
    rintro (i | b | l)
    · exact .inl ⟨.iri i, rfl⟩
    · exact .inl ⟨.blank b, rfl⟩
    · exact .inr ⟨l, rfl⟩
  have hsplit := congrArg splitAtQuote hname
  rcases hkind q.triple.object with ⟨o, ho⟩ | ⟨l, ho⟩ <;>
    rcases hkind q'.triple.object with ⟨o', ho'⟩ | ⟨l', ho'⟩
  · exact Quad.eq_of_resource_objects hq hq' hiris ho ho' hname
  · rw [Quad.splitAtQuote_of_resource hq ho, Quad.splitAtQuote_of_literal hq' ho'] at hsplit
    cases hsplit
  · rw [Quad.splitAtQuote_of_literal hq ho, Quad.splitAtQuote_of_resource hq' ho'] at hsplit
    cases hsplit
  · rw [Quad.splitAtQuote_of_literal hq ho, Quad.splitAtQuote_of_literal hq' ho',
      Option.some.injEq, Prod.mk.injEq] at hsplit
    obtain ⟨hhead, htail⟩ := hsplit
    obtain ⟨hsubject, hpredicate⟩ := Quad.head_eq hq hq' hiris hhead
    have hquote := congrArg splitAtQuote htail
    rw [splitAtQuote_escape, splitAtQuote_escape, Option.some.injEq, Prod.mk.injEq] at hquote
    obtain ⟨hlexical, hrest⟩ := hquote
    obtain ⟨hsuffix, hgraph⟩ := Quad.tail_eq hq hq' hiris ho ho' hrest
    have hliteral : l = l' :=
      Literal.eq_of_suffix_eq (String.toList_inj.mp (escape_injective hlexical)) hsuffix
    exact Quad.eq_of_parts hsubject hpredicate (by rw [ho, ho', hliteral]) hgraph

end

end QuadStore
