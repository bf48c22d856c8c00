import Mathlib
import QuadStore.Proofs.EscapeRoundTrip

/-!
# Written forms are read back

`Term.decode` undoes `Term.encode` on every well-formed term, and the same holds of graph names
and stored statements.  Nothing is asked of the texts inside: an IRI may hold angle brackets, a
lexical form may imitate a closing quote with its annotation, and either may hold any control
character.

In the other direction a text may be read that would never be written, since a character may be
escaped that need not be.  What is read is well-formed, however, and so it has one written form:
two texts are read as the same term just when writing what was read gives the same text twice
(`encode_injective`, which does not even need the terms to be well-formed).

The reader of literals is the delicate part.  It looks for the closing quote before it reads the
lexical form, and takes everything after the quote as the annotation, whatever it holds; so a
suffix needs no escaping, and only an empty language tag is lost.
-/

namespace QuadStore

open Text

/-- A result that was mapped comes from a result. -/
lemma exists_of_map_eq_ok {ε α β : Type} {f : α → β} {x : Except ε α} {b : β}
    (h : x.map f = .ok b) : ∃ a, x = .ok a ∧ f a = b := by
  cases x with
  | error fault => cases h
  | ok a => exact ⟨a, rfl, Except.ok.inj h⟩

lemma ofList_cons_ne_empty (c : Char) (rest : List Char) : String.ofList (c :: rest) ≠ "" := by
  intro hempty
  have hlist := congrArg String.toList hempty
  rw [String.toList_ofList] at hlist
  simp at hlist

/-! ## IRIs -/

lemma enclosed?_append (inner : List Char) :
    enclosed? ('<' :: (inner ++ ['>'])) = some inner := by
  simp [enclosed?]

lemma unescapeText_escape (text : String) :
    unescapeText (escape text.toList) = .ok text := by
  rw [unescapeText, unescape_escape]
  exact congrArg Except.ok String.ofList_toList

namespace Iri

theorem read_written (iri : Iri) : Iri.read iri.written = .ok iri := by
  rw [Iri.read, Iri.written, enclosed?_append]
  simp only [unescapeText_escape]
  rfl

lemma written_injective : Function.Injective Iri.written := by
  intro a b h
  have hread := congrArg Iri.read h
  rw [read_written, read_written] at hread
  exact Except.ok.inj hread

end Iri

/-! ## Literals -/

namespace Literal

lemma ofDatatype_typed (lexical : String) (datatype : Datatype) :
    ofDatatype lexical datatype.iri = typed lexical datatype := by
  rw [ofDatatype, dif_neg datatype.ne_string]

/-- A suffix says which annotation it was written for, unless the annotation is an empty tag. -/
lemma annotate_suffix (text : List Char) {l : Literal} (h : l.WellFormed) :
    annotate text l.lexical l.suffix = .ok l := by
  cases l with
  | simple lexical => rfl
  | tagged lexical tag =>
    obtain ⟨c, rest, hc⟩ : ∃ c rest, tag.toList = c :: rest :=
      List.exists_cons_of_ne_nil fun hnil => h (String.toList_eq_nil_iff.mp hnil)
    have htag : String.ofList (c :: rest) = tag := hc ▸ String.ofList_toList
    simp only [suffix, hc, annotate, Literal.lexical, htag]
  | typed lexical datatype =>
    simp only [suffix, annotate, Iri.read_written, Literal.lexical]
    exact congrArg Except.ok (ofDatatype_typed lexical datatype)

theorem read_written {l : Literal} (h : l.WellFormed) :
    Literal.read l.written (escape l.lexical.toList ++ '"' :: l.suffix) = .ok l := by
  rw [Literal.read, splitAtQuote_escape]
  simp only [unescapeText_escape]
  exact annotate_suffix l.written h

/-- What was annotated is well-formed: an empty tag is refused. -/
lemma wellFormed_of_annotate {text suffix : List Char} {lexical : String} {l : Literal}
    (h : annotate text lexical suffix = .ok l) : l.WellFormed := by
  unfold annotate at h
  split at h
  · cases h; trivial
  · cases h; exact ofList_cons_ne_empty _ _
  · obtain ⟨iri, -, rfl⟩ := exists_of_map_eq_ok h
    unfold ofDatatype
    split <;> trivial
  · cases h

lemma wellFormed_of_read {text afterQuote : List Char} {l : Literal}
    (h : Literal.read text afterQuote = .ok l) : l.WellFormed := by
  unfold Literal.read at h
  split at h
  · cases h
  · split at h
    · cases h
    · exact wellFormed_of_annotate h

/-- The suffix alone tells the annotation, even if that is an empty tag. -/
lemma eq_of_suffix_eq {a b : Literal} (hlexical : a.lexical = b.lexical)
    (hsuffix : a.suffix = b.suffix) : a = b := by
  cases a <;> cases b <;> simp only [suffix, Literal.lexical] at hlexical hsuffix
  case simple.simple => rw [hlexical]
  case tagged.tagged =>
    rw [hlexical, String.toList_inj.mp (List.cons.inj hsuffix).2]
  case typed.typed lexical datatype _ other =>
    have hiri : datatype.iri = other.iri :=
      Iri.written_injective (List.cons.inj (List.cons.inj hsuffix).2).2
    rw [hlexical, ← ofDatatype_typed, ← ofDatatype_typed, hiri]
  all_goals simp at hsuffix

lemma written_injective : Function.Injective Literal.written := by
  intro a b h
  have hrest : escape a.lexical.toList ++ '"' :: a.suffix =
      escape b.lexical.toList ++ '"' :: b.suffix := (List.cons.inj h).2
  have hsplit := congrArg splitAtQuote hrest
  rw [splitAtQuote_escape, splitAtQuote_escape, Option.some.injEq, Prod.mk.injEq] at hsplit
  obtain ⟨hescape, hsuffix⟩ := hsplit
  have hlexical : a.lexical = b.lexical := String.toList_inj.mp (escape_injective hescape)
  exact eq_of_suffix_eq hlexical hsuffix

end Literal

lemma BlankNode.written_injective : Function.Injective BlankNode.written := by
  intro ⟨a⟩ ⟨b⟩ h
  have hlabel : a = b := String.toList_inj.mp (List.cons.inj (List.cons.inj h).2).2
  rw [hlabel]

/-! ## Terms -/

namespace Term

theorem read_written {t : Term} (h : t.WellFormed) : Term.read t.written = .ok t := by
  cases t with
  | iri i =>
    have hread := Iri.read_written i
    simp only [Iri.written] at hread
    simp only [Term.written, Iri.written, Term.read, hread]
    rfl
  | blank b =>
    obtain ⟨c, rest, hc⟩ : ∃ c rest, b.label.toList = c :: rest :=
      List.exists_cons_of_ne_nil fun hnil => h (String.toList_eq_nil_iff.mp hnil)
    have hlabel : String.ofList (c :: rest) = b.label := hc ▸ String.ofList_toList
    simp only [Term.written, BlankNode.written, hc, Term.read, hlabel]
  | literal l =>
    have hread := Literal.read_written h
    simp only [Literal.written] at hread
    simp only [Term.written, Literal.written, Term.read, hread]
    rfl

/-- What is read is well-formed: neither an empty label nor an empty tag can be written. -/
theorem wellFormed_of_read {text : List Char} {t : Term} (h : Term.read text = .ok t) :
    t.WellFormed := by
  unfold Term.read at h
  split at h
  · obtain ⟨iri, -, rfl⟩ := exists_of_map_eq_ok h
    trivial
  · cases h
  · rename_i label hne
    cases h
    obtain ⟨c, rest, hc⟩ := List.exists_cons_of_ne_nil hne
    rw [hc]
    exact ofList_cons_ne_empty c rest
  · obtain ⟨l, hread, rfl⟩ := exists_of_map_eq_ok h
    exact Literal.wellFormed_of_read hread
  · cases h

/-- Each kind of term has a beginning of its own, and within a kind the written form tells the
term. -/
lemma written_injective : Function.Injective Term.written := by
  intro a b h
  cases a <;> cases b <;> simp only [Term.written] at h
  case iri.iri => rw [Iri.written_injective h]
  case blank.blank b c => rw [BlankNode.written_injective h]
  case literal.literal => rw [Literal.written_injective h]
  all_goals simp [Iri.written, BlankNode.written, Literal.written] at h

theorem encode_injective : Function.Injective Term.encode := by
  intro a b h
  exact written_injective (String.ofList_injective h)

theorem decode_encode {t : Term} (h : t.WellFormed) : Term.decode t.encode = .ok t := by
  rw [Term.decode, Term.encode, String.toList_ofList]
  exact read_written h

end Term

/-! ## Resources and graph names -/

namespace Resource

lemma written_toTerm (r : Resource) : r.toTerm.written = r.written := by
  cases r <;> rfl

lemma encode_toTerm (r : Resource) : r.toTerm.encode = r.encode :=
  congrArg String.ofList r.written_toTerm

lemma wellFormed_toTerm {r : Resource} (h : r.WellFormed) : r.toTerm.WellFormed := by
  cases r <;> exact h

lemma toResource?_toTerm (r : Resource) : r.toTerm.toResource? = some r := by
  cases r <;> rfl

lemma toTerm_injective : Function.Injective Resource.toTerm := by
  intro a b h
  have hback := congrArg Term.toResource? h
  rwa [toResource?_toTerm, toResource?_toTerm, Option.some.injEq] at hback

theorem read_written {r : Resource} (h : r.WellFormed) : Resource.read r.written = .ok r := by
  have hterm := Term.read_written (wellFormed_toTerm h)
  rw [written_toTerm] at hterm
  simp only [Resource.read, hterm, toResource?_toTerm]

lemma written_injective : Function.Injective Resource.written := by
  intro a b h
  rw [← written_toTerm a, ← written_toTerm b] at h
  exact toTerm_injective (Term.written_injective h)

end Resource

namespace GraphName

/-- The word for the default graph begins like a blank node and then goes on otherwise. -/
lemma written_named_ne_unnamed (name : Resource) : name.written ≠ unnamedGraph.toList := by
  have hword : unnamedGraph.toList = '_' :: '_' :: "unnamed__".toList := by decide
  rw [hword]
  cases name <;> simp [Resource.written, Iri.written, BlankNode.written]

theorem read_written {g : GraphName} (h : g.WellFormed) : GraphName.read g.written = .ok g := by
  cases g with
  | default => rw [GraphName.written, GraphName.read, if_pos rfl]
  | named name =>
    rw [GraphName.written, GraphName.read, if_neg (written_named_ne_unnamed name),
      Resource.read_written h]
    rfl

theorem decode_encode {g : GraphName} (h : g.WellFormed) :
    GraphName.decode g.encode = .ok g := by
  rw [GraphName.decode, GraphName.encode, String.toList_ofList]
  exact read_written h

lemma written_injective : Function.Injective GraphName.written := by
  intro a b h
  cases a <;> cases b <;> simp only [GraphName.written] at h
  case default.default => rfl
  case default.named name => exact absurd h.symm (written_named_ne_unnamed name)
  case named.default name => exact absurd h (written_named_ne_unnamed name)
  case named.named => rw [Resource.written_injective h]

theorem encode_injective : Function.Injective GraphName.encode := by
  intro a b h
  exact written_injective (String.ofList_injective h)

end GraphName

/-! ## Stored statements -/

/-- A well-formed statement is read back from the three written forms that are kept of it. -/
theorem Triple.decode_stored {t : Triple} (h : t.WellFormed) : t.stored.decode = .ok t := by
  have hsubject : Resource.decode t.subject.encode = .ok t.subject := by
    rw [Resource.decode, Resource.encode, String.toList_ofList]
    exact Resource.read_written h.subject
  have hpredicate : Iri.decode t.predicate.encode = .ok t.predicate := by
    rw [Iri.decode, Iri.encode, String.toList_ofList]
    exact Iri.read_written t.predicate
  simp only [StoredTriple.decode, Triple.stored, hsubject, hpredicate,
    Term.decode_encode h.object]
  rfl

/-- The written forms that are kept of a statement tell it. -/
lemma Triple.stored_injective : Function.Injective Triple.stored := by
  intro t u h
  obtain ⟨hsubject, hpredicate, hobject⟩ := StoredTriple.mk.inj h
  have hs := Resource.written_injective (String.ofList_injective hsubject)
  have hp := Iri.written_injective (String.ofList_injective hpredicate)
  have ho := Term.encode_injective hobject
  rw [Triple.mk.injEq]
  exact ⟨hs, hp, ho⟩

/-! ## Both directions -/

/-- **Written forms and what they stand for determine each other.**  Well-formed terms, graph names
and statements are read back from their written forms; only well-formed terms are read at all; and
of two texts that are read, the terms are the same just when their written forms are. -/
theorem written_forms_canonical :
    (∀ t : Term, t.WellFormed → Term.decode t.encode = .ok t) ∧
    (∀ g : GraphName, g.WellFormed → GraphName.decode g.encode = .ok g) ∧
    (∀ t : Triple, t.WellFormed → t.stored.decode = .ok t) ∧
    (∀ v t, Term.decode v = .ok t → t.WellFormed ∧ Term.decode t.encode = .ok t) ∧
    ∀ v w t u, Term.decode v = .ok t → Term.decode w = .ok u →
      (t = u ↔ t.encode = u.encode) := by
  refine ⟨fun t h => Term.decode_encode h, fun g h => GraphName.decode_encode h,
    fun t h => Triple.decode_stored h, fun v t h => ?_, fun v w t u _ _ => ?_⟩
  · have hwell : t.WellFormed := Term.wellFormed_of_read h
    exact ⟨hwell, Term.decode_encode hwell⟩
  · exact Term.encode_injective.eq_iff.symm

/-- A text that escapes more than it has to, of a lexical form that imitates a closing quote with
its annotation and holds a control character.  What is read is written otherwise and read back,
also as the object of a statement about a blank node, in a graph named by one. -/
theorem written_forms_canonical_imitation :
    let v := "\"\\u0061\\\"@en \\U00000085\"@fr"
    let t : Term := .literal (.tagged "a\"@en \u0085" "fr")
    let statement : Triple := ⟨.blank ⟨"b0"⟩, ⟨"a> <b"⟩, t⟩
    Term.decode v = .ok t ∧ v ≠ t.encode ∧ (t.WellFormed ∧ Term.decode t.encode = .ok t) ∧
      (t = .literal (.simple "a") ↔ t.encode = (Term.literal (.simple "a")).encode) ∧
      GraphName.decode (GraphName.named statement.subject).encode = .ok (.named statement.subject) ∧
      statement.stored.decode = .ok statement := by
  intro v t statement
  have hv : Term.decode v = .ok t := by cbv
  have hplain : Term.decode "\"a\"" = .ok (.literal (.simple "a")) := by cbv
  have hlabel : BlankNode.WellFormed ⟨"b0"⟩ := by simp [BlankNode.WellFormed]
  have hread := written_forms_canonical.2.2.2.1 v t hv
  exact ⟨hv, by decide, hread, written_forms_canonical.2.2.2.2 _ _ _ _ hv hplain,
    written_forms_canonical.2.1 _ hlabel, written_forms_canonical.2.2.1 _ ⟨hlabel, hread.1⟩⟩

end QuadStore
