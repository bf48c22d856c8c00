import Mathlib
import QuadStore.Proofs.Membership

/-!
# Objects are looked up where they are kept

A record keeps its object under a language, under a value and under a text, but not under all three,
and which of them it has depends on the object: on whether it is a literal, on the literal's datatype,
and on whether its lexical form denotes a value.  A literal of a kind with values whose lexical form
denotes none is kept as a text after all.  The predicates that ask for an object choose among the same
fields by the same questions, only that in this last case they refuse.

So the two choices have to fit, for every pair of objects.  `Literal.LiesWhere` says when they are to
meet: it names the kinds, the lexical forms and the values of the two literals, and no field of a record.
The main statement, `object_found_where_kept`, is that a record is as the predicates ask just then.  It is
about what a record holds; that the index finds no text that is too long for it is another matter
(`Predicate.isSearchable`).

On the objects that can be asked for at all, lying where another one is looked up comes to the same as
having its value (`Term.liesWhere_iff_sameValue`), and so it is an equivalence.
-/

namespace QuadStore

/-! ## Where a term lies -/

/-- A literal is kept where another is looked up: under its language, and under its lexical form if that
is a text, or else under its value.  What is kept under a lexical form are texts and literals without
value; what is kept under a value are literals of the same kind. -/
def Literal.LiesWhere (kept asked : Literal) : Prop :=
  kept.languageKey = asked.languageKey ∧
    ((asked.kind = .text ∧ kept.lexical = asked.lexical ∧ (kept.kind = .text ∨ kept.value? = none)) ∨
      (asked.kind ≠ .text ∧ kept.kind = asked.kind ∧ kept.value? = asked.value?))

instance (kept asked : Literal) : Decidable (kept.LiesWhere asked) :=
  inferInstanceAs (Decidable (_ ∧ ((_ ∧ _ ∧ (_ ∨ _)) ∨ (_ ∧ _ ∧ _))))

/-- A term is kept where another is looked up: two literals as above, and any other term where it is
itself looked up. -/
def Term.LiesWhere (kept asked : Term) : Prop :=
  ((∀ l, asked ≠ .literal l) ∧ kept = asked) ∨
    ∃ l l', kept = .literal l ∧ asked = .literal l' ∧ l.LiesWhere l'

/-- The predicates that ask for a term can be built, and the record of every statement with an object
is as they ask. -/
def Term.Finds (asked object : Term) : Prop :=
  ∃ filters, built (objectPredicates asked) = .ok filters ∧
    ∀ quad : Quad, quad.triple.object = object → quad.record.meets filters = true

/-! ## Values -/

/-- A value is of one kind only. -/
lemma LiteralKind.eq_of_value? {kind kind' : LiteralKind} {lexical lexical' : String} {value : Value}
    (h : kind.value? lexical = some value) (h' : kind'.value? lexical' = some value) :
    kind = kind' := by
  cases value <;> cases kind <;> cases kind' <;> simp_all [LiteralKind.value?]

lemma Literal.value?_of_text {l : Literal} (h : l.kind = .text) : l.value? = none := by
  rw [Literal.value?, h]
  rfl

/-- Where a literal that can be asked for is looked up, there lie the literals of its value. -/
lemma Literal.liesWhere_iff_sameValue {kept asked : Literal}
    (h : asked.kind = .text ∨ asked.value? ≠ none) : kept.LiesWhere asked ↔ kept.SameValue asked := by
  refine and_congr_right fun _ => ?_
  by_cases htext : asked.kind = .text
  · have hasked := Literal.value?_of_text htext
    constructor
    · rintro (⟨-, hlexical, hkept⟩ | ⟨hother, -⟩)
      · have hnone : kept.value? = none := hkept.elim Literal.value?_of_text id
        exact ⟨hnone.trans hasked.symm, fun _ => hlexical⟩
      · exact absurd htext hother
    · rintro ⟨hvalue, hlexical⟩
      have hnone : kept.value? = none := hvalue.trans hasked
      exact .inl ⟨htext, hlexical hnone, .inr hnone⟩
  · obtain ⟨value, hasked⟩ := Option.ne_none_iff_exists'.mp (h.resolve_left htext)
    constructor
    · rintro (⟨hother, -⟩ | ⟨-, -, hvalue⟩)
      · exact absurd hother htext
      · exact ⟨hvalue, fun hnone => by rw [hvalue, hasked] at hnone; cases hnone⟩
    · rintro ⟨hvalue, -⟩
      exact .inr ⟨htext, LiteralKind.eq_of_value? (hvalue.trans hasked) hasked, hvalue⟩

/-- **Where a term that can be asked for is looked up**, there lie the terms of its value. -/
lemma Term.liesWhere_iff_sameValue {kept asked : Term} (h : asked.Askable) :
    kept.LiesWhere asked ↔ kept.SameValue asked := by
  cases asked with
  | iri | blank =>
    rw [Term.sameValue_of_resource (by simp)]
    simp [Term.LiesWhere]
  | literal l' =>
    cases kept with
    | iri | blank => simp [Term.LiesWhere, Term.SameValue]
    | literal l =>
      rw [Term.SameValue, ← Literal.liesWhere_iff_sameValue h]
      simp [Term.LiesWhere]

lemma Literal.SameValue.symm {a b : Literal} (h : a.SameValue b) : b.SameValue a :=
  ⟨h.1.symm, h.2.1.symm, fun hnone => (h.2.2 (h.2.1.trans hnone)).symm⟩

lemma Literal.SameValue.trans {a b c : Literal} (hab : a.SameValue b) (hbc : b.SameValue c) :
    a.SameValue c :=
  ⟨hab.1.trans hbc.1, hab.2.1.trans hbc.2.1, fun hnone =>
    (hab.2.2 hnone).trans (hbc.2.2 (hab.2.1.symm.trans hnone))⟩

lemma Term.SameValue.refl (a : Term) : a.SameValue a := by
  cases a with
  | iri | blank => rfl
  | literal l => exact ⟨rfl, rfl, fun _ => rfl⟩

lemma Term.SameValue.symm {a b : Term} (h : a.SameValue b) : b.SameValue a := by
  cases a <;> cases b <;> first | exact Literal.SameValue.symm h | exact Eq.symm h

lemma Term.SameValue.trans {a b c : Term} (hab : a.SameValue b) (hbc : b.SameValue c) :
    a.SameValue c := by
  cases b with
  | iri | blank =>
    rw [Term.sameValue_of_resource (by simp)] at hab
    rwa [hab]
  | literal m =>
    cases a with
    | iri | blank => cases hab
    | literal l =>
      cases c with
      | iri | blank => cases hbc
      | literal n => exact Literal.SameValue.trans hab hbc

/-! ## Asking for a term -/

/-- The answer does not depend on the languages that were asked for before. -/
lemma objectPredicates_eq_built {languages : LanguageCache} (h : languages.Sound) (term : Term) :
    (objectPredicates term languages).1 = built (objectPredicates term) :=
  (transparent_positionPredicates .object term languages h).1

lemma Term.askable_of_built {term : Term} {filters : List Predicate}
    (h : built (objectPredicates term) = .ok filters) : term.Askable := by
  by_contra hnot
  obtain ⟨l, -, -, -, herror⟩ := built_objectPredicates_of_not_askable hnot
  rw [h] at herror
  cases herror

/-- **A term finds** the terms of its value, if it can be asked for, and nothing else. -/
lemma Term.finds_iff {asked object : Term} (hasked : asked.WellFormed) :
    asked.Finds object ↔ asked.Askable ∧ object.SameValue asked := by
  constructor
  · rintro ⟨filters, hfilters, hmeets⟩
    let quad : Quad := ⟨⟨.iri default, default, object⟩, .default⟩
    exact ⟨Term.askable_of_built hfilters,
      (Quad.meets_objectPredicates hasked hfilters).mp (hmeets quad rfl)⟩
  · rintro ⟨haskable, hsame⟩
    obtain ⟨filters, hfilters⟩ := exists_built_objectPredicates haskable
    refine ⟨filters, hfilters, fun quad hquad => ?_⟩
    rw [Quad.meets_objectPredicates hasked hfilters, hquad]
    exact hsame

/-- Only literals of a kind with values that denote none cannot be asked for. -/
lemma built_objectPredicates_eq_error {term : Term} {fault : FilterError} :
    built (objectPredicates term) = .error fault ↔
      ∃ l, term = .literal l ∧ l.kind ≠ .text ∧ l.value? = none ∧
        fault = .invalidValue l.kind l.lexical := by
  constructor
  · intro h
    have hnot : ¬ term.Askable := by
      intro haskable
      obtain ⟨filters, hfilters⟩ := exists_built_objectPredicates haskable
      rw [h] at hfilters
      cases hfilters
    obtain ⟨l, hterm, hkind, hvalue, herror⟩ := built_objectPredicates_of_not_askable hnot
    rw [h] at herror
    exact ⟨l, hterm, hkind, hvalue, Except.error.inj herror⟩
  · rintro ⟨l, rfl, hkind, hvalue, rfl⟩
    have hnot : ¬ (Term.literal l).Askable := fun h => h.elim hkind (· hvalue)
    obtain ⟨l', hl, -, -, herror⟩ := built_objectPredicates_of_not_askable hnot
    cases hl
    exact herror

/-- **An object is found where it is kept.**  Whatever languages were asked for before, the predicates
for a term cannot be built if it is a literal of a kind with values that denotes none, and then the
refusal names the kind and the lexical form; there is no other refusal.  Otherwise the record of a
statement, in any graph, is as they ask just if its object lies where the term is looked up.  In
particular every term that can be asked for finds itself, and among such terms finding goes both ways
and from one to the next. -/
theorem object_found_where_kept {languages : LanguageCache} (hlanguages : languages.Sound)
    {asked kept : Term} (hasked : asked.WellFormed) (hkept : kept.WellFormed) :
    let answer := (objectPredicates asked languages).1
    (∀ fault, answer = .error fault ↔ ∃ l, asked = .literal l ∧ l.kind ≠ .text ∧ l.value? = none ∧
      fault = .invalidValue l.kind l.lexical) ∧
    (∀ filters, answer = .ok filters → ∀ quad : Quad, quad.triple.object = kept →
      (quad.record.meets filters = true ↔ kept.LiesWhere asked)) ∧
    ((∃ filters, answer = .ok filters) → asked.Finds asked) ∧
    ((∃ filters, (objectPredicates kept languages).1 = .ok filters) → asked.Finds kept →
      kept.Finds asked) ∧
    ∀ other, asked.Finds kept → kept.Finds other → asked.Finds other := by
  intro answer
  have hanswer : answer = built (objectPredicates asked) := objectPredicates_eq_built hlanguages asked
  rw [hanswer, objectPredicates_eq_built hlanguages]
  refine ⟨fun fault => built_objectPredicates_eq_error, ?_, ?_, ?_, ?_⟩
  · intro filters hfilters quad hquad
    rw [Quad.meets_objectPredicates hasked hfilters, hquad,
      Term.liesWhere_iff_sameValue (Term.askable_of_built hfilters)]
  · rintro ⟨filters, hfilters⟩
    exact (Term.finds_iff hasked).mpr ⟨Term.askable_of_built hfilters, Term.SameValue.refl asked⟩
  · rintro ⟨filters, hfilters⟩ hfinds
    have hsame := ((Term.finds_iff hasked).mp hfinds).2
    exact (Term.finds_iff hkept).mpr ⟨Term.askable_of_built hfilters, hsame.symm⟩
  · intro other hfinds hnext
    obtain ⟨haskable, hsame⟩ := (Term.finds_iff hasked).mp hfinds
    have hother := ((Term.finds_iff hkept).mp hnext).2
    exact (Term.finds_iff hasked).mpr ⟨haskable, hother.trans hsame⟩

/-- A number is found in another spelling and another datatype of its kind, and finds it in turn.  A
date that is none cannot be asked for, but is kept as a text, and a text finds it. -/
theorem object_found_where_kept_spelling :
    let number : Term := .literal (.ofDatatype "5" Xsd.integer)
    let spelled : Term := .literal (.ofDatatype " 05.0" Xsd.decimal)
    let undated : Term := .literal (.ofDatatype "soon" Xsd.date)
    let text : Term := .literal (.simple "soon")
    number.Finds spelled ∧ spelled.Finds number ∧ text.Finds undated ∧
      (objectPredicates undated .empty).1 = .error (.invalidValue .date "soon") := by
  intro number spelled undated text
  have hwellFormed : ∀ lexical datatype, (Term.literal (.ofDatatype lexical datatype)).WellFormed := by
    intro lexical datatype
    unfold Literal.ofDatatype
    split <;> trivial
  obtain ⟨-, hnumber, -, hback, -⟩ := object_found_where_kept LanguageCache.sound_empty
    (hwellFormed "5" Xsd.integer) (hwellFormed " 05.0" Xsd.decimal)
  obtain ⟨-, htext, -, -, -⟩ := object_found_where_kept LanguageCache.sound_empty
    (hwellFormed "soon" Xsd.string) (hwellFormed "soon" Xsd.date)
  obtain ⟨hrefused, -⟩ := object_found_where_kept LanguageCache.sound_empty
    (hwellFormed "soon" Xsd.date) (hwellFormed "soon" Xsd.date)
  have hspelled : spelled.LiesWhere number := .inr ⟨_, _, rfl, rfl, by decide +kernel⟩
  have hundated : undated.LiesWhere text := .inr ⟨_, _, rfl, rfl, by decide +kernel⟩
  have hfinds : number.Finds spelled :=
    ⟨_, rfl, fun quad hquad => (hnumber _ rfl quad hquad).mpr hspelled⟩
  refine ⟨hfinds, hback ⟨_, rfl⟩ hfinds, ?_, ?_⟩
  · exact ⟨_, rfl, fun quad hquad => (htext _ rfl quad hquad).mpr hundated⟩
  · exact (hrefused _).mpr ⟨_, rfl, by decide +kernel, by decide +kernel, rfl⟩

end QuadStore
