import Mathlib
import QuadStore.Proofs.BuildingPredicates
import QuadStore.Proofs.Holdings

/-!
# What a constraint asks of a term

A constraint is asked of records, but what it asks of a record at a position is a matter of the term
there alone.  So one can ask it of the term itself: of the record that carries the term at this
position and nothing else (`Constraint.admits`).

What it asks may depend on the position.  A literal is asked for by its value at the object and by its
written form elsewhere, and an order can be asked at the object only.  It depends on the position in no
other way: at two positions where the predicates of a constraint can be built it admits the same
terms, unless it asks a literal to be a resource (`Constraint.admits_congr`).

The last part says the same of a pattern: together with its constraints it asks for the records of the
graph that are as every slot asks and that carry, at every open variable, a term that the constraints
on it admit (`exists_built_constrained`).
-/

namespace QuadStore

/-! ## Records that carry a term -/

/-- The record that carries a term at a position and nothing else. -/
def Record.carrying (position : Position) (term : Term) : Record :=
  let blank : Record := ⟨"", "", "", "", "", none, none, none⟩
  match position with
  | .subject => { blank with subject := term.encode }
  | .predicate => { blank with predicate := term.encode }
  | .object =>
    let (language, value, text) := term.project
    { blank with object := term.encode, language, value, text }

/-- A predicate that looks only at what the term at a position decides. -/
def Predicate.Concerns (position : Position) : Predicate → Prop
  | .text field _ => field = position.field ∨
      position = .object ∧ (field = .objectLanguage ∨ field = .objectText)
  | _ => position = .object

/-- The fields by which an object is found are those of the record that carries it. -/
lemma Quad.project_eq_carrying (quad : Quad) :
    quad.record.language = (Record.carrying .object quad.triple.object).language ∧
      quad.record.value = (Record.carrying .object quad.triple.object).value ∧
      quad.record.text = (Record.carrying .object quad.triple.object).text := by
  simp only [Quad.record, Record.ofTriple, Record.carrying, and_self]

/-- A predicate on the term at a position holds of a statement's record just as it does of the record
that carries the term. -/
lemma Quad.holdsOf_eq_carrying {quad : Quad} {position : Position} {predicate : Predicate}
    (h : predicate.Concerns position) :
    predicate.holdsOf quad.record =
      predicate.holdsOf (Record.carrying position (quad.triple.at position)) := by
  obtain ⟨hlanguage, hvalue, htext⟩ := quad.project_eq_carrying
  cases predicate with
  | text field value =>
    have hfield : quad.record.textOf field =
        (Record.carrying position (quad.triple.at position)).textOf field := by
      rcases h with rfl | ⟨rfl, rfl | rfl⟩
      · rw [quad.textOf_field]
        cases position <;> rfl
      · exact hlanguage
      · exact htext
    rw [Predicate.holdsOf, Predicate.holdsOf, hfield]
  | boolean | numeric | date | numericRange | dateRange =>
    have hposition : position = .object := h
    subst hposition
    simp only [Predicate.holdsOf, hvalue, Triple.at]

lemma all_congr_mem {α : Type} {list : List α} {p q : α → Bool} (h : ∀ a ∈ list, p a = q a) :
    list.all p = list.all q := by
  rw [Bool.eq_iff_iff, List.all_eq_true, List.all_eq_true]
  exact forall₂_congr fun a ha => by rw [h a ha]

lemma Quad.meets_eq_carrying {quad : Quad} {position : Position} {filters : List Predicate}
    (h : ∀ predicate ∈ filters, predicate.Concerns position) :
    quad.record.meets filters =
      (Record.carrying position (quad.triple.at position)).meets filters := by
  refine all_congr_mem fun predicate hpredicate => ?_
  exact Quad.holdsOf_eq_carrying (h predicate hpredicate)

lemma holdsOf_carrying_termPredicate {position : Position} {term other : Term} :
    (termPredicate position other).holdsOf (Record.carrying position term) = true ↔ term = other := by
  have htext : (Record.carrying position term).textOf position.field = some term.encode := by
    cases position <;> rfl
  rw [termPredicate, Predicate.holdsOf, htext, beq_iff_eq, Option.some.injEq]
  exact Term.encode_injective.eq_iff

/-! ## The predicates of a constraint -/

lemma concerns_termPredicate (position : Position) (term : Term) :
    (termPredicate position term).Concerns position := .inl rfl

lemma concerns_ofValue (value : Value) : (Predicate.ofValue value).Concerns .object := by
  cases value <;> rfl

lemma concerns_equality {kind : LiteralKind} {lexical : String} {predicate : Predicate}
    (h : kind.equality lexical = .ok predicate) : predicate.Concerns .object := by
  unfold LiteralKind.equality at h
  split at h
  · cases h
    exact .inr ⟨rfl, .inr rfl⟩
  · cases h
    exact concerns_ofValue _
  · cases h

lemma concerns_comparison {kind : LiteralKind} {relation : Comparison} {lexical : String}
    {predicate : Predicate} (h : kind.comparison relation lexical = .ok predicate) :
    predicate.Concerns .object := by
  unfold LiteralKind.comparison at h
  split at h
  · exact concerns_equality h
  · split at h
    · cases h
      rfl
    · cases h
      rfl
    all_goals cases h

/-- The predicates of a literal at the object, apart from the cache. -/
lemma built_objectPredicates_literal (literal : Literal) :
    built (objectPredicates (.literal literal)) =
      (literal.kind.equality literal.lexical).map fun value =>
        [LanguageCache.predicateOf (LanguageCache.key literal.language?), value] := by
  have hlanguage : built (languagePredicate literal.language?) =
      .ok (LanguageCache.predicateOf (LanguageCache.key literal.language?)) := rfl
  unfold objectPredicates
  rw [built_bind (transparent_languagePredicate _) fun _ =>
    transparent_bind (transparent_liftM _) fun _ => transparent_pure _, hlanguage]
  cases literal.kind.equality literal.lexical <;> rfl

/-- A resource is asked for by its written form at every position. -/
lemma built_positionPredicates_resource (position : Position) {term : Term}
    (h : ∀ literal, term ≠ .literal literal) :
    built (positionPredicates position term) = .ok [termPredicate position term] := by
  cases position <;> cases term <;> first | rfl | exact absurd rfl (h _)

/-- Away from the object every term is asked for by its written form. -/
lemma built_positionPredicates_of_ne {position : Position} (h : position ≠ .object) (term : Term) :
    built (positionPredicates position term) = .ok [termPredicate position term] := by
  cases position with
  | object => exact absurd rfl h
  | subject | predicate => rfl

lemma concerns_positionPredicates {position : Position} {term : Term} {filters : List Predicate}
    (h : built (positionPredicates position term) = .ok filters) :
    ∀ predicate ∈ filters, predicate.Concerns position := by
  have hwritten : filters = [termPredicate position term] →
      ∀ predicate ∈ filters, predicate.Concerns position := by
    rintro rfl
    exact List.forall_mem_singleton.mpr (concerns_termPredicate position term)
  by_cases hposition : position = .object
  · subst hposition
    cases term with
    | literal literal =>
      have hbuilt : built (objectPredicates (.literal literal)) = .ok filters := h
      rw [built_objectPredicates_literal] at hbuilt
      cases hvalue : literal.kind.equality literal.lexical with
      | error fault =>
        rw [hvalue] at hbuilt
        cases hbuilt
      | ok value =>
        rw [hvalue] at hbuilt
        cases hbuilt
        exact List.forall_mem_cons.mpr ⟨.inr ⟨rfl, .inl rfl⟩,
          List.forall_mem_singleton.mpr (concerns_equality hvalue)⟩
    | iri | blank =>
      rw [built_positionPredicates_resource _ (by simp)] at h
      cases h
      exact hwritten rfl
  · rw [built_positionPredicates_of_ne hposition] at h
    cases h
    exact hwritten rfl

/-- Equality is asked as of a term in a pattern. -/
lemma constraintPredicates_equal (position : Position) (v : Variable) (value : Term) :
    constraintPredicates position ⟨v, .equal, value⟩ = positionPredicates position value := rfl

/-- An order can be asked at the object only, and only of literals. -/
lemma built_constraintPredicates_order {position : Position} {constraint : Constraint}
    (horder : constraint.comparison ≠ .equal) {filters : List Predicate}
    (h : built (constraintPredicates position constraint) = .ok filters) :
    position = .object ∧ ∃ (literal : Literal) (predicate : Predicate),
      literal.kind.comparison constraint.comparison literal.lexical = .ok predicate ∧
        filters = [predicate] := by
  obtain ⟨v, comparison, value⟩ := constraint
  unfold constraintPredicates at h
  split at h
  · rename_i hequal
    exact absurd hequal horder
  · rename_i literal _ _
    rw [built_bind (transparent_liftM _) fun _ => transparent_pure _] at h
    cases hcompare : literal.kind.comparison comparison literal.lexical with
    | error fault =>
      rw [hcompare] at h
      cases h
    | ok predicate =>
      rw [hcompare] at h
      cases h
      exact ⟨rfl, literal, predicate, hcompare, rfl⟩
  · cases h

/-- **A constraint looks at one term**: its predicates at a position concern the term there. -/
theorem concerns_constraintPredicates {position : Position} {constraint : Constraint}
    {filters : List Predicate}
    (h : built (constraintPredicates position constraint) = .ok filters) :
    ∀ predicate ∈ filters, predicate.Concerns position := by
  by_cases hequal : constraint.comparison = .equal
  · obtain ⟨v, comparison, value⟩ := constraint
    subst hequal
    rw [constraintPredicates_equal] at h
    exact concerns_positionPredicates h
  · obtain ⟨rfl, literal, predicate, hcompare, rfl⟩ := built_constraintPredicates_order hequal h
    exact List.forall_mem_singleton.mpr (concerns_comparison hcompare)

/-! ## Terms that a constraint admits -/

/-- The predicates of a constraint can be built at a position. -/
def Constraint.BuildableAt (constraint : Constraint) (position : Position) : Prop :=
  ∃ filters, built (constraintPredicates position constraint) = .ok filters

/-- Whether a term at a position is as a constraint asks: whether the record that carries it satisfies
the constraint's predicates. -/
def Constraint.admits (constraint : Constraint) (position : Position) (term : Term) : Bool :=
  match built (constraintPredicates position constraint) with
  | .ok filters => (Record.carrying position term).meets filters
  | .error _ => false

/-- The record of a statement is as a constraint asks at a position exactly if the term there is. -/
lemma Constraint.meets_eq_admits {constraint : Constraint} {position : Position}
    {filters : List Predicate}
    (h : built (constraintPredicates position constraint) = .ok filters) (quad : Quad) :
    quad.record.meets filters = constraint.admits position (quad.triple.at position) := by
  unfold Constraint.admits
  rw [h]
  exact Quad.meets_eq_carrying (concerns_constraintPredicates h)

/-- A term that has to be equal, and is asked for by its written form, is the only one admitted. -/
lemma Constraint.admits_equal {constraint : Constraint} (hequal : constraint.comparison = .equal)
    {position : Position} (h : position ≠ .object ∨ ∀ literal, constraint.value ≠ .literal literal)
    {term : Term} : constraint.admits position term = true ↔ term = constraint.value := by
  obtain ⟨v, comparison, value⟩ := constraint
  subst hequal
  have hbuilt : built (positionPredicates position value) = .ok [termPredicate position value] := by
    rcases h with hposition | hvalue
    · exact built_positionPredicates_of_ne hposition value
    · exact built_positionPredicates_resource position hvalue
  have hadmits : Constraint.admits ⟨v, .equal, value⟩ position term =
      (Record.carrying position term).meets [termPredicate position value] := by
    unfold Constraint.admits
    rw [constraintPredicates_equal, hbuilt]
  rw [hadmits, Record.meets, List.all_cons, List.all_nil, Bool.and_true]
  exact holdsOf_carrying_termPredicate

/-- **The position hardly matters.**  At two positions where its predicates can be built a constraint
admits the same terms, unless it asks for a literal by equality. -/
theorem Constraint.admits_congr {constraint : Constraint} {position position' : Position}
    (h : constraint.BuildableAt position) (h' : constraint.BuildableAt position')
    (hvalue : position ≠ position' → constraint.comparison = .equal →
      ∀ literal, constraint.value ≠ .literal literal) (term : Term) :
    constraint.admits position term = constraint.admits position' term := by
  by_cases hposition : position = position'
  · rw [hposition]
  by_cases hequal : constraint.comparison = .equal
  · have hresource := hvalue hposition hequal
    rw [Bool.eq_iff_iff, Constraint.admits_equal hequal (.inr hresource),
      Constraint.admits_equal hequal (.inr hresource)]
  · obtain ⟨filters, hfilters⟩ := h
    obtain ⟨filters', hfilters'⟩ := h'
    have hobject := (built_constraintPredicates_order hequal hfilters).1
    have hobject' := (built_constraintPredicates_order hequal hfilters').1
    exact absurd (hobject.trans hobject'.symm) hposition

/-! ## Patterns with constraints -/

/-- The predicates of some constraints can be built wherever a pattern has their variable. -/
def TriplePattern.Constrainable (pattern : TriplePattern) (constraints : List Constraint) : Prop :=
  ∀ constraint ∈ constraints, ∀ position,
    (position, Slot.var constraint.var) ∈ pattern.slots → constraint.BuildableAt position

/-- Whether the term of a statement at a slot is as the constraints on its variable ask. -/
def slotAdmits (constraints : List Constraint) (triple : Triple) : Position × Slot → Bool
  | (_, .term _) => true
  | (position, .var v) =>
    (constraints.filter (·.var = v)).all fun constraint =>
      constraint.admits position (triple.at position)

/-- Whether a statement is as the constraints ask at the open variables of a pattern. -/
def openAdmits (constraints : List Constraint) (lookup : Variable → Option Term)
    (pattern : TriplePattern) (triple : Triple) : Bool :=
  pattern.slots.all fun slot =>
    (slot.2.var?.any fun v => (lookup v).isSome) || slotAdmits constraints triple slot

lemma slotAdmits_var {constraints : List Constraint} {triple : Triple} {position : Position}
    {v : Variable} : slotAdmits constraints triple (position, .var v) = true ↔
      ∀ constraint ∈ constraints, constraint.var = v →
        constraint.admits position (triple.at position) = true := by
  simp [slotAdmits, imp_iff_not_or]

/-- What it means that a statement is as the constraints ask at the open variables. -/
lemma openAdmits_iff {constraints : List Constraint} {lookup : Variable → Option Term}
    {pattern : TriplePattern} {triple : Triple} :
    openAdmits constraints lookup pattern triple = true ↔
      ∀ constraint ∈ constraints, ∀ position, (position, Slot.var constraint.var) ∈ pattern.slots →
        lookup constraint.var = none →
          constraint.admits position (triple.at position) = true := by
  unfold openAdmits
  rw [List.all_eq_true]
  constructor
  · intro h constraint hconstraint position hslot hopen
    have hadmits := h _ hslot
    simp only [Slot.var?, Option.any_some, hopen, Option.isSome_none, Bool.false_or] at hadmits
    exact slotAdmits_var.mp hadmits constraint hconstraint rfl
  · rintro h ⟨position, term | v⟩ hslot
    · rfl
    · cases hv : lookup v with
      | some term => simp [Slot.var?, hv]
      | none =>
        simp only [Slot.var?, Option.any_some, hv, Option.isSome_none, Bool.false_or]
        refine slotAdmits_var.mpr fun constraint hconstraint hvar => ?_
        subst hvar
        exact h constraint hconstraint position hslot hv

/-- The predicates that the constraints put on a variable at a position ask for the statements whose
term there they admit. -/
lemma exists_built_variablePredicates {constraints : List Constraint} {position : Position}
    {v : Variable}
    (h : ∀ constraint ∈ constraints, constraint.var = v → constraint.BuildableAt position) :
    ∃ filters, built (variablePredicates constraints position v) = .ok filters ∧
      ∀ quad : Quad, quad.record.meets filters =
        slotAdmits constraints quad.triple (position, .var v) := by
  have heach : ∀ constraint ∈ constraints.filter (·.var = v), ∃ filters,
      built (constraintPredicates position constraint) = .ok filters ∧
        ∀ quad : Quad, quad.record.meets filters =
          constraint.admits position (quad.triple.at position) := by
    intro constraint hconstraint
    obtain ⟨hmem, hvar⟩ := List.mem_filter.mp hconstraint
    obtain ⟨filters, hfilters⟩ := h constraint hmem (of_decide_eq_true hvar)
    exact ⟨filters, hfilters, Constraint.meets_eq_admits hfilters⟩
  obtain ⟨found, hfound, hmeets⟩ := exists_mapM_meets heach
  refine ⟨found.flatten, ?_, hmeets⟩
  unfold variablePredicates
  rw [built_bind (transparent_mapM (transparent_constraintPredicates position) _) fun _ =>
    transparent_pure _, built_mapM (transparent_constraintPredicates position), hfound]
  rfl

/-- The predicates that the constraints add to a pattern ask for the statements that they admit at its
open variables. -/
lemma exists_built_openPredicates {constraints : List Constraint} {pattern : TriplePattern}
    (h : pattern.Constrainable constraints) (lookup : Variable → Option Term) :
    ∃ filters, built (openPredicates constraints lookup pattern) = .ok filters ∧
      ∀ quad : Quad, quad.record.meets filters =
        openAdmits constraints lookup pattern quad.triple := by
  have heach : ∀ slot ∈ pattern.slots, ∃ filters,
      built (slotConstraints constraints lookup slot) = .ok filters ∧
        ∀ quad : Quad, quad.record.meets filters =
          ((slot.2.var?.any fun v => (lookup v).isSome) ||
            slotAdmits constraints quad.triple slot) := by
    rintro ⟨position, term | v⟩ hslot
    · exact ⟨[], rfl, fun quad => rfl⟩
    · by_cases hv : (lookup v).isSome
      · refine ⟨[], by simp [slotConstraints, hv, built_pure], fun quad => ?_⟩
        simp [Slot.var?, hv, Record.meets]
      · have hbuildable : ∀ constraint ∈ constraints, constraint.var = v →
            constraint.BuildableAt position := fun constraint hconstraint hvar =>
          h constraint hconstraint position (hvar ▸ hslot)
        obtain ⟨filters, hfilters, hmeets⟩ := exists_built_variablePredicates hbuildable
        refine ⟨filters, by simpa [slotConstraints, hv] using hfilters, fun quad => ?_⟩
        simp [Slot.var?, hv, hmeets]
  obtain ⟨found, hfound, hmeets⟩ := exists_mapM_meets heach
  refine ⟨found.flatten, ?_, hmeets⟩
  rw [openPredicates_eq, built_bind (transparent_mapM (transparent_slotConstraints _ _) _) fun _ =>
    transparent_pure _, built_mapM (transparent_slotConstraints _ _), hfound]
  rfl

/-- **The predicates of a pattern under constraints** can be built under every binding, and ask for
the statements of the graph that are as every slot asks and as the constraints ask at the open
variables. -/
theorem exists_built_constrained (graph : GraphName) {constraints : List Constraint}
    {pattern : TriplePattern} (h : pattern.Buildable) (hconstraints : pattern.Constrainable constraints)
    (lookup : Variable → Option Term) :
    ∃ filters, built (queryPredicates graph constraints pattern lookup) = .ok filters ∧
      ∀ quad : Quad, quad.record.meets filters =
        ((graphPredicate graph).holdsOf quad.record &&
          pattern.slots.all (slotMeets lookup quad.record) &&
          openAdmits constraints lookup pattern quad.triple) := by
  obtain ⟨own, hown, hmeets⟩ := exists_built_patternPredicates graph h lookup
  obtain ⟨added, hadded, hadmits⟩ := exists_built_openPredicates hconstraints lookup
  refine ⟨own ++ added, ?_, fun quad => ?_⟩
  · unfold queryPredicates
    rw [built_bind (transparent_patternPredicates _ _ _) fun own =>
      transparent_bind (transparent_openPredicates _ _ _) fun _ => transparent_pure _, hown]
    show built (_ >>= _) = _
    rw [built_bind (transparent_openPredicates _ _ _) fun _ => transparent_pure _, hadded]
    rfl
  · rw [← hmeets, ← hadmits]
    exact List.all_append

end QuadStore
