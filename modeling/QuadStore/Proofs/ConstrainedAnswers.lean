import Mathlib
import QuadStore.Proofs.ConstraintMeaning
import QuadStore.Proofs.IdleConstraints
import QuadStore.Proofs.QueryAnswers

/-!
# Constraints keep some of the answers

An evaluation asks for what the constraints admit only where a variable is still open; one that is
bound is asked for by its term.  Nevertheless the rows are those of the query without constraints,
less those in which some variable stands for a term that a constraint on it does not admit, at one of
the positions at which the variable occurs in the query (`satisfiesAll`).

Two things are needed for this.  Rows only grow, so a row that was dropped early would have been dropped
in the end; and a variable that was checked where it was bound need not be checked again where it occurs
a second time, because constraints admit the same terms at all its positions (`Indifferent`).  The latter
is not always so: a literal is admitted by value at the object and nowhere else.  But a variable that
has to equal a literal and occurs away from the object leaves a pattern without candidates, and then
there are no rows at all.

The constraints also change the numbers of candidates and with them the order of the loops, which is
why the rows are compared up to their order (`rows_constrained_perm`).
-/

namespace QuadStore

variable {σ : Type}

/-- A variable occurs at a position of one of the patterns. -/
def OccursAt (patterns : List TriplePattern) (v : Variable) (position : Position) : Prop :=
  ∃ pattern ∈ patterns, (position, Slot.var v) ∈ pattern.slots

/-- Whether the variables stand for terms that the constraints admit, at every position at which they
occur in the patterns. -/
def satisfiesAll (constraints : List Constraint) (patterns : List TriplePattern)
    (answer : Variable → Option Term) : Bool :=
  constraints.all fun constraint => patterns.all fun pattern => pattern.slots.all fun slot =>
    decide (slot.2 ≠ .var constraint.var) || (answer constraint.var).all (constraint.admits slot.1)

lemma satisfiesAll_iff {constraints : List Constraint} {patterns : List TriplePattern}
    {answer : Variable → Option Term} :
    satisfiesAll constraints patterns answer = true ↔
      ∀ constraint ∈ constraints, ∀ position, OccursAt patterns constraint.var position →
        ∀ term, answer constraint.var = some term → constraint.admits position term = true := by
  simp only [satisfiesAll, List.all_eq_true, Bool.or_eq_true, decide_eq_true_eq]
  constructor
  · rintro h constraint hconstraint position ⟨pattern, hpattern, hslot⟩ term hterm
    rcases h constraint hconstraint pattern hpattern _ hslot with hne | hadmits
    · exact absurd rfl hne
    · rwa [hterm] at hadmits
  · rintro h constraint hconstraint pattern hpattern ⟨position, slot⟩ hslot
    by_cases hvar : slot = .var constraint.var
    · subst hvar
      right
      cases hterm : answer constraint.var with
      | none => rfl
      | some term => exact h constraint hconstraint position ⟨pattern, hpattern, hslot⟩ term hterm
    · exact .inl hvar

/-- It does not matter in which order, or how often, constraints and patterns are given. -/
lemma satisfiesAll_congr {constraints constraints' : List Constraint}
    {patterns patterns' : List TriplePattern} (hconstraints : ∀ c, c ∈ constraints ↔ c ∈ constraints')
    (hpatterns : ∀ pattern, pattern ∈ patterns ↔ pattern ∈ patterns') :
    satisfiesAll constraints patterns = satisfiesAll constraints' patterns' := by
  funext answer
  rw [Bool.eq_iff_iff, satisfiesAll_iff, satisfiesAll_iff]
  simp only [OccursAt, hconstraints, hpatterns]

/-- What satisfies the constraints does so with fewer values. -/
lemma satisfiesAll_of_le {constraints : List Constraint} {patterns : List TriplePattern}
    {answer more : Variable → Option Term}
    (hmore : ∀ v term, answer v = some term → more v = some term)
    (h : satisfiesAll constraints patterns more = true) :
    satisfiesAll constraints patterns answer = true := by
  rw [satisfiesAll_iff] at h ⊢
  intro constraint hconstraint position hoccurs term hterm
  exact h constraint hconstraint position hoccurs term (hmore _ _ hterm)

lemma satisfiesAll_nil (constraints : List Constraint) (patterns : List TriplePattern) :
    satisfiesAll constraints patterns (fun v => List.lookup v []) = true := by
  rw [satisfiesAll_iff]
  intro constraint _ position _ term hterm
  cases hterm

/-- The constraints admit the same terms at all positions of a variable. -/
def Indifferent (constraints : List Constraint) (patterns : List TriplePattern) : Prop :=
  ∀ constraint ∈ constraints, ∀ position position', OccursAt patterns constraint.var position →
    OccursAt patterns constraint.var position' → ∀ term,
      constraint.admits position term = constraint.admits position' term

namespace Evaluation

variable {evaluation : Evaluation σ} {holdings : Holdings} {constraints : List Constraint}

/-! ## The candidates under constraints -/

lemma builds_of_constrainable {pattern : TriplePattern} (h : pattern.Buildable)
    (hconstraints : pattern.Constrainable constraints) :
    evaluation.Builds constraints pattern := fun lookup =>
  (exists_built_constrained evaluation.graph h hconstraints lookup).imp fun _ hbuilt => hbuilt.1

/-- **The candidates of a pattern under constraints** are those of its candidates whose terms the
constraints admit at the open variables. -/
theorem candidates_constrained_perm {pattern : TriplePattern} (h : pattern.Buildable)
    (hconstraints : pattern.Constrainable constraints) (row : Assignments) :
    (evaluation.candidates holdings constraints pattern row).Perm
      ((evaluation.candidates holdings [] pattern row).filter fun id =>
        openAdmits constraints (row.lookup ·) pattern (holdings.quad id).triple) := by
  obtain ⟨filters, hfilters, hmeets⟩ :=
    exists_built_constrained evaluation.graph h hconstraints (row.lookup ·)
  have hplain : (evaluation.candidates holdings [] pattern row).Perm _ := candidates_perm h row
  refine List.Perm.trans ?_ (hplain.filter _).symm
  unfold candidates
  rw [hfilters]
  refine (evaluation.order.sorted_perm _).trans (.of_eq ?_)
  rw [Holdings.matching, Holdings.ofGraph, List.filter_filter, List.filter_filter]
  refine List.filter_congr fun id _ => ?_
  have hgraph : (graphPredicate evaluation.graph).holdsOf (holdings.quad id).record =
      decide ((holdings.quad id).graph = evaluation.graph) := by
    rw [Bool.eq_iff_iff, Quad.holdsOf_graphPredicate, decide_eq_true_iff]
  rw [hmeets, hgraph]
  ac_rfl

/-- A candidate agrees with the row under which it was found. -/
lemma agreesWith_of_mem_candidates {pattern : TriplePattern} (h : pattern.Buildable)
    {row : Assignments} {id : RecordId}
    (hid : id ∈ evaluation.candidates holdings [] pattern row) :
    AgreesWith row (pattern.valuesIn (holdings.quad id).triple) := by
  have hmeets := (List.mem_filter.mp ((candidates_perm h row).mem_iff.mp hid)).2
  exact (all_slotMeets_iff.mp hmeets).2

/-! ## One statement -/

/-- **A row that satisfies the constraints** goes on doing so with the values of a statement exactly if
the constraints admit the statement's terms at the open variables. -/
theorem satisfiesAll_extended {patterns : List TriplePattern}
    (hindifferent : Indifferent constraints patterns) {pattern : TriplePattern}
    (hpattern : pattern ∈ patterns) {row extended : Assignments} {triple : Triple}
    (hrow : satisfiesAll constraints patterns (row.lookup ·) = true) (hdistinct : Distinct extended)
    (hmem : ∀ x, x ∈ extended ↔ x ∈ row ++ pattern.valuesIn triple) :
    satisfiesAll constraints patterns (extended.lookup ·) = true ↔
      openAdmits constraints (row.lookup ·) pattern triple = true := by
  rw [satisfiesAll_iff] at hrow ⊢
  rw [openAdmits_iff]
  constructor
  · intro h constraint hconstraint position hslot _
    have hsaid : (constraint.var, triple.at position) ∈ extended :=
      (hmem _).mpr (List.mem_append_right _ (mem_slotValues.mpr ⟨position, hslot, rfl⟩))
    exact h constraint hconstraint position ⟨pattern, hpattern, hslot⟩ _
      (lookup_of_mem hdistinct.functional hsaid)
  · intro h constraint hconstraint position hoccurs term hterm
    cases hold : row.lookup constraint.var with
    | some earlier =>
      have hearlier : (constraint.var, earlier) ∈ extended :=
        (hmem _).mpr (List.mem_append_left _ (mem_of_lookup hold))
      have hsame := lookup_of_mem hdistinct.functional hearlier
      rw [hterm, Option.some.injEq] at hsame
      subst hsame
      exact hrow constraint hconstraint position hoccurs term hold
    | none =>
      -- The value is new, so it was checked at the position where the statement has it.
      rcases List.mem_append.mp ((hmem _).mp (mem_of_lookup hterm)) with hinRow | hsaid
      · exact absurd hinRow (notMem_of_lookup hold)
      · obtain ⟨position', hslot, rfl⟩ := mem_slotValues.mp hsaid
        rw [hindifferent constraint hconstraint position position' hoccurs ⟨pattern, hpattern, hslot⟩]
        exact h constraint hconstraint position' hslot hold

/-! ## The loops -/

lemma exists_append_of_extendRow {pattern : TriplePattern} {triple : Triple}
    {row extended : Assignments} (h : extendRow pattern triple row = some extended) :
    ∃ more, extended = row ++ more := by
  obtain ⟨found, -, rfl⟩ := Option.map_eq_some_iff.mp h
  exact ⟨found, rfl⟩

/-- Rows only grow. -/
lemma exists_append_of_mem_loops {patterns : List TriplePattern} {row made : Assignments}
    (h : made ∈ evaluation.loops holdings constraints patterns row) :
    ∃ more, made = row ++ more := by
  induction patterns generalizing row with
  | nil => exact ⟨[], by rw [List.mem_singleton.mp h, List.append_nil]⟩
  | cons pattern rest ih =>
    obtain ⟨extended, hextended, hmade⟩ := List.mem_flatMap.mp h
    obtain ⟨id, -, hextend⟩ := List.mem_filterMap.mp hextended
    obtain ⟨first, rfl⟩ := exists_append_of_extendRow hextend
    obtain ⟨more, rfl⟩ := ih hmade
    exact ⟨first ++ more, List.append_assoc row first more⟩

lemma lookup_append_of_some {row : Assignments} {v : Variable} {term : Term}
    (h : row.lookup v = some term) (more : Assignments) :
    (row ++ more).lookup v = some term := by
  rw [List.lookup_append, h, Option.some_or]

/-- A row that breaks a constraint makes no row that satisfies them all. -/
lemma filter_loops_eq_nil {all patterns : List TriplePattern} {row : Assignments}
    (h : satisfiesAll constraints all (row.lookup ·) = false) :
    (evaluation.loops holdings [] patterns row).filter
      (fun made => satisfiesAll constraints all (made.lookup ·)) = [] := by
  rw [List.filter_eq_nil_iff]
  intro made hmade hsatisfies
  obtain ⟨more, rfl⟩ := exists_append_of_mem_loops hmade
  have hrow := satisfiesAll_of_le (fun v term hv => lookup_append_of_some hv more) hsatisfies
  rw [h] at hrow
  cases hrow

/-- **The loops under constraints** make the rows of the loops without, less those that do not satisfy
the constraints. -/
theorem loops_constrained_perm {all : List TriplePattern}
    (hbuildable : ∀ pattern ∈ all, pattern.Buildable)
    (hconstrainable : ∀ pattern ∈ all, pattern.Constrainable constraints)
    (hindifferent : Indifferent constraints all) {patterns : List TriplePattern}
    (hsubset : ∀ pattern ∈ patterns, pattern ∈ all) {row : Assignments} (hdistinct : Distinct row)
    (hrow : satisfiesAll constraints all (row.lookup ·) = true) :
    (evaluation.loops holdings constraints patterns row).Perm
      ((evaluation.loops holdings [] patterns row).filter fun made =>
        satisfiesAll constraints all (made.lookup ·)) := by
  induction patterns generalizing row with
  | nil =>
    have hkept : [row].filter (fun made => satisfiesAll constraints all (made.lookup ·)) = [row] :=
      List.filter_cons_of_pos hrow
    rw [loops, loops, hkept]
  | cons pattern rest ih =>
    have hpattern := hsubset pattern List.mem_cons_self
    have hrest : ∀ other ∈ rest, other ∈ all := fun other hother =>
      hsubset other (List.mem_cons_of_mem pattern hother)
    rw [loops, loops, extensions, extensions, flatMap_filterMap, flatMap_filterMap,
      List.filter_flatMap]
    have hcandidates : (evaluation.candidates holdings constraints pattern row).Perm _ :=
      candidates_constrained_perm (hbuildable pattern hpattern) (hconstrainable pattern hpattern) row
    refine (hcandidates.flatMap_right _).trans ?_
    rw [flatMap_filter]
    refine List.Perm.flatMap_left _ fun id hid => ?_
    have hagrees := agreesWith_of_mem_candidates (hbuildable pattern hpattern) hid
    have hspec := extendRow_spec hdistinct hagrees
    cases hextend : extendRow pattern (holdings.quad id).triple row with
    | none => simp
    | some extended =>
      rw [hextend] at hspec
      obtain ⟨hextended, -, hmem⟩ := hspec
      have hiff := satisfiesAll_extended hindifferent hpattern hrow hextended hmem
      rw [Option.elim_some, Option.elim_some]
      by_cases hadmits :
          openAdmits constraints (row.lookup ·) pattern (holdings.quad id).triple = true
      · rw [if_pos hadmits]
        exact ih hrest hextended (hiff.mpr hadmits)
      · rw [if_neg hadmits,
          filter_loops_eq_nil (Bool.eq_false_of_not_eq_true fun h => hadmits (hiff.mp h))]

/-! ## Patterns without candidates -/

/-- A candidate under no binding is admitted at all variables of its pattern. -/
lemma admits_of_mem_candidates {pattern : TriplePattern} (h : pattern.Buildable)
    (hconstraints : pattern.Constrainable constraints) {id : RecordId}
    (hid : id ∈ evaluation.candidates holdings constraints pattern []) {constraint : Constraint}
    (hconstraint : constraint ∈ constraints) {position : Position}
    (hslot : (position, Slot.var constraint.var) ∈ pattern.slots) :
    constraint.admits position ((holdings.quad id).triple.at position) = true := by
  have hmem := (candidates_constrained_perm h hconstraints []).mem_iff.mp hid
  have hopen : openAdmits constraints (List.lookup · []) pattern (holdings.quad id).triple = true :=
    (List.mem_filter.mp hmem).2
  exact openAdmits_iff.mp hopen constraint hconstraint position hslot rfl

/-- **If every pattern has candidates**, the constraints admit the same terms at all positions of a
variable: none asks a literal to be a resource. -/
theorem indifferent_of_candidates {patterns : List TriplePattern}
    (hbuildable : ∀ pattern ∈ patterns, pattern.Buildable)
    (hconstrainable : ∀ pattern ∈ patterns, pattern.Constrainable constraints)
    (h : evaluation.lacksCandidates holdings constraints patterns = false) :
    Indifferent constraints patterns := by
  -- A candidate away from the object is a resource, and it is what the constraint asks for.
  have hresource : ∀ constraint ∈ constraints, ∀ position, OccursAt patterns constraint.var position →
      position ≠ .object → constraint.comparison = .equal →
        ∀ literal, constraint.value ≠ .literal literal := by
    rintro constraint hconstraint position ⟨pattern, hpattern, hslot⟩ hposition hequal literal hvalue
    have hsome := List.any_eq_false.mp h pattern hpattern
    obtain ⟨id, hid⟩ := List.exists_mem_of_ne_nil _ fun hnil => hsome (List.isEmpty_iff.mpr hnil)
    have hadmits := admits_of_mem_candidates (hbuildable pattern hpattern)
      (hconstrainable pattern hpattern) hid hconstraint hslot
    have hterm := (Constraint.admits_equal hequal (.inl hposition)).mp hadmits
    rw [hvalue] at hterm
    cases position with
    | object => exact hposition rfl
    | predicate => cases hterm
    | subject =>
      have hsubject : (holdings.quad id).triple.subject.toTerm = .literal literal := hterm
      cases hkind : (holdings.quad id).triple.subject <;> rw [hkind] at hsubject <;> cases hsubject
  intro constraint hconstraint position position' hoccurs hoccurs' term
  have hbuildableAt : ∀ place, OccursAt patterns constraint.var place →
      constraint.BuildableAt place := by
    rintro place ⟨pattern, hpattern, hslot⟩
    exact hconstrainable pattern hpattern constraint hconstraint place hslot
  refine Constraint.admits_congr (hbuildableAt _ hoccurs) (hbuildableAt _ hoccurs') ?_ term
  intro hne hequal
  by_cases hobject : position = .object
  · exact hresource constraint hconstraint position' hoccurs' (fun h => hne (hobject.trans h.symm)) hequal
  · exact hresource constraint hconstraint position hoccurs hobject hequal

/-- A pattern that has no candidates because of the constraints leaves no answer that satisfies
them. -/
lemma filter_answers_of_lacksCandidates {patterns : List TriplePattern}
    (hbuildable : ∀ pattern ∈ patterns, pattern.Buildable)
    (hconstrainable : ∀ pattern ∈ patterns, pattern.Constrainable constraints)
    (h : evaluation.lacksCandidates holdings constraints patterns = true) :
    (holdings.answers evaluation.graph patterns).filter
      (satisfiesAll constraints patterns) = [] := by
  obtain ⟨pattern, hpattern, hempty⟩ := List.any_eq_true.mp h
  rw [List.filter_eq_nil_iff]
  intro answer hanswer hsatisfies
  obtain ⟨choice, hchoice, rfl⟩ := List.mem_map.mp hanswer
  obtain ⟨hchoices, hfits⟩ := List.mem_filter.mp hchoice
  have hfits : holdings.Fits [] choice := of_decide_eq_true hfits
  obtain ⟨id, hid, hx⟩ := Holdings.exists_mem_of_mem_choices hpattern hchoices
  -- The record that was chosen for the pattern would be a candidate.
  have hasks : holdings.asks pattern id = true := hfits.1 (pattern, id) hx
  have hnone : (fun v : Variable => List.lookup v ([] : Assignments)) = fun _ => none := rfl
  have hmeets : pattern.slots.all (slotMeets (List.lookup · []) (holdings.quad id).record) = true := by
    rw [hnone]
    exact hasks
  have hplain : id ∈ evaluation.candidates holdings [] pattern [] :=
    (candidates_perm (hbuildable pattern hpattern) []).mem_iff.mpr (List.mem_filter.mpr ⟨hid, hmeets⟩)
  have hadmits : openAdmits constraints (List.lookup · []) pattern (holdings.quad id).triple = true := by
    rw [openAdmits_iff]
    intro constraint hconstraint position hslot _
    have hsaid : (constraint.var, (holdings.quad id).triple.at position) ∈
        [] ++ holdings.said choice :=
      List.mem_flatMap.mpr ⟨_, hx, mem_slotValues.mpr ⟨position, hslot, rfl⟩⟩
    exact satisfiesAll_iff.mp hsatisfies constraint hconstraint position ⟨pattern, hpattern, hslot⟩ _
      (lookup_of_mem hfits.2 hsaid)
  have hcandidate := (candidates_constrained_perm (hbuildable pattern hpattern)
    (hconstrainable pattern hpattern) []).mem_iff.mpr (List.mem_filter.mpr ⟨hplain, hadmits⟩)
  rw [List.isEmpty_iff.mp hempty] at hcandidate
  cases hcandidate

/-! ## The rows -/

/-- If every pattern has candidates, the loops over the patterns in the order of their candidates make
what satisfies the constraints. -/
lemma loops_fewestFirst_perm {patterns : List TriplePattern}
    (hbuildable : ∀ pattern ∈ patterns, pattern.Buildable)
    (hconstrainable : ∀ pattern ∈ patterns, pattern.Constrainable constraints)
    (h : evaluation.lacksCandidates holdings constraints patterns = false) :
    (evaluation.loops holdings constraints (evaluation.fewestFirst holdings constraints patterns)
      []).Perm
        ((evaluation.loops holdings [] (evaluation.fewestFirst holdings constraints patterns)
          []).filter fun made => satisfiesAll constraints patterns (made.lookup ·)) := by
  have hperm := evaluation.fewestFirst_perm holdings constraints patterns
  have hindifferent := indifferent_of_candidates hbuildable hconstrainable h
  exact loops_constrained_perm hbuildable hconstrainable hindifferent
    (fun pattern hpattern => hperm.mem_iff.mp hpattern) distinct_nil
    (satisfiesAll_nil constraints patterns)

/-- **The rows of a query with constraints** are its answers that satisfy the constraints, each as
often. -/
theorem rows_constrained_perm {patterns : List TriplePattern}
    (hbuildable : ∀ pattern ∈ patterns, pattern.Buildable)
    (hconstrainable : ∀ pattern ∈ patterns, pattern.Constrainable constraints) :
    ((evaluation.rows holdings constraints patterns).map fun (row : Assignments) v => row.lookup v).Perm
      ((holdings.answers evaluation.graph patterns).filter (satisfiesAll constraints patterns)) := by
  have hperm := evaluation.fewestFirst_perm holdings constraints patterns
  unfold rows
  split
  · rename_i hlacks
    rw [filter_answers_of_lacksCandidates hbuildable hconstrainable hlacks]
    exact .refl _
  · rename_i hlacks
    have hloops := loops_fewestFirst_perm hbuildable hconstrainable
      (Bool.eq_false_of_not_eq_true hlacks)
    have hanswers : ((evaluation.loops holdings []
        (evaluation.fewestFirst holdings constraints patterns) []).map
          fun (made : Assignments) v => made.lookup v).Perm _ :=
      (loops_perm (fun pattern hpattern => hbuildable pattern (hperm.mem_iff.mp hpattern))
        distinct_nil).trans (Holdings.answers_perm evaluation.graph hperm)
    refine (hloops.map _).trans (.trans (.of_eq ?_) (hanswers.filter _))
    rw [List.filter_map]
    rfl

lemma distinct_of_mem_constrained {patterns : List TriplePattern}
    (hbuildable : ∀ pattern ∈ patterns, pattern.Buildable)
    (hconstrainable : ∀ pattern ∈ patterns, pattern.Constrainable constraints) {row : Assignments}
    (h : row ∈ evaluation.rows holdings constraints patterns) : Distinct row := by
  have hperm := evaluation.fewestFirst_perm holdings constraints patterns
  unfold rows at h
  split at h
  · cases h
  · rename_i hlacks
    have hloops := loops_fewestFirst_perm hbuildable hconstrainable
      (Bool.eq_false_of_not_eq_true hlacks)
    exact distinct_of_mem_loops (fun pattern hpattern => hbuildable pattern (hperm.mem_iff.mp hpattern))
      distinct_nil (List.mem_of_mem_filter (hloops.mem_iff.mp h))

/-! ## What an evaluation keeps -/

/-- A query is evaluated without a failure, whatever was asked before, and its solutions are these
rows and no more. -/
def Yields (evaluation : Evaluation σ) (constraints : List Constraint)
    (patterns : List TriplePattern) (rows : List Binding) : Prop :=
  ∀ languages : LanguageCache, languages.Sound → ∀ state : σ, ∃ solutions languages' state',
    evaluation.run constraints patterns languages state =
      (some (.ok solutions), languages', state') ∧ languages'.Sound ∧
      ∀ count, solutions.bound ≤ count → ∀ state,
        (solutions.take evaluation.source count state).1 = rows.map .ok

lemma yields_rows (hready : evaluation.Ready holdings) {patterns : List TriplePattern}
    (hbuilds : ∀ pattern ∈ patterns, evaluation.Builds constraints pattern) :
    evaluation.Yields constraints patterns
      ((evaluation.rows holdings constraints patterns).map .mk) := by
  intro languages hlanguages state
  obtain ⟨solutions, languages', state', hrun, hsound, htake⟩ :=
    take_run hready hbuilds hlanguages state
  refine ⟨solutions, languages', state', hrun, hsound, fun count hcount state => ?_⟩
  rw [htake count hcount state, List.map_map]
  rfl

/-- The rows of a query with constraints are what it yields, and are the answers that satisfy the
constraints. -/
lemma yields_constrained (hready : evaluation.Ready holdings) {patterns : List TriplePattern}
    (hbuildable : ∀ pattern ∈ patterns, pattern.Buildable)
    (hconstrainable : ∀ pattern ∈ patterns, pattern.Constrainable constraints) :
    let rows := (evaluation.rows holdings constraints patterns).map Binding.mk
    evaluation.Yields constraints patterns rows ∧ (rows.map Binding.get?).Perm
      ((holdings.answers evaluation.graph patterns).filter (satisfiesAll constraints patterns)) := by
  intro rows
  constructor
  · apply yields_rows hready
    intro pattern hpattern
    exact builds_of_constrainable (hbuildable pattern hpattern) (hconstrainable pattern hpattern)
  · rw [List.map_map]
    exact rows_constrained_perm hbuildable hconstrainable

/-- **Constraints act as a filter.**  Over a source that holds certain quads, take a query whose terms
and constraints can be asked for.  Without the constraints it yields its answers, and with them those
rows in which every variable stands for a term that its constraints admit at each position of the
variable, each as often.  Constraints give no variable a value, and those on variables that no pattern
mentions change nothing at all. -/
theorem run_keeps_admitted (hready : evaluation.Ready holdings) {patterns : List TriplePattern}
    (hbuildable : ∀ pattern ∈ patterns, pattern.Buildable)
    (hconstrainable : ∀ pattern ∈ patterns, pattern.Constrainable constraints) :
    ∃ rows kept : List Binding,
      evaluation.Yields [] patterns rows ∧
      (rows.map Binding.get?).Perm (holdings.answers evaluation.graph patterns) ∧
      evaluation.Yields constraints patterns kept ∧
      (kept.map Binding.get?).Perm
        ((rows.filter fun row => satisfiesAll constraints patterns row.get?).map Binding.get?) ∧
      (∀ row ∈ kept, (row.values.map Prod.fst).Nodup ∧
        ∀ v, (row.get? v).isSome ↔ ∃ pattern ∈ patterns, v ∈ pattern.vars) ∧
      evaluation.run (mentioned patterns constraints) patterns =
        evaluation.run constraints patterns := by
  have hplain : ((evaluation.rows holdings [] patterns).map Binding.mk |>.map Binding.get?).Perm
      (holdings.answers evaluation.graph patterns) := by
    rw [List.map_map]
    exact rows_perm hbuildable
  obtain ⟨hyields, hkept⟩ := yields_constrained hready hbuildable hconstrainable
  refine ⟨_, _, yields_rows hready fun pattern hpattern => ?_, hplain, hyields, hkept.trans ?_,
    fun row hrow => ⟨?_, ?_⟩, run_mentioned evaluation constraints patterns⟩
  · exact builds_of_buildable (hbuildable pattern hpattern)
  · refine (hplain.symm.filter _).trans (.of_eq ?_)
    rw [List.filter_map]
    rfl
  · obtain ⟨values, hvalues, rfl⟩ := List.mem_map.mp hrow
    exact distinct_of_mem_constrained hbuildable hconstrainable hvalues
  · have hanswer := List.mem_of_mem_filter (hkept.mem_iff.mp (List.mem_map_of_mem hrow))
    exact Holdings.isSome_of_mem_answers hanswer

end Evaluation

/-- The date with a written form. -/
def Term.day (lexical : String) : Term := .literal (.typed lexical ⟨Xsd.date, by decide⟩)

/-- Two entries of a diary. -/
def diaryHoldings : Holdings where
  ids := [⟨0, 2⟩, ⟨0, 5⟩]
  nodup := by decide
  quad id := ⟨⟨.iri ⟨"entry"⟩, ⟨"on"⟩, .day (if id.doc = 2 then "2020-01-02" else "2019-12-31")⟩,
    .default⟩
  wellFormed := fun _ _ => ⟨⟨trivial, trivial⟩, trivial⟩

/-- Of the entries asked for after a day the earlier one is not kept, though the day itself is written
with a time. -/
theorem run_keeps_admitted_later :
    let evaluation : Evaluation Unit :=
      ⟨diaryHoldings.source, .default, 1, .ascending, .failClosed, 3⟩
    let entries : List TriplePattern := [⟨.var ⟨"e"⟩, .term (.iri ⟨"on"⟩), .var ⟨"d"⟩⟩]
    let constraints : List Constraint := [⟨⟨"d"⟩, .greater, .day "2020-01-01T12"⟩]
    ∃ kept : List Binding, evaluation.Yields constraints entries kept ∧
      kept.map (·.get? ⟨"d"⟩) = [some (.day "2020-01-02")] := by
  intro evaluation entries constraints
  have hready : evaluation.Ready diaryHoldings := ⟨diaryHoldings.serves_source, by decide, by decide⟩
  have hbuildable : ∀ pattern ∈ entries, pattern.Buildable := by
    simp [entries, TriplePattern.Buildable, TriplePattern.slots, positionPredicates, built_pure]
  have hconstraint : Constraint.BuildableAt ⟨⟨"d"⟩, .greater, .day "2020-01-01T12"⟩ .object :=
    ⟨[.dateRange (.excluded 1577880000000) .unbounded], by cbv⟩
  have hconstrainable : ∀ pattern ∈ entries, pattern.Constrainable constraints := by
    simp [entries, constraints, TriplePattern.Constrainable, TriplePattern.slots, hconstraint]
  have hon : ∀ id,
      (termPredicate .predicate (.iri ⟨"on"⟩)).holdsOf (diaryHoldings.quad id).record :=
    fun id => Quad.holdsOf_termPredicate.mpr rfl
  have hasks : ∀ pattern ∈ entries, ∀ id, diaryHoldings.asks pattern id = true := by
    simp [entries, Holdings.asks, TriplePattern.slots, slotMeets, positionPredicates, built_pure,
      Record.meets, hon]
  have hanswers : ((diaryHoldings.answers .default entries).filter
      (satisfiesAll constraints entries)).map (· ⟨"d"⟩) = [some (.day "2020-01-02")] := by
    rw [Holdings.answers_of_asks hasks]
    cbv
  obtain ⟨rows, kept, -, hrows, hyields, hkept, -⟩ :=
    Evaluation.run_keeps_admitted hready hbuildable hconstrainable
  refine ⟨kept, hyields, ?_⟩
  have hfiltered : (kept.map Binding.get?).Perm
      ((diaryHoldings.answers .default entries).filter (satisfiesAll constraints entries)) := by
    refine hkept.trans (.trans (.of_eq ?_) (hrows.filter _))
    rw [List.filter_map]
    rfl
  have hvalues := hfiltered.map fun answer => answer ⟨"d"⟩
  rw [hanswers, List.map_map] at hvalues
  exact List.perm_singleton.mp hvalues

end QuadStore
