import QuadStore.Proofs.BuildingPredicates
import QuadStore.Proofs.RowExtension
import QuadStore.Solutions
import Mathlib.Data.List.Basic
import Mathlib.Tactic.Lemma

/-!
# Constraints on variables that no pattern mentions

An evaluation looks up the constraints on a variable when it meets the variable in a pattern.  So it
is the same evaluation, step for step, with all constraints and with those on the variables of its
patterns (`Evaluation.run_mentioned`): it asks its source the same questions, builds the same
predicates, and gives the same solutions or the same failure.

Every step depends on the constraints through the patterns that it resolves.  These are the patterns
of the query at every level of a join, since resolving the patterns gives one leaf for each
(`Evaluation.patterns_of_resolveAll`).
-/

namespace QuadStore

variable {σ : Type}

/-- Two lists of constraints have the same ones on each variable of a pattern. -/
def SameOn (constraints constraints' : List Constraint) (pattern : TriplePattern) : Prop :=
  ∀ v ∈ pattern.vars, constraints.filter (·.var = v) = constraints'.filter (·.var = v)

lemma openPredicates_sameOn {constraints constraints' : List Constraint} {pattern : TriplePattern}
    (h : SameOn constraints constraints' pattern) (lookup : Variable → Option Term) :
    openPredicates constraints lookup pattern = openPredicates constraints' lookup pattern := by
  rw [openPredicates_eq, openPredicates_eq, mapM_congr fun slot hslot => ?_]
  obtain ⟨position, term | v⟩ := slot
  · rfl
  · have hv : v ∈ pattern.vars := TriplePattern.mem_vars.mpr ⟨position, hslot⟩
    simp only [slotConstraints, variablePredicates, h v hv]

/-- A computation that gives a result gave one at its first step. -/
lemma exists_of_bind_eq_ok {ε τ α β : Type} {x : ExceptT ε (StateM τ) α}
    {f : α → ExceptT ε (StateM τ) β} {s s'' : τ} {b : β} (h : (x >>= f) s = (.ok b, s'')) :
    ∃ a s', x s = (.ok a, s') ∧ f a s' = (.ok b, s'') := by
  rcases hx : x s with ⟨fault | a, s'⟩
  · rw [bind_error hx] at h
    cases h
  · rw [bind_ok hx] at h
    exact ⟨a, s', rfl, h⟩

namespace Evaluation

variable {evaluation : Evaluation σ} {constraints constraints' : List Constraint}

lemma resolve_sameOn {pattern : TriplePattern} (h : SameOn constraints constraints' pattern)
    (binding : Option Handle) : evaluation.resolve constraints pattern binding =
      evaluation.resolve constraints' pattern binding := by
  unfold resolve queryPredicates
  simp only [openPredicates_sameOn h]

lemma resolveAll_sameOn {patterns : List TriplePattern}
    (h : ∀ pattern ∈ patterns, SameOn constraints constraints' pattern) :
    evaluation.resolveAll constraints patterns = evaluation.resolveAll constraints' patterns := by
  induction patterns with
  | nil => rfl
  | cons pattern rest ih =>
    have hrest := ih fun other hother => h other (List.mem_cons_of_mem pattern hother)
    unfold resolveAll
    rw [resolve_sameOn (h pattern List.mem_cons_self), hrest]

/-- Where every pattern has candidates there is one leaf for each. -/
lemma patterns_of_resolveAll {patterns : List TriplePattern} {leaves : List Leaf}
    {state state' : JoinState σ}
    (h : evaluation.resolveAll constraints patterns state = (.ok (some leaves), state')) :
    leaves.map Leaf.pattern = patterns := by
  induction patterns generalizing leaves state with
  | nil =>
    cases h
    rfl
  | cons pattern rest ih =>
    unfold resolveAll at h
    obtain ⟨records, state₁, -, h⟩ := exists_of_bind_eq_ok h
    obtain ⟨-, state₂, -, h⟩ := exists_of_bind_eq_ok h
    split at h
    · cases h
    · obtain ⟨others, state₃, hothers, h⟩ := exists_of_bind_eq_ok h
      cases others with
      | none => cases h
      | some others =>
        cases h
        rw [List.map_cons, ih hothers]

lemma extendLeaf_sameOn {next : Leaf} (h : SameOn constraints constraints' next.pattern)
    (binding : Handle) : evaluation.extendLeaf constraints next binding =
      evaluation.extendLeaf constraints' next binding := by
  unfold extendLeaf
  simp only [resolve_sameOn h]

lemma joinLevel_sameOn (pattern : TriplePattern) {next : Leaf}
    (h : SameOn constraints constraints' next.pattern) (candidates : List Match)
    (composite : Composite) :
    evaluation.joinLevel constraints pattern next candidates composite =
      evaluation.joinLevel constraints' pattern next candidates composite := by
  induction candidates generalizing composite with
  | nil => rfl
  | cons candidate rest ih =>
    unfold joinLevel
    simp only [extendLeaf_sameOn h, ih]

lemma joinRest_sameOn {leaves : List Leaf}
    (h : ∀ leaf ∈ leaves, SameOn constraints constraints' leaf.pattern) (pivot : CandidateSet) :
    evaluation.joinRest constraints pivot leaves = evaluation.joinRest constraints' pivot leaves := by
  induction leaves generalizing pivot with
  | nil => rfl
  | cons next rest ih =>
    have hrest := ih fun leaf hleaf => h leaf (List.mem_cons_of_mem next hleaf)
    unfold joinRest
    simp only [joinLevel_sameOn pivot.pattern (h next List.mem_cons_self), hrest]

lemma join_sameOn {patterns : List TriplePattern}
    (h : ∀ pattern ∈ patterns, SameOn constraints constraints' pattern) :
    evaluation.join constraints patterns = evaluation.join constraints' patterns := by
  funext state
  unfold join
  rw [resolveAll_sameOn h]
  rcases hresolve : evaluation.resolveAll constraints' patterns state with ⟨fault | leaves?, resolved⟩
  · rw [bind_error hresolve, bind_error hresolve]
  · rw [bind_ok hresolve, bind_ok hresolve]
    cases leaves? with
    | none => rfl
    | some leaves =>
      have hpatterns := patterns_of_resolveAll hresolve
      have hleaves : ∀ leaf ∈ joinOrder leaves, SameOn constraints constraints' leaf.pattern := by
        intro leaf hleaf
        have hmem : leaf ∈ leaves := (List.mergeSort_perm leaves _).mem_iff.mp hleaf
        exact h leaf.pattern (hpatterns ▸ List.mem_map_of_mem hmem)
      cases hsorted : joinOrder leaves with
      | nil => simp only [hsorted]
      | cons first rest =>
        rw [hsorted] at hleaves
        have hrest : evaluation.joinRest constraints (.leaf first) rest =
            evaluation.joinRest constraints' (.leaf first) rest :=
          joinRest_sameOn (fun leaf hleaf => hleaves leaf (List.mem_cons_of_mem first hleaf)) _
        simp only [hsorted, hrest]

/-- The constraints on variables of some patterns. -/
def mentioned (patterns : List TriplePattern) (constraints : List Constraint) : List Constraint :=
  constraints.filter fun constraint => patterns.any fun pattern => constraint.var ∈ pattern.vars

/-- **Constraints on variables that no pattern mentions change nothing.** -/
theorem run_mentioned (evaluation : Evaluation σ) (constraints : List Constraint)
    (patterns : List TriplePattern) :
    evaluation.run (mentioned patterns constraints) patterns =
      evaluation.run constraints patterns := by
  have hsame : ∀ pattern ∈ patterns, SameOn (mentioned patterns constraints) constraints pattern := by
    intro pattern hpattern v hv
    rw [mentioned, List.filter_filter]
    refine List.filter_congr fun constraint _ => ?_
    by_cases hvar : constraint.var = v
    · have hmentioned : (patterns.any fun pattern => constraint.var ∈ pattern.vars) = true :=
        List.any_eq_true.mpr ⟨pattern, hpattern, by simpa [hvar] using hv⟩
      rw [hmentioned, Bool.and_true]
    · simp [hvar]
  funext languages source
  unfold run
  rw [join_sameOn hsame]

end Evaluation

end QuadStore
