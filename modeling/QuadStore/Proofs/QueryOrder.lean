import Mathlib
import QuadStore.Proofs.ConstrainedAnswers

/-!
# The order of a query

A query can be resolved if the terms of its patterns can be asked for and so can the constraints on its
variables, wherever they occur (`Resolvable`).  One that can be has its answers, those that satisfy the
constraints, whatever the order of its patterns and constraints (`rows_constrained_perm`).

One that cannot be resolved has no rows where failures are dropped.  The patterns are resolved one after
the other, and this comes to an end early at a pattern without candidates; but it cannot get past a
pattern whose predicates cannot be built, since the first resolution of a pattern is under no binding
and so looks at all its terms and constraints (`resolvable_of_built`).  Which of these patterns is met
first, and whether the end is a failure or a pattern without candidates, depends on the order; that no
row comes of it does not.
-/

namespace QuadStore

variable {σ : Type} {constraints constraints' : List Constraint} {patterns patterns' : List TriplePattern}

/-- The terms of all patterns, and the constraints on their variables, can be asked for. -/
def Resolvable (constraints : List Constraint) (patterns : List TriplePattern) : Prop :=
  ∀ pattern ∈ patterns, pattern.Buildable ∧ pattern.Constrainable constraints

lemma resolvable_congr (hconstraints : ∀ c, c ∈ constraints ↔ c ∈ constraints')
    (hpatterns : ∀ pattern, pattern ∈ patterns ↔ pattern ∈ patterns') :
    Resolvable constraints patterns ↔ Resolvable constraints' patterns' := by
  simp only [Resolvable, TriplePattern.Constrainable, hconstraints, hpatterns]

/-- A query that can be resolved has predicates for each of its patterns, under every binding. -/
lemma Resolvable.builds {evaluation : Evaluation σ} (h : Resolvable constraints patterns) :
    ∀ pattern ∈ patterns, evaluation.Builds constraints pattern := fun pattern hpattern =>
  Evaluation.builds_of_constrainable (h pattern hpattern).1 (h pattern hpattern).2

/-! ## What was built -/

/-- If the predicates of the constraints could be built under no binding, they can wherever a variable
occurs. -/
lemma constrainable_of_built {pattern : TriplePattern} {added : List Predicate}
    (h : built (openPredicates constraints (fun _ => none) pattern) = .ok added) :
    pattern.Constrainable constraints := by
  rw [openPredicates_eq, built_bind (transparent_mapM (transparent_slotConstraints _ _) _) fun _ =>
    transparent_pure _, built_mapM (transparent_slotConstraints _ _)] at h
  obtain ⟨bySlot, hslots, -⟩ := exists_ok_of_bind h
  intro constraint hconstraint position hslot
  obtain ⟨found, hfound⟩ := exists_ok_of_mapM hslots _ hslot
  have hvariable : built (variablePredicates constraints position constraint.var) = .ok found := hfound
  unfold variablePredicates at hvariable
  rw [built_bind (transparent_mapM (transparent_constraintPredicates position) _) fun _ =>
    transparent_pure _, built_mapM (transparent_constraintPredicates position)] at hvariable
  obtain ⟨each, heach, -⟩ := exists_ok_of_bind hvariable
  exact exists_ok_of_mapM heach constraint (List.mem_filter.mpr ⟨hconstraint, decide_eq_true rfl⟩)

/-- **A pattern whose predicates can be built under no binding** can be resolved. -/
theorem resolvable_of_built {graph : GraphName} {pattern : TriplePattern} {filters : List Predicate}
    (h : built (queryPredicates graph constraints pattern fun _ => none) = .ok filters) :
    pattern.Buildable ∧ pattern.Constrainable constraints := by
  unfold queryPredicates at h
  rw [built_bind (transparent_patternPredicates _ _ _) fun own =>
    transparent_bind (transparent_openPredicates _ _ _) fun _ => transparent_pure _] at h
  obtain ⟨own, hown, h⟩ := exists_ok_of_bind h
  rw [built_bind (transparent_openPredicates _ _ _) fun _ => transparent_pure _] at h
  obtain ⟨added, hadded, -⟩ := exists_ok_of_bind h
  exact ⟨buildable_of_built hown, constrainable_of_built hadded⟩

namespace Evaluation

variable {evaluation : Evaluation σ} {holdings : Holdings}

/-! ## A query that cannot be resolved -/

lemma resolve_fails {pattern : TriplePattern} {fault : FilterError}
    (h : built (queryPredicates evaluation.graph constraints pattern fun _ => none) = .error fault)
    {state : JoinState σ} (hlanguages : state.languages.Sound) :
    ∃ languages, languages.Sound ∧ evaluation.resolve constraints pattern none state =
      (.error (.failed ⟨pattern, .filter fault⟩), { state with languages }) := by
  have hlookup : state.arena.lookup none = fun _ => none :=
    funext (Arena.represents_none state.arena).lookup_eq
  obtain ⟨languages, hsound, hbuilding⟩ :=
    building_run (transparent_queryPredicates _ _ _ _) pattern hlanguages
  rw [h] at hbuilding
  refine ⟨languages, hsound, ?_⟩
  unfold resolve
  rw [get_bind, hlookup, bind_error hbuilding]

/-- **Patterns that cannot all be resolved** have no candidates to join: the resolution fails, or finds
a pattern without candidates first. -/
theorem resolveAll_unresolvable (hready : evaluation.Ready holdings)
    (h : ¬ Resolvable constraints patterns) {state : JoinState σ}
    (hlanguages : state.languages.Sound) :
    ∃ outcome state', evaluation.resolveAll constraints patterns state = (outcome, state') ∧
      state'.languages.Sound ∧ (outcome = .ok none ∨ ∃ failure, outcome = .error (.failed failure)) := by
  induction patterns generalizing state with
  | nil =>
    have hnone : Resolvable constraints [] := fun pattern hpattern => absurd hpattern List.not_mem_nil
    exact absurd hnone h
  | cons pattern rest ih =>
    unfold resolveAll
    cases hbuilt : built (queryPredicates evaluation.graph constraints pattern fun _ => none) with
    | error fault =>
      obtain ⟨languages, hsound, hresolve⟩ := resolve_fails hbuilt hlanguages
      rw [bind_error hresolve]
      exact ⟨_, _, rfl, hsound, .inr ⟨_, rfl⟩⟩
    | ok filters =>
      -- This pattern is not the one that stands in the way.
      obtain ⟨hbuildable, hconstrainable⟩ := resolvable_of_built hbuilt
      have hrest : ¬ Resolvable constraints rest := by
        intro hrest
        apply h
        intro other hother
        rcases List.mem_cons.mp hother with rfl | hother
        · exact ⟨hbuildable, hconstrainable⟩
        · exact hrest other hother
      obtain ⟨source, languages, hsound, hresolve⟩ := resolve_run hready
        (builds_of_constrainable hbuildable hconstrainable) state.arena.represents_none hlanguages
      let resolved : JoinState σ := { state with source, languages }
      let counted : JoinState σ :=
        { resolved with stats.patternsResolved := resolved.stats.patternsResolved + 1 }
      have hcount : (countPattern : JoinM σ Unit) resolved = (.ok (), counted) := rfl
      rw [bind_ok hresolve, bind_ok hcount]
      by_cases hempty : (evaluation.candidates holdings constraints pattern []).isEmpty
      · rw [if_pos hempty]
        exact ⟨_, counted, rfl, hsound, .inl rfl⟩
      · rw [if_neg hempty]
        have hcounted : counted.languages.Sound := hsound
        obtain ⟨outcome, state', hothers, hsound', houtcome⟩ := ih hrest hcounted
        rcases houtcome with rfl | ⟨failure, rfl⟩
        · rw [bind_ok hothers]
          exact ⟨_, state', rfl, hsound', .inl rfl⟩
        · rw [bind_error hothers]
          exact ⟨_, state', rfl, hsound', .inr ⟨failure, rfl⟩⟩

/-- **A query that cannot be resolved** has no rows, where failures are dropped. -/
theorem yields_nil_of_unresolvable (hready : evaluation.Ready holdings)
    (hpolicy : evaluation.policy = .failOpen) (h : ¬ Resolvable constraints patterns) :
    evaluation.Yields constraints patterns [] := by
  have hpatterns : ¬ patterns.isEmpty := by
    intro hempty
    apply h
    rw [List.isEmpty_iff.mp hempty]
    intro pattern hpattern
    cases hpattern
  intro languages hlanguages state
  let start : JoinState σ := ⟨state, languages, .empty, .zero⟩
  have hstart : start.languages.Sound := hlanguages
  obtain ⟨outcome, state', hresolve, hsound, houtcome⟩ := resolveAll_unresolvable hready h hstart
  have hjoin : evaluation.join constraints patterns start = (outcome.map fun _ => none, state') := by
    unfold join
    rcases houtcome with rfl | ⟨failure, rfl⟩
    · rw [bind_ok hresolve]
      rfl
    · rw [bind_error hresolve]
      rfl
  refine ⟨.none evaluation.policy state'.stats, state'.languages, state'.source, ?_, hsound,
    fun count _ state => Solutions.take_done rfl count state⟩
  unfold run
  rw [if_neg hpatterns, hjoin]
  rcases houtcome with rfl | ⟨failure, rfl⟩
  · rfl
  · simp only [Except.map, hpolicy]

/-! ## The order of a query -/

/-- **The order of patterns and constraints does not matter** where failures are dropped.  Over a source
that holds certain quads, a query yields the same rows as it does with its patterns and its
constraints in another order, each as often: the answers that satisfy the constraints if the query can
be resolved, and else none. -/
theorem run_ignores_order (hready : evaluation.Ready holdings)
    (hpolicy : evaluation.policy = .failOpen) (hpatterns : patterns.Perm patterns')
    (hconstraints : constraints.Perm constraints') :
    ∃ rows rows' : List Binding,
      evaluation.Yields constraints patterns rows ∧ evaluation.Yields constraints' patterns' rows' ∧
      (rows.map Binding.get?).Perm (rows'.map Binding.get?) ∧
      (Resolvable constraints patterns → (rows.map Binding.get?).Perm
        ((holdings.answers evaluation.graph patterns).filter (satisfiesAll constraints patterns))) ∧
      (¬ Resolvable constraints patterns → rows = []) := by
  have hmemConstraints : ∀ c, c ∈ constraints ↔ c ∈ constraints' := fun c => hconstraints.mem_iff
  have hmemPatterns : ∀ pattern, pattern ∈ patterns ↔ pattern ∈ patterns' := fun pattern =>
    hpatterns.mem_iff
  have hboth := resolvable_congr hmemConstraints hmemPatterns
  by_cases h : Resolvable constraints patterns
  · have h' := hboth.mp h
    obtain ⟨hyields, hrows⟩ := yields_constrained hready (fun pattern hpattern =>
      (h pattern hpattern).1) fun pattern hpattern => (h pattern hpattern).2
    obtain ⟨hyields', hrows'⟩ := yields_constrained hready (fun pattern hpattern =>
      (h' pattern hpattern).1) fun pattern hpattern => (h' pattern hpattern).2
    have hanswers : ((holdings.answers evaluation.graph patterns).filter
        (satisfiesAll constraints patterns)).Perm
          ((holdings.answers evaluation.graph patterns').filter
            (satisfiesAll constraints' patterns')) := by
      rw [satisfiesAll_congr hmemConstraints hmemPatterns]
      exact (Holdings.answers_perm evaluation.graph hpatterns).filter _
    exact ⟨_, _, hyields, hyields', hrows.trans (hanswers.trans hrows'.symm), fun _ => hrows,
      absurd h⟩
  · have h' : ¬ Resolvable constraints' patterns' := fun h' => h (hboth.mpr h')
    exact ⟨[], [], yields_nil_of_unresolvable hready hpolicy h,
      yields_nil_of_unresolvable hready hpolicy h', .refl _, fun hresolvable => absurd hresolvable h,
      fun _ => rfl⟩

end Evaluation

/-- Two steps along the chain, from its start to its end, are found whichever step and whichever
constraint comes first. -/
theorem run_ignores_order_chain :
    let evaluation : Evaluation Unit := ⟨chainHoldings.source, .default, 1, .descending, .failOpen, 3⟩
    let first : TriplePattern := ⟨.var ⟨"a"⟩, .term (.iri ⟨"next"⟩), .var ⟨"b"⟩⟩
    let second : TriplePattern := ⟨.var ⟨"b"⟩, .term (.iri ⟨"next"⟩), .var ⟨"c"⟩⟩
    let start : Constraint := ⟨⟨"a"⟩, .equal, .iri ⟨"0"⟩⟩
    let finish : Constraint := ⟨⟨"c"⟩, .equal, .iri ⟨"2"⟩⟩
    ∃ rows rows' : List Binding,
      evaluation.Yields [start, finish] [first, second] rows ∧
      evaluation.Yields [finish, start] [second, first] rows' ∧
      rows.map (·.get? ⟨"b"⟩) = [some (.iri ⟨"1"⟩)] ∧ rows'.map (·.get? ⟨"b"⟩) = [some (.iri ⟨"1"⟩)] := by
  intro evaluation first second start finish
  have hready : evaluation.Ready chainHoldings := ⟨chainHoldings.serves_source, by decide, by decide⟩
  have hresolvable : Resolvable [start, finish] [first, second] := by
    simp [Resolvable, TriplePattern.Buildable, TriplePattern.Constrainable, Constraint.BuildableAt,
      first, second, start, finish, TriplePattern.slots, positionPredicates, constraintPredicates,
      objectPredicates, built_pure]
  have hnext : ∀ id,
      (termPredicate .predicate (.iri ⟨"next"⟩)).holdsOf (chainHoldings.quad id).record :=
    fun id => Quad.holdsOf_termPredicate.mpr rfl
  have hasks : ∀ pattern ∈ [first, second], ∀ id, chainHoldings.asks pattern id = true := by
    simp [first, second, Holdings.asks, TriplePattern.slots, slotMeets, positionPredicates,
      built_pure, Record.meets, hnext]
  have hanswers : ((chainHoldings.answers .default [first, second]).filter
      (satisfiesAll [start, finish] [first, second])).map (· ⟨"b"⟩) = [some (.iri ⟨"1"⟩)] := by
    rw [Holdings.answers_of_asks hasks]
    cbv
  obtain ⟨rows, rows', hyields, hyields', hsame, hrows, -⟩ :=
    Evaluation.run_ignores_order hready rfl (List.Perm.swap second first [])
      (List.Perm.swap finish start [])
  have hvalues := (hrows hresolvable).map (· ⟨"b"⟩)
  rw [hanswers, List.map_map] at hvalues
  have hvalues' := (hsame.map (· ⟨"b"⟩)).symm
  rw [List.map_map, List.map_map] at hvalues'
  exact ⟨rows, rows', hyields, hyields', List.perm_singleton.mp hvalues,
    List.perm_singleton.mp (hvalues'.trans hvalues)⟩

end QuadStore
