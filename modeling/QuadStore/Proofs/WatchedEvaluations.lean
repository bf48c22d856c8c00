import Mathlib
import QuadStore.Proofs.NestedLoops
import QuadStore.Proofs.ScanSafety

/-!
# Evaluations that are watched

An evaluation that is watched (`Evaluation.tracing`) writes down its questions to the source and its
reads.  It comes to what it comes to otherwise (`Evaluation.run_tracing`): whatever a step does with a
source, it does with a part of it that answers the same (`JoinM.ActsLike`), and this is handed on from
step to step.

A scan of record numbers only asks, and always for its own predicates; so resolving a pattern asks for the
predicates of this pattern, at least once (`Evaluation.AsksFor`).  Patterns are resolved in turn, up to the
first without candidates.  What is written down falls into blocks, one for each of these patterns and in
their order, and there is nothing else in it (`Evaluation.resolveAll_asks`): the patterns behind are not
asked for, and no statement is read.
-/

namespace QuadStore

variable {σ : Type}

/-! ## Scans that only ask -/

/-- A question for the records that satisfy these predicates. -/
def ScanEvent.AsksWith (filters : List Predicate) : ScanEvent → Prop
  | asked request _ => request.filters = filters
  | _ => False

namespace Scan

variable (source : RecordSource σ) {scan : Scan}

/-- What a step of a scan without statements adds to what was seen before: questions for its predicates,
and at least one if a request is due. -/
structure OnlyAsks (scan scan' : Scan) (before after : List ScanEvent) : Prop where
  filters_eq : scan'.filters = scan.filters
  materialize_eq : scan'.materialize = false
  asks : ∃ asked, after = before ++ asked ∧ (∀ event ∈ asked, event.AsksWith scan.filters) ∧
    (scan.stage = .request → asked ≠ [])

/-- A record is delivered without a read. -/
lemma deliver_of_not_materialize (hmaterialize : scan.materialize = false) (record : RecordId)
    (stage : Stage) (state : σ) : scan.deliver source record stage state =
      (some (.ok ⟨record, none⟩), { scan with stage }, state) := by
  unfold deliver
  rw [if_neg (by simp [hmaterialize])]

lemma request_onlyAsks (hmaterialize : scan.materialize = false) (state : σ) (events : List ScanEvent) :
    OnlyAsks scan (scan.request source.tracing (state, events)).2.1 events
      (scan.request source.tracing (state, events)).2.2.2 := by
  have hasks : ∃ asked, events ++ [.asked scan.pageRequest (source.resolve scan.pageRequest state).1] =
      events ++ asked ∧ (∀ event ∈ asked, event.AsksWith scan.filters) ∧
        (scan.stage = .request → asked ≠ []) := by
    refine ⟨_, rfl, fun event hevent => ?_, fun _ => List.cons_ne_nil _ _⟩
    rw [List.mem_singleton.mp hevent]
    rfl
  unfold request
  rw [resolve_tracing]
  rcases hanswer : source.resolve scan.pageRequest state with ⟨fault | page, state'⟩
  · rw [hanswer] at hasks
    exact ⟨rfl, hmaterialize, hasks⟩
  · rw [hanswer] at hasks
    cases hrecords : page.records with
    | nil =>
      simp only [hrecords]
      exact ⟨rfl, hmaterialize, hasks⟩
    | cons record left =>
      simp only [hrecords]
      have hreceived : (scan.received page).materialize = false := hmaterialize
      rw [deliver_of_not_materialize source.tracing hreceived]
      exact ⟨rfl, hmaterialize, hasks⟩

/-- **A step of a scan without statements** asks at most, and asks if a request is due. -/
lemma next_onlyAsks (hmaterialize : scan.materialize = false) (state : σ) (events : List ScanEvent) :
    OnlyAsks scan (scan.next source.tracing (state, events)).2.1 events
      (scan.next source.tracing (state, events)).2.2.2 := by
  have hnothing : scan.stage ≠ .request → ∃ asked, events = events ++ asked ∧
      (∀ event ∈ asked, event.AsksWith scan.filters) ∧ (scan.stage = .request → asked ≠ []) :=
    fun hstage => ⟨[], by simp, by simp, fun h => absurd h hstage⟩
  unfold next
  cases hstage : scan.stage with
  | done => exact ⟨rfl, hmaterialize, hnothing (by simp [hstage])⟩
  | request => exact request_onlyAsks source hmaterialize state events
  | deliver left fetched sent next =>
    cases left with
    | cons record left =>
      dsimp only
      rw [deliver_of_not_materialize source.tracing hmaterialize]
      exact ⟨rfl, hmaterialize, hnothing (by simp [hstage])⟩
    | nil =>
      dsimp only
      split
      · have hfurther : ({ scan with cursor := next } : Scan).materialize = false := hmaterialize
        obtain ⟨hfilters, hmaterialize', asked, hasked, hwith, -⟩ :=
          request_onlyAsks source hfurther state events
        exact ⟨hfilters, hmaterialize', asked, hasked, hwith, fun h => by rw [hstage] at h; cases h⟩
      · exact ⟨rfl, hmaterialize, hnothing (by simp [hstage])⟩

/-- **Collecting record numbers** only asks, and asks for the first page at least. -/
theorem recordIds_asks (hmaterialize : scan.materialize = false) (fuel : Nat) (state : σ)
    (events : List ScanEvent) : ∃ asked,
      (scan.recordIds source.tracing fuel (state, events)).2.2 = events ++ asked ∧
      (∀ event ∈ asked, event.AsksWith scan.filters) ∧
      (scan.stage = .request → 0 < fuel → asked ≠ []) := by
  induction fuel generalizing scan state events with
  | zero => exact ⟨[], by simp [recordIds], by simp, fun _ h => absurd h (Nat.lt_irrefl 0)⟩
  | succ fuel ih =>
    have hnext := next_onlyAsks source hmaterialize state events
    unfold recordIds
    rcases hstep : scan.next source.tracing (state, events) with
      ⟨_ | fault | record, scan', state', events'⟩ <;> rw [hstep] at hnext <;>
      obtain ⟨hfilters, hmaterialize', asked, rfl, hwith, hsome⟩ := hnext
    · exact ⟨asked, rfl, hwith, fun h _ => hsome h⟩
    · exact ⟨asked, rfl, hwith, fun h _ => hsome h⟩
    · obtain ⟨more, hmore, hmoreWith, -⟩ := ih hmaterialize' state' (events ++ asked)
      refine ⟨asked ++ more, ?_, fun event hevent => ?_, fun h _ hnil => ?_⟩
      · rw [← List.append_assoc]
        exact hmore
      · rcases List.mem_append.mp hevent with hevent | hevent
        · exact hwith event hevent
        · exact hfilters ▸ hmoreWith event hevent
      · exact hsome h (List.append_eq_nil_iff.mp hnil).1

end Scan

/-! ## What an evaluation sees of its source -/

section

variable {σ' α β : Type}

/-- The state of an evaluation, with a part of the state of its source. -/
def JoinState.mapSource (part : σ' → σ) (state : JoinState σ') : JoinState σ where
  source := part state.source
  languages := state.languages
  arena := state.arena
  stats := state.stats

namespace JoinM

/-- A step does with a fuller source what another does with a part of it. -/
def ActsLike (part : σ' → σ) (fuller : JoinM σ' α) (step : JoinM σ α) : Prop :=
  ∀ state, step (state.mapSource part) = ((fuller state).1, (fuller state).2.mapSource part)

variable {part : σ' → σ}

lemma actsLike_pure (value : α) : ActsLike part (pure value) (pure value) := fun _ => rfl

lemma ActsLike.bind {fuller : JoinM σ' α} {step : JoinM σ α} {fuller' : α → JoinM σ' β}
    {step' : α → JoinM σ β} (h : ActsLike part fuller step)
    (h' : ∀ a, ActsLike part (fuller' a) (step' a)) :
    ActsLike part (fuller >>= fuller') (step >>= step') := by
  intro state
  have hstep := h state
  rcases hrun : fuller state with ⟨halt | a, after⟩ <;> rw [hrun] at hstep
  · rw [bind_error hstep, bind_error hrun]
  · rw [bind_ok hstep, bind_ok hrun, h' a]

lemma ActsLike.get_bind {fuller : JoinState σ' → JoinM σ' α} {step : JoinState σ → JoinM σ α}
    (h : ∀ state, ActsLike part (fuller state) (step (state.mapSource part))) :
    ActsLike part (get >>= fuller) (get >>= step) := fun state => h state state

lemma actsLike_building (pattern : TriplePattern) (computation : Building α) :
    ActsLike part (building pattern computation) (building pattern computation) := by
  intro state
  unfold building
  have hlanguages : (state.mapSource part).languages = state.languages := rfl
  rw [hlanguages]
  rcases computation state.languages with ⟨fault | value, languages⟩ <;> rfl

lemma actsLike_asking (pattern : TriplePattern) {fuller : σ' → Except QueryError α × σ'}
    {question : σ → Except QueryError α × σ}
    (h : ∀ state, question (part state) = ((fuller state).1, part (fuller state).2)) :
    ActsLike part (asking pattern fuller) (asking pattern question) := by
  intro state
  unfold asking
  have hsource : (state.mapSource part).source = part state.source := rfl
  rw [hsource, h]
  rcases fuller state.source with ⟨fault | value, source⟩ <;> rfl

lemma actsLike_scanning (pattern : TriplePattern) {fuller : σ' → Option (Except QueryError α) × σ'}
    {scan : σ → Option (Except QueryError α) × σ}
    (h : ∀ state, scan (part state) = ((fuller state).1, part (fuller state).2)) :
    ActsLike part (scanning pattern fuller) (scanning pattern scan) := by
  intro state
  unfold scanning
  have hsource : (state.mapSource part).source = part state.source := rfl
  rw [hsource, h]
  rcases fuller state.source with ⟨_ | fault | value, source⟩ <;> rfl

end JoinM

lemma Scan.recordIds_answersLike {fuller : RecordSource σ'} {source : RecordSource σ}
    {part : σ' → σ} (h : fuller.AnswersLike source part) (fuel : Nat) (scan : Scan) (state : σ') :
    scan.recordIds source fuel (part state) =
      ((scan.recordIds fuller fuel state).1, part (scan.recordIds fuller fuel state).2) := by
  induction fuel generalizing scan state with
  | zero => rfl
  | succ fuel ih =>
    unfold recordIds
    rw [next_answersLike h]
    rcases scan.next fuller state with ⟨_ | fault | record, scan', state'⟩
    · rfl
    · rfl
    · simp only [ih]

end

/-! ## Evaluations that are watched -/

namespace Evaluation

section

variable (evaluation : Evaluation σ) (constraints : List Constraint)

/-- An evaluation whose source writes down what it is asked and what it answers. -/
def tracing : Evaluation (σ × List ScanEvent) where
  source := evaluation.source.tracing
  graph := evaluation.graph
  pageLength := evaluation.pageLength
  order := evaluation.order
  policy := evaluation.policy
  fuel := evaluation.fuel

open JoinM (ActsLike actsLike_pure)

lemma actsLike_resolve (pattern : TriplePattern) (binding : Option Handle) :
    ActsLike Prod.fst (evaluation.tracing.resolve constraints pattern binding)
      (evaluation.resolve constraints pattern binding) :=
  .get_bind fun _ => (JoinM.actsLike_building pattern _).bind fun _ =>
    JoinM.actsLike_scanning pattern
      (Scan.recordIds_answersLike (Scan.answersLike_tracing evaluation.source) _ _)

lemma actsLike_countPattern :
    ActsLike Prod.fst (countPattern : JoinM (σ × List ScanEvent) Unit) (countPattern : JoinM σ Unit) :=
  fun _ => rfl

lemma actsLike_countProbe :
    ActsLike Prod.fst (countProbe : JoinM (σ × List ScanEvent) Unit) (countProbe : JoinM σ Unit) :=
  fun _ => rfl

lemma actsLike_resolveAll (patterns : List TriplePattern) :
    ActsLike Prod.fst (evaluation.tracing.resolveAll constraints patterns)
      (evaluation.resolveAll constraints patterns) := by
  induction patterns with
  | nil => exact actsLike_pure _
  | cons pattern rest ih =>
    unfold resolveAll
    refine (actsLike_resolve evaluation constraints pattern none).bind fun records =>
      actsLike_countPattern.bind fun _ => ?_
    split
    · exact actsLike_pure _
    · exact ih.bind fun _ => actsLike_pure _

lemma actsLike_bindMatch (pattern : TriplePattern) (candidate : Match) :
    ActsLike Prod.fst (evaluation.tracing.bindMatch pattern candidate)
      (evaluation.bindMatch pattern candidate) := by
  refine (JoinM.actsLike_asking pattern ?_).bind fun triple => .get_bind fun state => ?_
  · exact (Scan.answersLike_tracing evaluation.source).readTriple candidate.record
  · have harena : (state.mapSource Prod.fst).arena = state.arena := rfl
    rw [harena]
    split
    · exact actsLike_pure _
    · rename_i handle arena _
      have hmodify : ActsLike Prod.fst
          (modify fun state : JoinState (σ × List ScanEvent) => { state with arena })
          (modify fun state : JoinState σ => { state with arena }) := fun _ => rfl
      exact hmodify.bind fun _ => actsLike_pure _

lemma actsLike_extendLeaf (next : Leaf) (binding : Handle) :
    ActsLike Prod.fst (evaluation.tracing.extendLeaf constraints next binding)
      (evaluation.extendLeaf constraints next binding) := by
  refine .get_bind fun state => ?_
  have harena : (state.mapSource Prod.fst).arena = state.arena := rfl
  simp only [harena]
  split
  · exact actsLike_countProbe.bind fun _ =>
      (actsLike_resolve evaluation constraints next.pattern _).bind fun _ => actsLike_pure _
  · exact actsLike_pure _

lemma actsLike_joinLevel (pattern : TriplePattern) (next : Leaf) (candidates : List Match)
    (composite : Composite) :
    ActsLike Prod.fst (evaluation.tracing.joinLevel constraints pattern next candidates composite)
      (evaluation.joinLevel constraints pattern next candidates composite) := by
  induction candidates generalizing composite with
  | nil => exact actsLike_pure _
  | cons candidate rest ih =>
    unfold joinLevel
    refine (actsLike_bindMatch evaluation pattern candidate).bind fun bound => ?_
    cases bound with
    | none => exact ih composite
    | some binding =>
      exact (actsLike_extendLeaf evaluation constraints next binding).bind fun leaf => ih _

lemma actsLike_joinRest (pivot : CandidateSet) (leaves : List Leaf) :
    ActsLike Prod.fst (evaluation.tracing.joinRest constraints pivot leaves)
      (evaluation.joinRest constraints pivot leaves) := by
  induction leaves generalizing pivot with
  | nil => exact actsLike_pure _
  | cons next rest ih =>
    unfold joinRest
    refine (actsLike_joinLevel evaluation constraints pivot.pattern next _ _).bind fun composite => ?_
    split
    · exact actsLike_pure _
    · exact ih _

lemma actsLike_join (patterns : List TriplePattern) :
    ActsLike Prod.fst (evaluation.tracing.join constraints patterns)
      (evaluation.join constraints patterns) := by
  unfold join
  refine (actsLike_resolveAll evaluation constraints patterns).bind fun leaves? => ?_
  cases leaves? with
  | none => exact actsLike_pure _
  | some leaves =>
    dsimp only
    split
    · exact actsLike_pure _
    · exact actsLike_joinRest evaluation constraints _ _

/-- **An evaluation that is watched** comes to what it comes to. -/
theorem run_tracing (patterns : List TriplePattern) (languages : LanguageCache) (state : σ)
    (events : List ScanEvent) : evaluation.run constraints patterns languages state =
      ((evaluation.tracing.run constraints patterns languages (state, events)).1,
        (evaluation.tracing.run constraints patterns languages (state, events)).2.1,
        (evaluation.tracing.run constraints patterns languages (state, events)).2.2.1) := by
  unfold run
  split
  · rfl
  · have hjoin := actsLike_join evaluation constraints patterns
      ⟨(state, events), languages, .empty, .zero⟩
    rw [JoinState.mapSource] at hjoin
    rw [hjoin]
    rfl

/-! ## Resolving patterns -/

/-- These events are what it takes to resolve a pattern on its own: questions, and all for the
predicates of the pattern. -/
def AsksFor (pattern : TriplePattern) (events : List ScanEvent) :
    Prop :=
  events ≠ [] ∧ ∃ filters, built (queryPredicates evaluation.graph constraints pattern fun _ => none) =
    .ok filters ∧ ∀ event ∈ events, event.AsksWith filters

end

variable {evaluation : Evaluation σ} {holdings : Holdings} {constraints : List Constraint}

/-- A source that is watched holds what it holds. -/
lemma Ready.tracing (h : evaluation.Ready holdings) : evaluation.tracing.Ready holdings where
  serves :=
    ⟨fun request state => h.serves.resolve request state.1, fun id hid state => h.serves.read id hid state.1⟩
  pageLength_pos := h.pageLength_pos
  fuel_lt := h.fuel_lt

/-- The source is left by a resolution as it is by the scan. -/
lemma source_resolve {pattern : TriplePattern} {state : JoinState σ} {filters : List Predicate}
    (hfilters : built (queryPredicates evaluation.graph constraints pattern fun _ => none) = .ok filters)
    (hlanguages : state.languages.Sound) :
    (evaluation.resolve constraints pattern none state).2.source =
      ((Scan.start filters evaluation.pageLength evaluation.order false).recordIds evaluation.source
        evaluation.fuel state.source).2 := by
  have hlookup : state.arena.lookup none = fun _ => none := funext state.arena.represents_none.lookup_eq
  obtain ⟨languages, -, hbuilding⟩ :=
    building_run (transparent_queryPredicates _ _ _ _) pattern hlanguages
  rw [hfilters] at hbuilding
  unfold resolve
  rw [get_bind, hlookup, bind_ok hbuilding]
  unfold JoinM.scanning
  dsimp only
  split <;> rename_i hscan <;> rw [hscan]

/-- **Resolving a pattern** on its own asks for it. -/
lemma resolve_asks (hfuel : 0 < evaluation.fuel) {pattern : TriplePattern}
    (hbuilds : evaluation.Builds constraints pattern) {state : JoinState (σ × List ScanEvent)}
    (hlanguages : state.languages.Sound) :
    ∃ block, (evaluation.tracing.resolve constraints pattern none state).2.source.2 =
      state.source.2 ++ block ∧ evaluation.AsksFor constraints pattern block := by
  obtain ⟨filters, hfilters⟩ := hbuilds fun _ => none
  let scan := Scan.start filters evaluation.pageLength evaluation.order false
  have hscan : scan.materialize = false := rfl
  obtain ⟨asked, hasked, hwith, hsome⟩ := Scan.recordIds_asks evaluation.source hscan evaluation.fuel
    state.source.1 state.source.2
  have hsource : (evaluation.tracing.resolve constraints pattern none state).2.source =
    (scan.recordIds evaluation.source.tracing evaluation.fuel state.source).2 :=
      source_resolve hfilters hlanguages
  rw [hsource]
  exact ⟨asked, hasked, hsome rfl hfuel, filters, hfilters, hwith⟩

/-- **Resolving all patterns** asks for those up to the first without candidates, in turn, and for
nothing else. -/
theorem resolveAll_asks (hready : evaluation.Ready holdings) {patterns : List TriplePattern}
    (hbuilds : ∀ pattern ∈ patterns, evaluation.Builds constraints pattern)
    {state : JoinState (σ × List ScanEvent)} (hlanguages : state.languages.Sound) :
    ∃ blocks, (evaluation.tracing.resolveAll constraints patterns state).2.source.2 =
        state.source.2 ++ blocks.flatten ∧
      List.Forall₂ (evaluation.AsksFor constraints)
        (patterns.take (resolvedCount evaluation holdings constraints patterns)) blocks := by
  induction patterns generalizing state with
  | nil => exact ⟨[], (List.append_nil _).symm, .nil⟩
  | cons pattern rest ih =>
    have hbuild := hbuilds pattern List.mem_cons_self
    obtain ⟨source, languages, hsound, hresolve⟩ :=
      resolve_run hready.tracing hbuild state.arena.represents_none hlanguages
    obtain ⟨block, hblock, hasks⟩ :=
      resolve_asks (Nat.zero_lt_of_lt hready.fuel_lt) hbuild hlanguages
    rw [hresolve] at hblock
    let resolved : JoinState (σ × List ScanEvent) := { state with source, languages }
    let counted : JoinState (σ × List ScanEvent) :=
      { resolved with stats.patternsResolved := resolved.stats.patternsResolved + 1 }
    have hcount : (countPattern : JoinM _ Unit) resolved = (.ok (), counted) := rfl
    unfold resolveAll
    rw [bind_ok hresolve, bind_ok hcount, resolvedCount]
    by_cases hempty : (evaluation.candidates holdings constraints pattern []).isEmpty
    · have hnone : (evaluation.tracing.candidates holdings constraints pattern []).isEmpty := hempty
      rw [if_pos hnone, if_pos hempty]
      refine ⟨[block], ?_, .cons hasks .nil⟩
      rw [List.flatten_cons, List.flatten_nil, List.append_nil, ← hblock]
      rfl
    · have hsome : ¬ (evaluation.tracing.candidates holdings constraints pattern []).isEmpty := hempty
      have hrestBuilds : ∀ other ∈ rest, evaluation.Builds constraints other := fun other hother =>
        hbuilds other (List.mem_cons_of_mem pattern hother)
      have hcounted : counted.languages.Sound := hsound
      obtain ⟨blocks, hblocks, hall⟩ := ih hrestBuilds hcounted
      obtain ⟨state', hrest, -⟩ := resolveAll_run hready.tracing hrestBuilds hcounted
      rw [hrest] at hblocks
      rw [if_neg hsome, if_neg hempty, List.take_succ_cons, bind_ok hrest]
      refine ⟨block :: blocks, ?_, .cons hasks hall⟩
      rw [List.flatten_cons, ← List.append_assoc, ← hblock]
      exact hblocks

/-- Where patterns are only asked for, nothing is read. -/
lemma readIn_of_asksFor {patterns : List TriplePattern} {blocks : List (List ScanEvent)}
    (h : List.Forall₂ (evaluation.AsksFor constraints) patterns blocks) :
    readIn blocks.flatten = [] := by
  induction h with
  | nil => rfl
  | cons hblock _ ih =>
    obtain ⟨-, filters, -, hasks⟩ := hblock
    rw [List.flatten_cons, readIn_append, ih, List.append_nil, readIn, List.filterMap_eq_nil_iff]
    intro event hevent
    cases event with
    | asked request answer => rfl
    | read id answer => exact (hasks _ hevent).elim
    | gave item => exact (hasks _ hevent).elim

end Evaluation

end QuadStore
