import Mathlib
import QuadStore.Proofs.NestedLoops
import QuadStore.Source

/-!
# What the policies deliver

A source may fail at any question and at any read.  Under either policy the evaluation of a query goes
through the same steps until then; only what it makes of the failure differs.  So wherever failures are
reported, the rows before the report are what is delivered where failures are dropped, and nothing
else is (`Evaluation.failOpen_delivers_before_failure`).

In particular nothing is delivered if the evaluation itself fails, before there are solutions.  But the
last candidates are read one by one as rows are asked for, and a failure there comes too late for the
rows that were given out already (`Evaluation.failOpen_delivers_beside_failure`).
-/

namespace QuadStore

variable {σ : Type}

/-! ## Reading solutions -/

namespace Solutions

variable (source : RecordSource σ)

/-- The same solutions under a policy. -/
def withPolicy (solutions : Solutions) (policy : FailurePolicy) : Solutions :=
  { solutions with policy }

/-- What a call gives for a failure, or for the end where nothing failed. -/
def ending (policy : FailurePolicy) (failure? : Option PatternFailure) :
    Option (Except PatternFailure Binding) :=
  match policy with
  | .failOpen => .none
  | .failClosed => failure?.map .error

/-- **What a call gives, whatever the policy**: a row, which is counted, or else the end or what is made
of a failure, and then nothing is left.  Before the call so many rows were counted and so many calls were
left at most. -/
inductive Step (answer : FailurePolicy → Option (Except PatternFailure Binding) × Solutions × σ)
    (emitted bound : Nat) : Prop
  | row (row : Binding) (after : Solutions) (state : σ)
    (hanswer : ∀ policy, answer policy = (some (.ok row), after.withPolicy policy, state))
    (hcount : after.stats.bindingsEmitted = emitted + 1) (hbound : after.bound < bound)
  | finished (failure? : Option PatternFailure) (after : Solutions) (state : σ)
    (hanswer : ∀ policy, answer policy = (ending policy failure?, after.withPolicy policy, state))
    (hcount : after.stats.bindingsEmitted = emitted) (hdone : after.stage = .done)

lemma nextRow_step (pattern : TriplePattern) (candidates : List Match) (solutions : Solutions)
    (state : σ) :
    Step (fun policy => nextRow source pattern candidates (solutions.withPolicy policy) state)
      solutions.stats.bindingsEmitted (candidates.length + 1) := by
  induction candidates generalizing state with
  | nil =>
    exact .finished Option.none { solutions with stage := .done } state
      (fun policy => by cases policy <;> rfl) rfl rfl
  | cons candidate rest ih =>
    rcases hread : source.readTriple candidate.record state with ⟨fault | triple, state'⟩
    · refine .finished (some ⟨pattern, fault⟩) { solutions with stage := .done } state' ?_ rfl rfl
      intro policy
      unfold nextRow
      rw [hread]
      cases policy <;> rfl
    · cases hbind : solutions.arena.bind candidate.parent pattern triple with
      | none =>
        -- The candidate gives no row, so the call goes on to the next one.
        have hskip : ∀ policy,
            nextRow source pattern (candidate :: rest) (solutions.withPolicy policy) state =
              nextRow source pattern rest (solutions.withPolicy policy) state' := by
          intro policy
          rw [nextRow, hread]
          simp only [withPolicy, hbind]
        simp only [hskip]
        cases ih state' with
        | row row after state'' hanswer hcount hbound =>
          exact .row row after state'' hanswer hcount (Nat.lt_succ_of_lt hbound)
        | finished failure? after state'' hanswer hcount hdone =>
          exact .finished failure? after state'' hanswer hcount hdone
      | some bound =>
        let after := { solutions with stage := .rows pattern rest, arena := bound.2 }.emit
        refine .row (bound.2.materialize (some bound.1)) after state' ?_ rfl (Nat.lt_succ_self _)
        intro policy
        rw [nextRow, hread]
        simp only [withPolicy, hbind]
        rfl

/-- **One call** under both policies. -/
theorem next_step (solutions : Solutions) (state : σ) :
    Step (fun policy => (solutions.withPolicy policy).next source state)
      solutions.stats.bindingsEmitted solutions.bound := by
  obtain ⟨stage, arena, policy, stats⟩ := solutions
  cases stage with
  | unit => exact .row ⟨[]⟩ (emit ⟨.done, arena, policy, stats⟩) state (fun _ => rfl) rfl Nat.one_lt_two
  | rows pattern candidates => exact nextRow_step source pattern candidates _ state
  | done =>
    exact .finished Option.none ⟨.done, arena, policy, stats⟩ state
      (fun policy => by cases policy <;> rfl) rfl rfl

/-- **Reading solutions** gives rows, and where failures are reported perhaps one behind them. -/
theorem take_alike (count : Nat) (solutions : Solutions) (state : σ) :
    ∃ rows : List Binding,
      ((solutions.withPolicy .failOpen).take source count state).1 = rows.map .ok ∧
      (((solutions.withPolicy .failClosed).take source count state).1 = rows.map .ok ∨
        ∃ failure, ((solutions.withPolicy .failClosed).take source count state).1 =
          rows.map .ok ++ [.error failure]) := by
  induction count generalizing solutions state with
  | zero => exact ⟨[], rfl, .inl rfl⟩
  | succ count ih =>
    unfold take
    cases next_step source solutions state with
    | row row after state hanswer =>
      obtain ⟨rows, hopen, hclosed⟩ := ih after state
      simp only [hanswer]
      refine ⟨row :: rows, congrArg (Except.ok row :: ·) hopen, ?_⟩
      rcases hclosed with hclosed | ⟨failure, hclosed⟩
      · exact .inl (congrArg (Except.ok row :: ·) hclosed)
      · exact .inr ⟨failure, congrArg (Except.ok row :: ·) hclosed⟩
    | finished failure? after state hanswer hcount hdone =>
      simp only [hanswer]
      cases failure? with
      | none => exact ⟨[], rfl, .inl rfl⟩
      | some failure =>
        have hdone' : (after.withPolicy .failClosed).stage = .done := hdone
        exact ⟨[], rfl, .inr ⟨failure,
          congrArg (Except.error failure :: ·) (take_done hdone' count state)⟩⟩

end Solutions

namespace Evaluation

/-- The same evaluation under a policy. -/
def withPolicy (evaluation : Evaluation σ) (policy : FailurePolicy) : Evaluation σ :=
  { evaluation with policy }

variable {evaluation : Evaluation σ} {constraints : List Constraint}

/-! ## Joining -/

section

variable (evaluation) (policy : FailurePolicy)

lemma resolveAll_withPolicy (patterns : List TriplePattern) :
    (evaluation.withPolicy policy).resolveAll constraints patterns =
      evaluation.resolveAll constraints patterns := by
  induction patterns with
  | nil => rfl
  | cons pattern rest ih =>
    unfold resolveAll
    rw [ih]
    rfl

lemma joinLevel_withPolicy (pattern : TriplePattern) (next : Leaf) (candidates : List Match)
    (composite : Composite) :
    (evaluation.withPolicy policy).joinLevel constraints pattern next candidates composite =
      evaluation.joinLevel constraints pattern next candidates composite := by
  induction candidates generalizing composite with
  | nil => rfl
  | cons candidate rest ih =>
    unfold joinLevel
    simp only [ih]
    rfl

lemma joinRest_withPolicy (pivot : CandidateSet) (leaves : List Leaf) :
    (evaluation.withPolicy policy).joinRest constraints pivot leaves =
      evaluation.joinRest constraints pivot leaves := by
  induction leaves generalizing pivot with
  | nil => rfl
  | cons next rest ih =>
    unfold joinRest
    simp only [ih, joinLevel_withPolicy]

lemma join_withPolicy (patterns : List TriplePattern) :
    (evaluation.withPolicy policy).join constraints patterns =
      evaluation.join constraints patterns := by
  unfold join
  simp only [resolveAll_withPolicy, joinRest_withPolicy]

end

/-! ## Evaluating and delivering -/

/-- How evaluations end where failures are reported, and where they are dropped. -/
inductive RunsAlike : Option (Except PatternFailure Solutions) × LanguageCache × σ →
    Option (Except PatternFailure Solutions) × LanguageCache × σ → Prop
  | outOfFuel (languages : LanguageCache) (state : σ) :
    RunsAlike (none, languages, state) (none, languages, state)
  | solutions (solutions : Solutions) (languages : LanguageCache) (state : σ) :
    RunsAlike (some (.ok (solutions.withPolicy .failClosed)), languages, state)
      (some (.ok (solutions.withPolicy .failOpen)), languages, state)
  | failed (failure : PatternFailure) (stats : EvaluationStats) (languages : LanguageCache)
    (state : σ) : RunsAlike (some (.error failure), languages, state)
      (some (.ok (Solutions.none .failOpen stats)), languages, state)

lemma run_alike (evaluation : Evaluation σ) (constraints : List Constraint)
    (patterns : List TriplePattern) (languages : LanguageCache) (state : σ) :
    RunsAlike ((evaluation.withPolicy .failClosed).run constraints patterns languages state)
      ((evaluation.withPolicy .failOpen).run constraints patterns languages state) := by
  unfold run
  by_cases hpatterns : patterns.isEmpty
  · rw [if_pos hpatterns, if_pos hpatterns]
    exact .solutions { Solutions.none evaluation.policy .zero with stage := .unit } languages state
  · rw [if_neg hpatterns, if_neg hpatterns, join_withPolicy, join_withPolicy]
    rcases evaluation.join constraints patterns ⟨state, languages, .empty, .zero⟩ with
      ⟨halt | last?, joined⟩
    · cases halt with
      | failed failure => exact .failed failure _ _ _
      | outOfFuel => exact .outOfFuel _ _
    · cases last? with
      | none => exact .solutions (Solutions.none evaluation.policy joined.stats) _ _
      | some last =>
        exact .solutions ⟨.rows last.pattern last.candidates, joined.arena, evaluation.policy,
          joined.stats⟩ _ _

/-- What comes of a query: the items of its solutions, or the failure of its evaluation; nothing is
said if a scan runs out of fuel. -/
def delivered (evaluation : Evaluation σ) (constraints : List Constraint)
    (patterns : List TriplePattern) (languages : LanguageCache) (state : σ) :
    Option (List (Except PatternFailure Binding)) :=
  match evaluation.run constraints patterns languages state with
  | (some (.ok solutions), _, state) => some (solutions.drain evaluation.source state).1
  | (some (.error failure), _, _) => some [.error failure]
  | (none, _, _) => none

lemma notMem_map_ok {α ε : Type} {fault : ε} {list : List α} :
    (.error fault : Except ε α) ∉ list.map .ok := by
  simp

/-- **Where failures are dropped, the rows before the failure are delivered.**  Whatever the source
does, if a query reports a failure under the one policy, then under the other it delivers the rows that
stand before the report, and only those.  There are none if its evaluation fails. -/
theorem failOpen_delivers_before_failure {constraints : List Constraint}
    {patterns : List TriplePattern} {languages : LanguageCache} {state : σ}
    {items : List (Except PatternFailure Binding)} {failure : PatternFailure}
    (hitems : (evaluation.withPolicy .failClosed).delivered constraints patterns languages state =
      some items) (hfailure : .error failure ∈ items) :
    ∃ rows : List Binding, items = rows.map .ok ++ [.error failure] ∧
      (evaluation.withPolicy .failOpen).delivered constraints patterns languages state =
        some (rows.map .ok) ∧
      (((evaluation.withPolicy .failClosed).run constraints patterns languages state).1 =
        some (.error failure) → rows = []) := by
  have hruns := run_alike evaluation constraints patterns languages state
  unfold delivered at hitems ⊢
  generalize (evaluation.withPolicy .failClosed).run constraints patterns languages state =
    reporting at hitems hruns ⊢
  generalize (evaluation.withPolicy .failOpen).run constraints patterns languages state =
    dropping at hruns ⊢
  cases hruns with
  | outOfFuel languages state => cases hitems
  | failed other stats languages state =>
    cases hitems
    cases List.mem_singleton.mp hfailure
    exact ⟨[], rfl, congrArg some (Solutions.take_done rfl _ state), fun _ => rfl⟩
  | solutions solutions languages state =>
    obtain ⟨rows, hopen, hclosed⟩ :=
      Solutions.take_alike evaluation.source solutions.bound solutions state
    refine ⟨rows, ?_, congrArg some hopen, fun h => by cases h⟩
    have hread : ((solutions.withPolicy .failClosed).take evaluation.source solutions.bound state).1 =
        items := Option.some.inj hitems
    rcases hclosed with hclosed | ⟨other, hclosed⟩
    · rw [← hread, hclosed] at hfailure
      exact absurd hfailure notMem_map_ok
    · rw [← hread, hclosed] at hfailure ⊢
      rcases List.mem_append.mp hfailure with hrow | hlast
      · exact absurd hrow notMem_map_ok
      · rw [List.mem_singleton.mp hlast]

end Evaluation

/-- Two statements, the second of which cannot be read. -/
def halfReadable : RecordSource (FaultState SourceLog) :=
  Faults.source ⟨none, some 2, false⟩
    (Table.source ⟨[(⟨0, 0⟩, ⟨"<a>", "<p>", "<b>"⟩), (⟨0, 1⟩, ⟨"<c>", "<p>", "<d>"⟩)]⟩)

/-- The first statement is delivered where the failure of the second is dropped. -/
theorem failOpen_delivers_before_failure_half :
    let evaluation : Evaluation (FaultState SourceLog) :=
      ⟨halfReadable, .default, 5, .ascending, .failClosed, 5⟩
    let pattern : TriplePattern := ⟨.var ⟨"s"⟩, .term (.iri ⟨"p"⟩), .var ⟨"o"⟩⟩
    ∃ rows : List Binding,
      (evaluation.withPolicy .failOpen).delivered [] [pattern] .empty ⟨.empty, 0, 0⟩ =
        some (rows.map .ok) ∧ rows.length = 1 := by
  intro evaluation pattern
  have hitems : (evaluation.withPolicy .failClosed).delivered [] [pattern] .empty ⟨.empty, 0, 0⟩ =
      some [.ok ⟨[(⟨"s"⟩, .iri ⟨"a"⟩), (⟨"o"⟩, .iri ⟨"b"⟩)]⟩,
        .error ⟨pattern, .missingField ⟨0, 1⟩ .object⟩] := by
    cbv
  obtain ⟨rows, hrows, hdelivered, -⟩ := Evaluation.failOpen_delivers_before_failure hitems
    (List.mem_cons_of_mem _ List.mem_cons_self)
  have hlength := congrArg List.length hrows
  rw [List.length_append, List.length_map] at hlength
  exact ⟨rows, hdelivered, (Nat.succ.inj hlength).symm⟩

/-- **Rows can be delivered though a failure was dropped.** -/
theorem failOpen_delivers_beside_failure :
    let evaluation : Evaluation (FaultState SourceLog) :=
      ⟨halfReadable, .default, 5, .ascending, .failClosed, 5⟩
    let pattern : TriplePattern := ⟨.var ⟨"s"⟩, .term (.iri ⟨"p"⟩), .var ⟨"o"⟩⟩
    ∃ row : Binding, ∃ failure : PatternFailure,
      (evaluation.withPolicy .failClosed).delivered [] [pattern] .empty ⟨.empty, 0, 0⟩ =
        some [.ok row, .error failure] ∧
      (evaluation.withPolicy .failOpen).delivered [] [pattern] .empty ⟨.empty, 0, 0⟩ =
        some [.ok row] := by
  intro evaluation pattern
  refine ⟨⟨[(⟨"s"⟩, .iri ⟨"a"⟩), (⟨"o"⟩, .iri ⟨"b"⟩)]⟩, ⟨pattern, .missingField ⟨0, 1⟩ .object⟩,
    ?_, ?_⟩
  · cbv
  · cbv

end QuadStore
