import Mathlib
import QuadStore.Proofs.FailurePolicies
import QuadStore.Proofs.RepeatedCalls

/-!
# Two policies, one query

An evaluation that reports failures and one that drops them ask the same of their source, and so they
hold the same solutions until something fails.  This module follows the two through every call, those
after the end included.

One call of either gives the same row, or else both are over: one with the failure, if there was any, and
one with nothing (`Solutions.Step`).  That is all that the policy decides; what the solutions have left
and what they have counted is the same after any number of calls (`Solutions.calls_withPolicy`).

That the count of rows given starts from nothing, and that an evaluation comes to its end at all unless a
scan of its source does not, are facts about the join, where either might be spoilt by any step.  They are
carried together (`JoinM.Quiet`).

So the two policies agree on everything before the first failure
(`Evaluation.policies_agree_before_failure`).
-/

namespace QuadStore

variable {σ α β : Type}

/-! ## Steps of a join give out no rows -/

/-- A step that leaves the count of rows as it is, and runs out of fuel in one case only. -/
structure JoinM.Quiet (endless : Prop) (step : JoinM σ α) : Prop where
  emitted : ∀ state, (step state).2.stats.bindingsEmitted = state.stats.bindingsEmitted
  outOfFuel : ∀ state, (step state).1 = .error .outOfFuel → endless

namespace JoinM

variable {endless : Prop}

lemma quiet_pure (value : α) : Quiet endless (pure value : JoinM σ α) :=
  ⟨fun _ => rfl, nofun⟩

lemma Quiet.bind {step : JoinM σ α} {next : α → JoinM σ β} (hstep : step.Quiet endless)
    (hnext : ∀ a, (next a).Quiet endless) : (step >>= next).Quiet endless := by
  have hemitted := hstep.emitted
  have hfuel := hstep.outOfFuel
  constructor
  · intro state
    have hfirst := hemitted state
    rcases hrun : step state with ⟨halt | a, state'⟩ <;> rw [hrun] at hfirst
    · rw [bind_error hrun]
      exact hfirst
    · rw [bind_ok hrun, (hnext a).emitted state']
      exact hfirst
  · intro state h
    have hfirst := hfuel state
    rcases hrun : step state with ⟨halt | a, state'⟩ <;> rw [hrun] at hfirst
    · rw [bind_error hrun] at h
      exact hfirst (congrArg Except.error (Except.error.inj h))
    · rw [bind_ok hrun] at h
      exact (hnext a).outOfFuel state' h

lemma quiet_get : Quiet endless (get : JoinM σ (JoinState σ)) := ⟨fun _ => rfl, nofun⟩

lemma quiet_modify {change : JoinState σ → JoinState σ}
    (h : ∀ state, (change state).stats.bindingsEmitted = state.stats.bindingsEmitted) :
    Quiet endless (modify change : JoinM σ PUnit) :=
  ⟨h, nofun⟩

lemma quiet_building (pattern : TriplePattern) (computation : Building α) :
    Quiet endless (building pattern computation : JoinM σ α) := by
  refine ⟨fun state => ?_, fun state h => ?_⟩ <;> unfold building at *
  · rcases computation state.languages with ⟨fault | value, languages⟩ <;> rfl
  · rcases hrun : computation state.languages with ⟨fault | value, languages⟩ <;> rw [hrun] at h <;>
      cases h

lemma quiet_asking (pattern : TriplePattern) (question : σ → Except QueryError α × σ) :
    Quiet endless (asking pattern question) := by
  refine ⟨fun state => ?_, fun state h => ?_⟩ <;> unfold asking at *
  · rcases question state.source with ⟨fault | value, source⟩ <;> rfl
  · rcases hrun : question state.source with ⟨fault | value, source⟩ <;> rw [hrun] at h <;> cases h

lemma quiet_scanning (pattern : TriplePattern) {scan : σ → Option (Except QueryError α) × σ}
    (h : ∀ state, (scan state).1 = none → endless) : Quiet endless (scanning pattern scan) := by
  refine ⟨fun state => ?_, fun state hrun => ?_⟩ <;> unfold scanning at *
  · rcases scan state.source with ⟨_ | fault | value, source⟩ <;> rfl
  · have hends := h state.source
    rcases hscan : scan state.source with ⟨_ | fault | value, source⟩ <;> rw [hscan] at hrun hends
    · exact hends rfl
    · cases hrun
    · cases hrun

end JoinM

namespace Evaluation

variable (evaluation : Evaluation σ) (constraints : List Constraint)

/-- Some scan of the source has not come to its end when the evaluation's fuel is used up. -/
def Endless : Prop :=
  ∃ filters state, (Scan.recordIds evaluation.source evaluation.fuel
    (Scan.start filters evaluation.pageLength evaluation.order false) state).1 = none

lemma quiet_countPattern : (countPattern : JoinM σ Unit).Quiet evaluation.Endless :=
  JoinM.quiet_modify fun _ => rfl

lemma quiet_countProbe : (countProbe : JoinM σ Unit).Quiet evaluation.Endless :=
  JoinM.quiet_modify fun _ => rfl

lemma quiet_resolve (pattern : TriplePattern) (binding : Option Handle) :
    (evaluation.resolve constraints pattern binding).Quiet evaluation.Endless := by
  unfold resolve
  exact JoinM.quiet_get.bind fun _ => (JoinM.quiet_building pattern _).bind fun filters =>
    JoinM.quiet_scanning pattern fun state h => ⟨filters, state, h⟩

lemma quiet_resolveAll (patterns : List TriplePattern) :
    (evaluation.resolveAll constraints patterns).Quiet evaluation.Endless := by
  induction patterns with
  | nil => exact JoinM.quiet_pure _
  | cons pattern rest ih =>
    unfold resolveAll
    refine (quiet_resolve evaluation constraints pattern none).bind fun records =>
      (quiet_countPattern evaluation).bind fun _ => ?_
    split
    · exact JoinM.quiet_pure _
    · exact ih.bind fun _ => JoinM.quiet_pure _

lemma quiet_bindMatch (pattern : TriplePattern) (candidate : Match) :
    (evaluation.bindMatch pattern candidate).Quiet evaluation.Endless := by
  unfold bindMatch
  refine (JoinM.quiet_asking pattern _).bind fun triple => JoinM.quiet_get.bind fun state => ?_
  split
  · exact JoinM.quiet_pure _
  · rename_i handle arena _
    have hmodify : JoinM.Quiet evaluation.Endless
        (modify fun state : JoinState σ => { state with arena }) := JoinM.quiet_modify fun _ => rfl
    exact hmodify.bind fun _ => JoinM.quiet_pure _

lemma quiet_extendLeaf (next : Leaf) (binding : Handle) :
    (evaluation.extendLeaf constraints next binding).Quiet evaluation.Endless := by
  unfold extendLeaf
  refine JoinM.quiet_get.bind fun state => ?_
  dsimp only
  split
  · exact (quiet_countProbe evaluation).bind fun _ =>
      (quiet_resolve evaluation constraints next.pattern _).bind fun _ => JoinM.quiet_pure _
  · exact JoinM.quiet_pure _

lemma quiet_joinLevel (pattern : TriplePattern) (next : Leaf) (candidates : List Match)
    (composite : Composite) :
    (evaluation.joinLevel constraints pattern next candidates composite).Quiet
      evaluation.Endless := by
  induction candidates generalizing composite with
  | nil => exact JoinM.quiet_pure _
  | cons candidate rest ih =>
    unfold joinLevel
    refine (quiet_bindMatch evaluation pattern candidate).bind fun bound => ?_
    cases bound with
    | none => exact ih composite
    | some binding =>
      exact (quiet_extendLeaf evaluation constraints next binding).bind fun leaf => ih _

lemma quiet_joinRest (pivot : CandidateSet) (leaves : List Leaf) :
    (evaluation.joinRest constraints pivot leaves).Quiet evaluation.Endless := by
  induction leaves generalizing pivot with
  | nil => exact JoinM.quiet_pure _
  | cons next rest ih =>
    unfold joinRest
    refine (quiet_joinLevel evaluation constraints pivot.pattern next _ _).bind fun composite => ?_
    split
    · exact JoinM.quiet_pure _
    · exact ih _

/-- **A join gives out no rows**, and comes to its end if every scan does. -/
theorem quiet_join (patterns : List TriplePattern) :
    (evaluation.join constraints patterns).Quiet evaluation.Endless := by
  unfold join
  refine (quiet_resolveAll evaluation constraints patterns).bind fun leaves? => ?_
  cases leaves? with
  | none => exact JoinM.quiet_pure _
  | some leaves =>
    dsimp only
    split
    · exact JoinM.quiet_pure _
    · exact quiet_joinRest evaluation constraints _ _

end Evaluation

/-! ## Calls under two policies -/

namespace Solutions

variable (source : RecordSource σ)

lemma calls_done {solutions : Solutions} (h : solutions.stage = .done) (count : Nat) (state : σ) :
    calls (next source) count solutions state = (List.replicate count .none, solutions, state) := by
  have hnext : solutions.next source state = (.none, solutions, state) := by
    unfold next
    rw [h]
  induction count with
  | zero => rfl
  | succ count ih => rw [calls_succ, hnext, ih, List.replicate_succ]

/-- **All calls** under both policies: the same rows, all of them counted; then on the one side perhaps a
failure; and then nothing.  The rows are over if the calls are enough. -/
theorem calls_withPolicy (count : Nat) (solutions : Solutions) (state : σ) :
    ∃ (rows : List Binding) (failure? : Option PatternFailure) (rest : Nat) (after : Solutions)
        (state' : σ),
      calls (next source) count (solutions.withPolicy .failClosed) state =
        (rows.map (some ∘ .ok) ++ (failure?.map (some ∘ .error)).toList ++ List.replicate rest .none,
          after.withPolicy .failClosed, state') ∧
      calls (next source) count (solutions.withPolicy .failOpen) state =
        (rows.map (some ∘ .ok) ++ List.replicate (failure?.toList.length + rest) .none,
          after.withPolicy .failOpen, state') ∧
      after.stats.bindingsEmitted = solutions.stats.bindingsEmitted + rows.length ∧
      (solutions.bound ≤ count → failure?.isSome ∨ 0 < rest) := by
  induction count generalizing solutions state with
  | zero =>
    refine ⟨[], Option.none, 0, solutions, state, rfl, rfl, rfl, fun hbound => ?_⟩
    unfold bound at hbound
    split at hbound <;> omega
  | succ count ih =>
    simp only [calls_succ]
    cases next_step source solutions state with
    | row row after state₁ hanswer hcount hlt =>
      obtain ⟨rows, failure?, rest, last, state', hclosed, hopen, hemitted, hbound⟩ := ih after state₁
      simp only [hanswer, hclosed, hopen]
      refine ⟨row :: rows, failure?, rest, last, state', rfl, rfl, ?_, fun h => hbound (by omega)⟩
      rw [hemitted, hcount, List.length_cons]
      omega
    | finished failure? after state₁ hanswer hcount hdone =>
      have hdone' (policy : FailurePolicy) : (after.withPolicy policy).stage = .done := hdone
      have hrest (policy : FailurePolicy) : calls (next source) count (after.withPolicy policy) state₁ =
          (List.replicate count .none, after.withPolicy policy, state₁) :=
        calls_done source (hdone' policy) count state₁
      simp only [hanswer, hrest]
      cases failure? with
      | none => exact ⟨[], Option.none, count + 1, after, state₁, rfl, by simp [ending, List.replicate_succ],
          hcount, fun _ => .inr count.succ_pos⟩
      | some failure => exact ⟨[], some failure, count, after, state₁, rfl,
          by simp [ending, Nat.add_comm 1, List.replicate_succ], hcount, fun _ => .inl rfl⟩

end Solutions

/-! ## Evaluations under two policies -/

namespace Evaluation

/-- What is handed over are solutions that have given no row yet, or a failure; there is nothing in one
case only. -/
def HandsOver (endless : Prop) : Option (Except PatternFailure Solutions) → Prop
  | some (.ok solutions) => solutions.stats.bindingsEmitted = 0
  | some (.error _) => True
  | none => endless

lemma handsOver_run (evaluation : Evaluation σ) (constraints : List Constraint)
    (patterns : List TriplePattern) (languages : LanguageCache) (state : σ) :
    HandsOver evaluation.Endless (evaluation.run constraints patterns languages state).1 := by
  have hjoin := quiet_join evaluation constraints patterns
  have hemitted := hjoin.emitted ⟨state, languages, .empty, .zero⟩
  have hfuel := hjoin.outOfFuel ⟨state, languages, .empty, .zero⟩
  unfold run
  by_cases hpatterns : patterns.isEmpty
  · rw [if_pos hpatterns]
    exact rfl
  · rw [if_neg hpatterns]
    rcases hrun : evaluation.join constraints patterns ⟨state, languages, .empty, .zero⟩ with
      ⟨(failure | _) | (_ | pivot), joined⟩ <;> rw [hrun] at hemitted hfuel
    · cases hpolicy : evaluation.policy with
      | failOpen => exact hemitted
      | failClosed => exact trivial
    · exact hfuel rfl
    · exact hemitted
    · exact hemitted

/-- **The two policies agree on everything before the first failure**, whatever the source does.

If the evaluation itself reports a failure under the one policy, then under the other it gives solutions
that have no rows, however often they are called.  Otherwise both give solutions, with equal statistics
and no row counted.  However often these are called, there are the same rows, all of them counted; then on
the one side perhaps the failure, and on both nothing for good.  The end comes within a known number of
calls.  There is no third case unless some scan of the source goes on beyond the fuel. -/
theorem policies_agree_before_failure (evaluation : Evaluation σ) (constraints : List Constraint)
    (patterns : List TriplePattern) (languages : LanguageCache) (state : σ) :
    let reported := (evaluation.withPolicy .failClosed).run constraints patterns languages state
    let dropped := (evaluation.withPolicy .failOpen).run constraints patterns languages state
    let next := Solutions.next evaluation.source
    (∃ failure empty languages state, reported = (some (.error failure), languages, state) ∧
      dropped = (some (.ok empty), languages, state) ∧ empty.stats.bindingsEmitted = 0 ∧
      ∀ count, calls next count empty state = (List.replicate count none, empty, state)) ∨
    (∃ reporting dropping languages state, reported = (some (.ok reporting), languages, state) ∧
      dropped = (some (.ok dropping), languages, state) ∧ reporting.stats = dropping.stats ∧
      ∀ count, ∃ (rows : List Binding) (failure? : Option PatternFailure) (rest : Nat),
        let (answers, after, _) := calls next count reporting state
        let (answers', after', _) := calls next count dropping state
        answers = rows.map (some ∘ .ok) ++ (failure?.map (some ∘ .error)).toList ++
          List.replicate rest none ∧
        answers' = rows.map (some ∘ .ok) ++ List.replicate (failure?.toList.length + rest) none ∧
        after.stats = after'.stats ∧ after.stats.bindingsEmitted = rows.length ∧
        (reporting.bound ≤ count → failure?.isSome ∨ 0 < rest)) ∨
    (reported.1 = none ∧ dropped.1 = none ∧ evaluation.Endless) := by
  intro reported dropped next
  have hruns : RunsAlike reported dropped := run_alike evaluation constraints patterns languages state
  have hreported : HandsOver evaluation.Endless reported.1 :=
    handsOver_run (evaluation.withPolicy .failClosed) constraints patterns languages state
  have hdropped : HandsOver evaluation.Endless dropped.1 :=
    handsOver_run (evaluation.withPolicy .failOpen) constraints patterns languages state
  generalize reported = reported at hruns hreported ⊢
  generalize dropped = dropped at hruns hdropped ⊢
  cases hruns with
  | outOfFuel languages state => exact .inr (.inr ⟨rfl, rfl, hreported⟩)
  | failed failure stats languages state =>
    have hdone : (Solutions.none .failOpen stats).stage = .done := rfl
    exact .inl ⟨failure, _, languages, state, rfl, rfl, hdropped,
      fun count => Solutions.calls_done evaluation.source hdone count state⟩
  | solutions solutions languages state =>
    refine .inr (.inl ⟨_, _, languages, state, rfl, rfl, rfl, fun count => ?_⟩)
    obtain ⟨rows, failure?, rest, last, state', hclosed, hopen, hcount, hbound⟩ :=
      Solutions.calls_withPolicy evaluation.source count solutions state
    have hzero : solutions.stats.bindingsEmitted = 0 :=
      show (solutions.withPolicy .failClosed).stats.bindingsEmitted = 0 from hreported
    rw [hzero, Nat.zero_add] at hcount
    refine ⟨rows, failure?, rest, ?_⟩
    simp only [next, hclosed, hopen]
    exact ⟨trivial, trivial, rfl, hcount, hbound⟩

end Evaluation

end QuadStore
