import Mathlib
import QuadStore.Proofs.QueryOrder
import QuadStore.Proofs.WatchedEvaluations

/-!
# The work of an evaluation

The statistics of an evaluation are counted up step by step, at every level of a join and at every row
that is given out.  This module says what they come to, in terms of the query alone.

For the first `k` patterns in the order of the join let `R k` be the number of their answers that satisfy
the constraints.  Between the rows of one level there is no difference as to which variables they bind,
so the next pattern shares a variable with all of them or with none (`shares_of_mem_loops`), and the
level takes `R k` probes or none.  Every row of a level is a node of the arena, and so is every row that
is given out (`Solutions.take_accounted`); candidates that do not fit leave no trace.  So there are
`R 1 + … + R n` nodes in the end, unless a level has no candidates: then the join is given up, and its
nodes with it (`Evaluation.work_accounted`).
-/

namespace QuadStore

open Finset (range)

variable {σ : Type}

namespace Evaluation

variable {evaluation : Evaluation σ} {holdings : Holdings} {constraints : List Constraint}

/-! ## Levels -/

/-- A pattern and what the loops over the patterns behind it make. -/
lemma loops_cons_flatMap (next : TriplePattern) (patterns : List TriplePattern)
    (rows : List Assignments) :
    rows.flatMap (evaluation.loops holdings constraints (next :: patterns)) =
      (rows.flatMap (evaluation.extensions holdings constraints next)).flatMap
        (evaluation.loops holdings constraints patterns) := by
  rw [List.flatMap_assoc]
  rfl

lemma loops_nil_flatMap (rows : List Assignments) :
    rows.flatMap (evaluation.loops holdings constraints []) = rows := by
  simp [loops]

/-- The bindings of a join are the rows of all levels. -/
lemma nodeCount_eq_sum (patterns : List TriplePattern) (rows : List Assignments) :
    nodeCount evaluation holdings constraints patterns rows = ∑ k ∈ range patterns.length,
      (rows.flatMap (evaluation.loops holdings constraints (patterns.take k))).length := by
  induction patterns generalizing rows with
  | nil => rfl
  | cons next rest ih =>
    rw [nodeCount, ih, List.length_cons, Finset.sum_range_succ', List.take_zero, loops_nil_flatMap,
      Nat.add_comm]
    simp only [List.take_succ_cons, loops_cons_flatMap]

/-- The probes of a join are made by the rows of all levels that share a variable with the pattern
behind them. -/
lemma probeCount_eq_sum (patterns : List TriplePattern) (rows : List Assignments) :
    probeCount evaluation holdings constraints patterns rows = ∑ k ∈ range patterns.length,
      (rows.flatMap (evaluation.loops holdings constraints (patterns.take k))).countP fun row =>
        patterns[k]?.any (shares · row) := by
  induction patterns generalizing rows with
  | nil => rfl
  | cons next rest ih =>
    rw [probeCount, ih, List.length_cons, Finset.sum_range_succ', List.take_zero, loops_nil_flatMap,
      Nat.add_comm]
    simp only [List.take_succ_cons, loops_cons_flatMap, List.getElem?_cons_succ,
      List.getElem?_cons_zero, Option.any_some]

/-- A join runs dry at a pattern without candidates under any of the rows before it. -/
lemma runsDry_iff (patterns : List TriplePattern) (rows : List Assignments) :
    runsDry evaluation holdings constraints patterns rows = true ↔
      ∃ k, ∃ next ∈ patterns[k]?,
        ∀ row ∈ rows.flatMap (evaluation.loops holdings constraints (patterns.take k)),
          evaluation.candidates holdings constraints next row = [] := by
  induction patterns generalizing rows with
  | nil => simp [runsDry]
  | cons next rest ih =>
    have hempty : (itemsUnder evaluation holdings constraints next rows).isEmpty = true ↔
        ∀ row ∈ rows, evaluation.candidates holdings constraints next row = [] := by
      simp [itemsUnder]
    rw [runsDry, Bool.or_eq_true, hempty, ih]
    constructor
    · rintro (hfirst | ⟨k, later, hlater, hrows⟩)
      · exact ⟨0, next, rfl, by rwa [List.take_zero, loops_nil_flatMap]⟩
      · exact ⟨k + 1, later, hlater, by rwa [List.take_succ_cons, loops_cons_flatMap]⟩
    · rintro ⟨k, later, hlater, hrows⟩
      cases k with
      | zero =>
        obtain rfl := Option.some.inj hlater
        rw [List.take_zero, loops_nil_flatMap] at hrows
        exact .inl hrows
      | succ k =>
        rw [List.take_succ_cons, loops_cons_flatMap] at hrows
        exact .inr ⟨k, later, hlater, hrows⟩

/-! ## How many patterns are resolved -/

/-- Patterns are resolved up to the first without candidates. -/
lemma resolvedCount_append {before after : List TriplePattern} {pattern : TriplePattern}
    (hbefore : ∀ earlier ∈ before, evaluation.candidates holdings constraints earlier [] ≠ [])
    (hpattern : evaluation.candidates holdings constraints pattern [] = []) :
    resolvedCount evaluation holdings constraints (before ++ pattern :: after) =
      before.length + 1 := by
  induction before with
  | nil => rw [List.nil_append, resolvedCount, hpattern, List.isEmpty_nil, if_pos rfl, List.length_nil]
  | cons earlier before ih =>
    have hearlier := hbefore earlier List.mem_cons_self
    rw [List.cons_append, resolvedCount, if_neg (by rwa [List.isEmpty_iff]), List.length_cons,
      ih fun other hother => hbefore other (List.mem_cons_of_mem earlier hother)]

lemma resolvedCount_eq_length {patterns : List TriplePattern}
    (h : ∀ pattern ∈ patterns, evaluation.candidates holdings constraints pattern [] ≠ []) :
    resolvedCount evaluation holdings constraints patterns = patterns.length := by
  induction patterns with
  | nil => rfl
  | cons pattern rest ih =>
    rw [resolvedCount, if_neg (by simpa using h pattern List.mem_cons_self), List.length_cons,
      ih fun other hother => h other (List.mem_cons_of_mem pattern hother)]

lemma lacksCandidates_eq_false {patterns : List TriplePattern}
    (h : ∀ pattern ∈ patterns, evaluation.candidates holdings constraints pattern [] ≠ []) :
    evaluation.lacksCandidates holdings constraints patterns = false := by
  simpa [lacksCandidates] using h

end Evaluation

/-! ## The rows of the first patterns -/

/-- The answers of some patterns that satisfy the constraints, each variable at its positions in these
patterns. -/
def Holdings.consistent (holdings : Holdings) (graph : GraphName) (constraints : List Constraint)
    (patterns : List TriplePattern) : List (Variable → Option Term) :=
  (holdings.answers graph patterns).filter (satisfiesAll constraints patterns)

/-- The number of consistent rows of the first `k` patterns. -/
def Holdings.rowCount (holdings : Holdings) (graph : GraphName) (constraints : List Constraint)
    (patterns : List TriplePattern) (k : Nat) : Nat :=
  (holdings.consistent graph constraints (patterns.take k)).length

/-- The pattern at some place shares a variable with those before it. -/
def JoinsAt (patterns : List TriplePattern) (k : Nat) : Prop :=
  ∃ next ∈ patterns[k]?, ∃ v ∈ next.vars, ∃ pattern ∈ patterns.take k, v ∈ pattern.vars

instance (patterns : List TriplePattern) : DecidablePred (JoinsAt patterns) := fun k =>
  decidable_of_iff (patterns[k]?.any fun next => next.vars.any fun v =>
    (patterns.take k).any fun pattern => v ∈ pattern.vars) (by simp [JoinsAt, Option.any_eq_true])

/-- Patterns that can be resolved, with constraints that admit the same terms at all positions of a
variable. -/
structure Answerable (constraints : List Constraint) (patterns : List TriplePattern) : Prop where
  resolvable : Resolvable constraints patterns
  indifferent : Indifferent constraints patterns

lemma Answerable.of_subset {constraints : List Constraint} {patterns all : List TriplePattern}
    (h : Answerable constraints all) (hsubset : ∀ pattern ∈ patterns, pattern ∈ all) :
    Answerable constraints patterns where
  resolvable pattern hpattern := h.resolvable pattern (hsubset pattern hpattern)
  indifferent := by
    have hoccurs : ∀ {v position}, OccursAt patterns v position → OccursAt all v position :=
      fun ⟨pattern, hpattern, hslot⟩ => ⟨pattern, hsubset pattern hpattern, hslot⟩
    exact fun constraint hconstraint position position' hposition hposition' =>
      h.indifferent constraint hconstraint position position' (hoccurs hposition) (hoccurs hposition')

namespace Evaluation

variable {evaluation : Evaluation σ} {holdings : Holdings} {constraints : List Constraint}
  {patterns : List TriplePattern}

/-- **The loops over some patterns** make their consistent rows, each as often. -/
theorem loops_consistent_perm (h : Answerable constraints patterns) :
    ((evaluation.loops holdings constraints patterns []).map fun (row : Assignments) v =>
        row.lookup v).Perm
      (holdings.consistent evaluation.graph constraints patterns) := by
  have hbuildable : ∀ pattern ∈ patterns, pattern.Buildable := fun pattern hpattern =>
    (h.resolvable pattern hpattern).1
  have hconstrainable : ∀ pattern ∈ patterns, pattern.Constrainable constraints :=
    fun pattern hpattern => (h.resolvable pattern hpattern).2
  have hloops : (evaluation.loops holdings constraints patterns []).Perm _ :=
    loops_constrained_perm hbuildable hconstrainable h.indifferent (fun _ hpattern => hpattern)
      distinct_nil (satisfiesAll_nil constraints patterns)
  have hanswers : ((evaluation.loops holdings [] patterns []).map
      fun (row : Assignments) v => row.lookup v).Perm (holdings.answers evaluation.graph patterns) :=
    loops_perm hbuildable distinct_nil
  refine (hloops.map _).trans (.trans (.of_eq ?_) (hanswers.filter _))
  rw [List.filter_map]
  rfl

lemma length_loops_take (h : Answerable constraints patterns) (k : Nat) :
    (evaluation.loops holdings constraints (patterns.take k) []).length =
      holdings.rowCount evaluation.graph constraints patterns k := by
  have htake : Answerable constraints (patterns.take k) := h.of_subset fun _ => List.mem_of_mem_take
  rw [Holdings.rowCount, ← (loops_consistent_perm htake).length_eq, List.length_map]

/-- **All rows of a level bind the same variables**, those of the patterns so far; so a pattern shares
a variable with all of them or with none. -/
theorem shares_of_mem_loops (h : Answerable constraints patterns) {row : Assignments}
    (hrow : row ∈ evaluation.loops holdings constraints patterns []) (next : TriplePattern) :
    shares next row = true ↔ ∃ v ∈ next.vars, ∃ pattern ∈ patterns, v ∈ pattern.vars := by
  have hanswer := (loops_consistent_perm h).mem_iff.mp (List.mem_map_of_mem hrow)
  have hbound := Holdings.isSome_of_mem_answers (List.mem_of_mem_filter hanswer)
  simp only [shares, List.any_eq_true]
  exact exists_congr fun v => and_congr_right fun _ => hbound v

/-- The rows of a level that probe: all of them or none. -/
lemma countP_shares (h : Answerable constraints patterns) (k : Nat) :
    (evaluation.loops holdings constraints (patterns.take k) []).countP (fun row =>
        patterns[k]?.any (shares · row)) =
      if JoinsAt patterns k then holdings.rowCount evaluation.graph constraints patterns k else 0 := by
  have htake : Answerable constraints (patterns.take k) := h.of_subset fun _ => List.mem_of_mem_take
  have hshares : ∀ row ∈ evaluation.loops holdings constraints (patterns.take k) [],
      patterns[k]?.any (shares · row) = true ↔ JoinsAt patterns k := by
    intro row hrow
    rw [Option.any_eq_true]
    exact exists_congr fun next => and_congr_right fun _ => shares_of_mem_loops htake hrow next
  split
  · rename_i hjoins
    rw [← length_loops_take h, List.countP_eq_length]
    exact fun row hrow => (hshares row hrow).mpr hjoins
  · rename_i hjoins
    rw [List.countP_eq_zero]
    exact fun row hrow hany => hjoins ((hshares row hrow).mp hany)

/-! ## What the join comes to -/

section

variable {first : TriplePattern} {rest : List TriplePattern}

/-- **The nodes of a join**, with those of the rows that are given out. -/
lemma nodeCount_add (h : Answerable constraints (first :: rest)) :
    nodeCount evaluation holdings constraints rest
        (evaluation.extensions holdings constraints first []) +
      holdings.rowCount evaluation.graph constraints (first :: rest) (first :: rest).length =
    ∑ k ∈ range (first :: rest).length,
      holdings.rowCount evaluation.graph constraints (first :: rest) (k + 1) := by
  have hlevel : ∀ k, ((evaluation.extensions holdings constraints first []).flatMap
        (evaluation.loops holdings constraints (rest.take k))).length =
      holdings.rowCount evaluation.graph constraints (first :: rest) (k + 1) :=
    fun k => length_loops_take h (k + 1)
  rw [nodeCount_eq_sum, List.length_cons, Finset.sum_range_succ]
  simp only [hlevel]

/-- **The probes of a join.** -/
lemma probeCount_eq (h : Answerable constraints (first :: rest)) :
    probeCount evaluation holdings constraints rest
        (evaluation.extensions holdings constraints first []) =
      ∑ k ∈ range (first :: rest).length with JoinsAt (first :: rest) k,
        holdings.rowCount evaluation.graph constraints (first :: rest) k := by
  have hfirst : ¬ JoinsAt (first :: rest) 0 := by simp [JoinsAt]
  rw [probeCount_eq_sum, Finset.sum_filter, List.length_cons, Finset.sum_range_succ', if_neg hfirst,
    Nat.add_zero]
  exact Finset.sum_congr rfl fun k _ => countP_shares h (k + 1)

end

/-- Some pattern has no candidates under any row over the patterns before it. -/
def StopsEmpty (evaluation : Evaluation σ) (holdings : Holdings) (constraints : List Constraint)
    (patterns : List TriplePattern) : Prop :=
  ∃ k, ∃ next ∈ patterns[k]?, ∀ row ∈ evaluation.loops holdings constraints (patterns.take k) [],
    evaluation.candidates holdings constraints next row = []

/-- A join is given up if some pattern has no candidates under any row over the patterns before it. -/
lemma runsDry_iff_stopsEmpty {first : TriplePattern} {rest : List TriplePattern}
    (hfirst : evaluation.candidates holdings constraints first [] ≠ []) :
    runsDry evaluation holdings constraints rest
        (evaluation.extensions holdings constraints first []) = true ↔
      evaluation.StopsEmpty holdings constraints (first :: rest) := by
  rw [runsDry_iff]
  constructor
  · rintro ⟨k, next, hnext, hrows⟩
    exact ⟨k + 1, next, hnext, hrows⟩
  · rintro ⟨k, next, hnext, hrows⟩
    cases k with
    | zero =>
      obtain rfl := Option.some.inj hnext
      exact absurd (hrows [] List.mem_cons_self) hfirst
    | succ k => exact ⟨k, next, hnext, hrows⟩

end Evaluation

/-! ## Reading rows -/

namespace Solutions

/-- What reading does to the account of some solutions: so many rows are counted, and each has a node
of its own. -/
structure Accounted (before after : Solutions) (rows : Nat) : Prop where
  stats_eq : after.stats =
    { before.stats with bindingsEmitted := before.stats.bindingsEmitted + rows }
  allocated_eq : after.allocated = before.allocated + rows
  stage_ne : after.stage ≠ .unit

lemma Accounted.trans {a b c : Solutions} {rows rows' : Nat} (hab : Accounted a b rows)
    (hbc : Accounted b c rows') : Accounted a c (rows + rows') where
  stats_eq := by rw [hbc.stats_eq, hab.stats_eq, Nat.add_assoc]
  allocated_eq := by rw [hbc.allocated_eq, hab.allocated_eq, Nat.add_assoc]
  stage_ne := hbc.stage_ne

variable (source : RecordSource σ)

/-- Looking for the next row among some candidates takes a node if there is one, and else none, however
many candidates do not fit. -/
lemma nextRow_accounted (pattern : TriplePattern) (candidates : List Match) (solutions : Solutions)
    (state : σ) :
    Accounted solutions (nextRow source pattern candidates solutions state).2.1
      ((nextRow source pattern candidates solutions state).1.toList.countP Except.isOk) := by
  induction candidates generalizing state with
  | nil => exact ⟨rfl, rfl, by simp [nextRow]⟩
  | cons candidate rest ih =>
    unfold nextRow
    rcases source.readTriple candidate.record state with ⟨fault | triple, state'⟩
    · cases hpolicy : solutions.policy <;> simp only <;> exact ⟨rfl, rfl, by simp⟩
    · cases hbind : solutions.arena.bind candidate.parent pattern triple with
      | none =>
        simp only [hbind]
        exact ih state'
      | some made =>
        obtain ⟨handle, arena⟩ := made
        obtain ⟨found, -, hmade⟩ := Option.map_eq_some_iff.mp hbind
        have hsize : arena.size = solutions.arena.size + 1 := by
          rw [← (Prod.mk.inj hmade).2]
          simp [Arena.size]
        simp only [hbind]
        exact ⟨rfl, hsize, by simp [emit]⟩

/-- **A step** takes a node for the row that it gives, if it gives one. -/
lemma next_accounted {solutions : Solutions} (h : solutions.stage ≠ .unit) (state : σ) :
    Accounted solutions (solutions.next source state).2.1
      ((solutions.next source state).1.toList.countP Except.isOk) := by
  unfold next
  cases hstage : solutions.stage with
  | unit => exact absurd hstage h
  | rows pattern candidates => exact nextRow_accounted source pattern candidates solutions state
  | done => exact ⟨rfl, rfl, h⟩

/-- **All steps** take a node for each row that they give. -/
theorem take_accounted (count : Nat) {solutions : Solutions} (h : solutions.stage ≠ .unit)
    (state : σ) :
    Accounted solutions (solutions.take source count state).2.1
      ((solutions.take source count state).1.countP Except.isOk) := by
  induction count generalizing solutions state with
  | zero => exact ⟨rfl, rfl, h⟩
  | succ count ih =>
    have hnext := next_accounted source h state
    unfold take
    rcases hstep : solutions.next source state with ⟨_ | item, solutions', state'⟩ <;>
      rw [hstep] at hnext
    · exact hnext
    · have hall := hnext.trans (ih hnext.stage_ne state')
      rw [Option.toList_some, List.countP_singleton, Nat.add_comm] at hall
      rw [List.countP_cons]
      exact hall

variable {source}

/-- Where there are no rows, reading asks nothing and changes nothing. -/
lemma take_none (policy : FailurePolicy) (stats : EvaluationStats) (count : Nat) (state : σ) :
    (Solutions.none policy stats).take source count state = ([], .none policy stats, state) := by
  cases count <;> rfl

/-- Solutions that are read to their end have taken a node for each of their rows. -/
lemma Lists.accounted {solutions : Solutions} {bindings : List Binding}
    (h : solutions.Lists source bindings) (hstage : solutions.stage ≠ .unit) {count : Nat}
    (hcount : solutions.bound ≤ count) (state : σ) :
    Accounted solutions (solutions.take source count state).2.1 bindings.length := by
  have htake := take_accounted source count hstage state
  have hall : (bindings.map (Except.ok : Binding → Except PatternFailure Binding)).countP
      Except.isOk = bindings.length := by
    rw [List.countP_map, List.countP_eq_length]
    exact fun _ _ => rfl
  rwa [h count hcount state, hall] at htake

end Solutions

namespace Evaluation

variable {evaluation : Evaluation σ} {holdings : Holdings} {constraints : List Constraint}
  {patterns : List TriplePattern}

/-! ## The account of a query -/

/-- **Where a pattern has no candidates**, the patterns up to the first such pattern are asked for, and
this is all. -/
theorem run_lacking (hready : evaluation.Ready holdings) {before after : List TriplePattern}
    {pattern : TriplePattern} (hresolvable : Resolvable constraints (before ++ pattern :: after))
    (hbefore : ∀ earlier ∈ before, evaluation.candidates holdings constraints earlier [] ≠ [])
    (hpattern : evaluation.candidates holdings constraints pattern [] = [])
    {languages : LanguageCache} (hlanguages : languages.Sound) (state : σ) :
    ∃ languages' state' blocks,
      evaluation.tracing.run constraints (before ++ pattern :: after) languages (state, []) =
        (some (.ok (.none evaluation.policy ⟨before.length + 1, 0, 0⟩)), languages', state',
          blocks.flatten) ∧
      List.Forall₂ (evaluation.AsksFor constraints) (before ++ [pattern]) blocks := by
  let start : JoinState (σ × List ScanEvent) := ⟨(state, []), languages, .empty, .zero⟩
  have hstart : start.languages.Sound := hlanguages
  have hbuilds : ∀ other ∈ before ++ pattern :: after, evaluation.Builds constraints other :=
    hresolvable.builds
  have hlacks : evaluation.tracing.lacksCandidates holdings constraints
      (before ++ pattern :: after) = true :=
    List.any_eq_true.mpr ⟨pattern, by simp, List.isEmpty_iff.mpr hpattern⟩
  obtain ⟨resolved, hresolve, hresolved⟩ := resolveAll_run hready.tracing hbuilds hstart
  obtain ⟨blocks, hblocks, hasks⟩ := resolveAll_asks hready hbuilds hstart
  rw [hresolve] at hblocks
  rw [if_pos hlacks] at hresolve
  have hjoin : evaluation.tracing.join constraints (before ++ pattern :: after) start =
      (.ok none, resolved) := by
    unfold join
    rw [bind_ok hresolve]
    rfl
  have hcount : resolvedCount evaluation holdings constraints (before ++ pattern :: after) =
      before.length + 1 := resolvedCount_append hbefore hpattern
  -- An evaluation that is watched has the same candidates, and so it resolves as many patterns.
  have hcount' : resolvedCount evaluation.tracing holdings constraints (before ++ pattern :: after) =
      before.length + 1 := resolvedCount_append hbefore hpattern
  have hstats : resolved.stats = ⟨before.length + 1, 0, 0⟩ := by
    rw [hresolved.stats_eq, hcount', Nat.add_comm]
    rfl
  have hrun := run_eq_ofJoin (by simp) hjoin
  rw [Solutions.ofJoin, Option.elim_none] at hrun
  rw [hstats, show resolved.source = (resolved.source.1, blocks.flatten) from
    Prod.ext rfl (hblocks.trans (List.nil_append _))] at hrun
  refine ⟨_, _, blocks, hrun, ?_⟩
  rwa [hcount, List.take_append, List.take_of_length_le (Nat.le_succ _), Nat.add_sub_cancel_left,
    List.take_succ_cons, List.take_zero] at hasks

section

variable {first : TriplePattern} {rest : List TriplePattern}

/-- Patterns that all have candidates are answerable in the order of the join. -/
lemma answerable_of_candidates (hresolvable : Resolvable constraints patterns)
    (hcandidates : ∀ pattern ∈ patterns, evaluation.candidates holdings constraints pattern [] ≠ [])
    (hperm : (first :: rest).Perm patterns) : Answerable constraints (first :: rest) := by
  refine Answerable.of_subset ⟨hresolvable, ?_⟩ fun pattern => hperm.mem_iff.mp
  exact indifferent_of_candidates (fun pattern hpattern => (hresolvable pattern hpattern).1)
    (fun pattern hpattern => (hresolvable pattern hpattern).2) (lacksCandidates_eq_false hcandidates)

/-- **The join of patterns that all have candidates**: all are resolved, and the rows of the levels
account for the probes and the nodes. -/
lemma join_accounted (hready : evaluation.Ready holdings) (hresolvable : Resolvable constraints patterns)
    (hcandidates : ∀ pattern ∈ patterns, evaluation.candidates holdings constraints pattern [] ≠ [])
    (hsorted : evaluation.fewestFirst holdings constraints patterns = first :: rest)
    {languages : LanguageCache} (hlanguages : languages.Sound) (state : σ) :
    ∃ outcome joined, evaluation.join constraints patterns ⟨state, languages, .empty, .zero⟩ =
        (.ok outcome, joined) ∧
      joined.stats = ⟨patterns.length, ∑ k ∈ range patterns.length with JoinsAt (first :: rest) k,
        holdings.rowCount evaluation.graph constraints (first :: rest) k, 0⟩ ∧
      joined.arena.size +
          holdings.rowCount evaluation.graph constraints (first :: rest) patterns.length =
        ∑ k ∈ range patterns.length,
          holdings.rowCount evaluation.graph constraints (first :: rest) (k + 1) ∧
      Makes holdings joined.arena (evaluation.loops holdings constraints (first :: rest) [])
        outcome ∧
      (outcome.isNone = true ↔ evaluation.StopsEmpty holdings constraints (first :: rest)) := by
  have hperm := evaluation.fewestFirst_perm holdings constraints patterns
  rw [hsorted] at hperm
  have hanswerable := answerable_of_candidates hresolvable hcandidates hperm
  have hfirst := hcandidates first (hperm.mem_iff.mp List.mem_cons_self)
  let start : JoinState σ := ⟨state, languages, .empty, .zero⟩
  have hstart : start.languages.Sound := hlanguages
  obtain ⟨outcome, resolved, joined, hjoin, hresolved, hgrown, hmakes, hdry⟩ :=
    join_levels hready hresolvable.builds hstart (lacksCandidates_eq_false hcandidates) hsorted
  refine ⟨outcome, joined, hjoin, ?_, ?_, hmakes, ?_⟩
  · rw [hgrown.stats_eq, hresolved.stats_eq, resolvedCount_eq_length hcandidates,
      probeCount_eq hanswerable, hperm.length_eq]
    simp [start, EvaluationStats.zero]
  · have hsize : start.arena.size = 0 := rfl
    rw [hgrown.size_eq, hresolved.arena_eq, hsize, Nat.zero_add, ← hperm.length_eq,
      nodeCount_add hanswerable]
  · rw [hdry, runsDry_iff_stopsEmpty hfirst]

/-- **Where every pattern has candidates**, the rows of all levels account for the probes, the rows that
are given out and the nodes. -/
theorem run_joining (hready : evaluation.Ready holdings) (hresolvable : Resolvable constraints patterns)
    (hcandidates : ∀ pattern ∈ patterns, evaluation.candidates holdings constraints pattern [] ≠ [])
    (hsorted : evaluation.fewestFirst holdings constraints patterns = first :: rest)
    {languages : LanguageCache} (hlanguages : languages.Sound) (state : σ) :
    ∃ solutions languages' state',
      evaluation.run constraints patterns languages state =
        (some (.ok solutions), languages', state') ∧
      solutions.stats = ⟨patterns.length, ∑ k ∈ range patterns.length with JoinsAt (first :: rest) k,
        holdings.rowCount evaluation.graph constraints (first :: rest) k, 0⟩ ∧
      ∀ count, solutions.bound ≤ count → ∀ state,
        (solutions.take evaluation.source count state).2.1.stats = { solutions.stats with
          bindingsEmitted :=
            holdings.rowCount evaluation.graph constraints (first :: rest) patterns.length } ∧
        (evaluation.StopsEmpty holdings constraints (first :: rest) →
          holdings.rowCount evaluation.graph constraints (first :: rest) patterns.length = 0 ∧
            (solutions.take evaluation.source count state).2.1.allocated = 0) ∧
        (¬ evaluation.StopsEmpty holdings constraints (first :: rest) →
          (solutions.take evaluation.source count state).2.1.allocated =
            ∑ k ∈ range patterns.length,
              holdings.rowCount evaluation.graph constraints (first :: rest) (k + 1)) := by
  have hperm := evaluation.fewestFirst_perm holdings constraints patterns
  rw [hsorted] at hperm
  have hpatterns : patterns ≠ [] := by
    rintro rfl
    exact absurd hperm.eq_nil (List.cons_ne_nil _ _)
  have hrows : (evaluation.loops holdings constraints (first :: rest) []).length =
      holdings.rowCount evaluation.graph constraints (first :: rest) patterns.length := by
    rw [← hperm.length_eq,
      ← length_loops_take (answerable_of_candidates hresolvable hcandidates hperm), List.take_length]
  obtain ⟨outcome, joined, hjoin, hstats, hnodes, hmakes, hstops⟩ :=
    join_accounted hready hresolvable hcandidates hsorted hlanguages state
  let solutions := Solutions.ofJoin evaluation.policy outcome joined
  have hbefore : solutions.stats = joined.stats ∧ solutions.stage ≠ .unit ∧
      solutions.allocated = outcome.elim 0 fun _ => joined.arena.size := by
    cases outcome <;> exact ⟨rfl, nofun, rfl⟩
  obtain ⟨hsame, hstage, hallocated⟩ := hbefore
  have hlists := Solutions.lists_ofJoin hready.serves.reads evaluation.policy hmakes
  refine ⟨solutions, _, _, run_eq_ofJoin hpatterns hjoin, hsame.trans hstats, fun count hcount state => ?_⟩
  have hread := hlists.accounted hstage hcount state
  rw [List.length_map, hrows] at hread
  refine ⟨?_, fun hstop => ?_, fun hgo => ?_⟩
  · rw [hread.stats_eq, hsame, hstats, Nat.zero_add]
  · obtain rfl := Option.isNone_iff_eq_none.mp (hstops.mpr hstop)
    have hnone : evaluation.loops holdings constraints (first :: rest) [] = [] := hmakes
    rw [hnone] at hrows
    rw [hread.allocated_eq, hallocated, ← hrows]
    exact ⟨rfl, rfl⟩
  · obtain ⟨last, rfl⟩ := Option.ne_none_iff_exists'.mp fun hnone =>
      hgo (hstops.mp (Option.isNone_iff_eq_none.mpr hnone))
    rw [hread.allocated_eq, hallocated, ← hnodes]
    rfl

end

/-- **The work of an evaluation is accounted for.**  Over a source that holds certain quads, take a query
with patterns whose terms and constraints can be asked for.

If some pattern has no candidates, then the patterns up to the first such pattern are resolved, and are
counted; they are asked for in turn, and nothing else is asked and nothing is read, neither then nor by
reading the solutions, which have no row.

If every pattern has candidates, all are resolved and counted.  Let `R k` be the number of the consistent
rows of the first `k` patterns in the order of the join.  There are `R k` probes for each pattern that
shares a variable with the `k` before it, and in the end `R n` rows are given out.  The bindings take
`R 1 + … + R n` nodes, unless the join stops at a pattern without candidates under any row: then no row is
given out, and the nodes are given up. -/
theorem work_accounted (hready : evaluation.Ready holdings) (hpatterns : patterns ≠ [])
    (hresolvable : Resolvable constraints patterns) {languages : LanguageCache}
    (hlanguages : languages.Sound) (state : σ) :
    (∀ before pattern after, patterns = before ++ pattern :: after →
      (∀ earlier ∈ before, evaluation.candidates holdings constraints earlier [] ≠ []) →
      evaluation.candidates holdings constraints pattern [] = [] →
      let solutions := Solutions.none evaluation.policy ⟨before.length + 1, 0, 0⟩
      ∃ languages' state' blocks,
        evaluation.run constraints patterns languages state =
          (some (.ok solutions), languages', state') ∧
        evaluation.tracing.run constraints patterns languages (state, []) =
          (some (.ok solutions), languages', state', blocks.flatten) ∧
        List.Forall₂ (evaluation.AsksFor constraints) (before ++ [pattern]) blocks ∧
        readIn blocks.flatten = [] ∧
        ∀ count state, solutions.take evaluation.tracing.source count state =
          ([], solutions, state)) ∧
    ((∀ pattern ∈ patterns, evaluation.candidates holdings constraints pattern [] ≠ []) →
      let ordered := evaluation.fewestFirst holdings constraints patterns
      let R := holdings.rowCount evaluation.graph constraints ordered
      ∃ solutions languages' state',
        evaluation.run constraints patterns languages state =
          (some (.ok solutions), languages', state') ∧
        solutions.stats =
          ⟨patterns.length, ∑ k ∈ range patterns.length with JoinsAt ordered k, R k, 0⟩ ∧
        ∀ count, solutions.bound ≤ count → ∀ state,
          let drained := (solutions.take evaluation.source count state).2.1
          drained.stats = { solutions.stats with bindingsEmitted := R patterns.length } ∧
          (evaluation.StopsEmpty holdings constraints ordered →
            R patterns.length = 0 ∧ drained.allocated = 0) ∧
          (¬ evaluation.StopsEmpty holdings constraints ordered →
            drained.allocated = ∑ k ∈ range patterns.length, R (k + 1))) := by
  constructor
  · rintro before pattern after rfl hbefore hpattern solutions
    obtain ⟨languages', state', blocks, hrun, hasks⟩ :=
      run_lacking hready hresolvable hbefore hpattern hlanguages state
    refine ⟨languages', state', blocks, ?_, hrun, hasks, readIn_of_asksFor hasks,
      Solutions.take_none _ _⟩
    rw [run_tracing evaluation constraints _ languages state [], hrun]
  · intro hcandidates
    obtain ⟨first, rest, hsorted⟩ : ∃ first rest,
        evaluation.fewestFirst holdings constraints patterns = first :: rest := by
      apply List.exists_cons_of_ne_nil
      intro hnil
      have hperm := evaluation.fewestFirst_perm holdings constraints patterns
      rw [hnil] at hperm
      exact hpatterns hperm.symm.eq_nil
    rw [hsorted]
    exact run_joining hready hresolvable hcandidates hsorted hlanguages state

end Evaluation

/-- Two steps along the chain, and any step besides.  Both first steps are tried for a second, one of them
has one, and the third pattern is joined to this pair without a probe: there are 2 + 1 + 2 nodes.  A step
that leads nowhere ends the query before the last pattern is asked for. -/
theorem work_accounted_chain :
    let evaluation : Evaluation Unit := ⟨chainHoldings.source, .default, 1, .descending, .failOpen, 3⟩
    let step (predicate v w : String) : TriplePattern :=
      ⟨.var ⟨v⟩, .term (.iri ⟨predicate⟩), .var ⟨w⟩⟩
    let steps : List TriplePattern := [step "next" "a" "b", step "next" "b" "c", step "next" "d" "e"]
    (∃ solutions languages state',
      evaluation.run [] steps .empty () = (some (.ok solutions), languages, state') ∧
      solutions.stats = ⟨3, 2, 0⟩ ∧
      (solutions.drain evaluation.source ()).2.1.stats = ⟨3, 2, 2⟩ ∧
      (solutions.drain evaluation.source ()).2.1.allocated = 5) ∧
    ∃ languages state' asked asked',
      evaluation.tracing.run [] [step "next" "a" "b", step "past" "b" "c", step "next" "d" "e"]
          .empty ((), []) =
        (some (.ok (.none .failOpen ⟨2, 0, 0⟩)), languages, state', asked ++ asked') ∧
      evaluation.AsksFor [] (step "next" "a" "b") asked ∧
      evaluation.AsksFor [] (step "past" "b" "c") asked' := by
  intro evaluation step steps
  have hready : evaluation.Ready chainHoldings := ⟨chainHoldings.serves_source, by decide, by decide⟩
  have hresolvable : ∀ first second third, Resolvable [] [step first "a" "b", step second "b" "c",
      step third "d" "e"] := by
    simp [Resolvable, step, TriplePattern.Buildable, TriplePattern.Constrainable, TriplePattern.slots,
      positionPredicates, built_pure]
  let asked (predicate : String) : List Predicate :=
    [graphPredicate .default, termPredicate .predicate (.iri ⟨predicate⟩)]
  have hnext : chainHoldings.matching (asked "next") = [⟨0, 0⟩, ⟨0, 1⟩] := by decide +kernel
  have hpast : chainHoldings.matching (asked "past") = [] := by decide +kernel
  have hfound : ∀ v w, evaluation.candidates chainHoldings [] (step "next" v w) [] =
      [⟨0, 1⟩, ⟨0, 0⟩] :=
    fun v w => (congrArg evaluation.order.sorted hnext).trans (by cbv)
  have hnone : evaluation.candidates chainHoldings [] (step "past" "b" "c") [] = [] :=
    (congrArg evaluation.order.sorted hpast).trans (by cbv)
  constructor
  · have hsome : ∀ pattern ∈ steps, evaluation.candidates chainHoldings [] pattern [] ≠ [] := by
      simp [steps, hfound]
    have hordered : evaluation.fewestFirst chainHoldings [] steps = steps := by
      simp [Evaluation.fewestFirst, steps, List.mergeSort, hfound]
    have hholds : ∀ id,
        (termPredicate .predicate (.iri ⟨"next"⟩)).holdsOf (chainHoldings.quad id).record :=
      fun id => Quad.holdsOf_termPredicate.mpr rfl
    have hasks : ∀ pattern ∈ steps, ∀ id, chainHoldings.asks pattern id = true := by
      simp [steps, step, Holdings.asks, TriplePattern.slots, slotMeets, positionPredicates, built_pure,
        Record.meets, hholds]
    have hcount : ∀ k, chainHoldings.rowCount .default [] steps k =
        ((((chainHoldings.choices .default (steps.take k)).filter fun choice =>
          Functional (chainHoldings.said choice)).map
            fun choice v => (chainHoldings.said choice).lookup v).filter
              (satisfiesAll [] (steps.take k))).length := by
      intro k
      rw [Holdings.rowCount, Holdings.consistent, Holdings.answers_of_asks]
      exact fun pattern hpattern => hasks pattern (List.mem_of_mem_take hpattern)
    have hone : chainHoldings.rowCount .default [] steps 1 = 2 := (hcount 1).trans (by cbv)
    have htwo : chainHoldings.rowCount .default [] steps 2 = 1 := (hcount 2).trans (by cbv)
    have hthree : chainHoldings.rowCount .default [] steps 3 = 2 := (hcount 3).trans (by cbv)
    have hprobes : (∑ k ∈ range 3 with JoinsAt steps k,
        chainHoldings.rowCount .default [] steps k) = 2 := by
      have hjoins : (range 3).filter (JoinsAt steps) = {1} := by decide +kernel
      rw [hjoins, Finset.sum_singleton, hone]
    have hwork := (Evaluation.work_accounted hready (List.cons_ne_nil _ _) (hresolvable _ _ _)
      LanguageCache.sound_empty ()).2 hsome
    rw [hordered] at hwork
    obtain ⟨solutions, languages, state', hrun, hstats, hread⟩ := hwork
    obtain ⟨hdrained, hstop, hgo⟩ := hread _ (Nat.le_refl _) ()
    have hbefore : solutions.stats = ⟨3, 2, 0⟩ := hstats.trans (congrArg (EvaluationStats.mk 3 · 0) hprobes)
    have hgoes : ¬ evaluation.StopsEmpty chainHoldings [] steps := fun h =>
      absurd (hthree.symm.trans (hstop h).1) (by decide)
    refine ⟨solutions, languages, state', hrun, hbefore, ?_, ?_⟩
    · rw [hbefore] at hdrained
      exact hdrained.trans (congrArg (EvaluationStats.mk 3 2) hthree)
    · refine (hgo hgoes).trans ?_
      have hlength : steps.length = 3 := rfl
      rw [hlength, Finset.sum_range_succ, Finset.sum_range_succ, Finset.sum_range_one, hone, htwo,
        hthree]
  · obtain ⟨languages, state', blocks, -, hrun, hblocks, -⟩ :=
      (Evaluation.work_accounted hready (List.cons_ne_nil _ _) (hresolvable _ _ _)
        LanguageCache.sound_empty ()).1 [step "next" "a" "b"] (step "past" "b" "c")
        [step "next" "d" "e"] rfl (by simp [hfound]) hnone
    cases hblocks with
    | cons hfirst hrest =>
    cases hrest with
    | cons hsecond hmore =>
    cases hmore
    exact ⟨languages, state', _, _, by simpa using hrun, hfirst, hsecond⟩

end QuadStore
