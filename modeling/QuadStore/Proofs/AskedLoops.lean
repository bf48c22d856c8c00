import Mathlib
import QuadStore.Proofs.QueryOrder

/-!
# Loops that ask every time

The plain way to answer a query is to ask a source.  Ask how many records there are for each pattern, put
the patterns in the order of these numbers, and go through them with one loop in the other, asking for the
records of a pattern anew for each row that the loops outside have made (`Evaluation.loopQuery`).  Such
loops need no arena and no candidate sets, and they finish one row before they begin the next.

An evaluation finishes one level before it begins the next, leaves out levels that are empty, and asks only
where a variable is shared.  It gives the same rows in the same order (`Evaluation.run_yields_loop_rows`),
since both give the rows of `Evaluation.loops`, in which nothing is asked.  The case that an evaluation
treats before all others, that of a pattern without any candidates, needs no treatment in the loops: such a
pattern comes first, and a loop over nothing makes no row.
-/

namespace QuadStore

variable {σ α β : Type}

/-! ## Steps that give a value -/

/-- A step that comes to a value, whatever was asked of the source and the cache before. -/
def JoinM.Gives (step : JoinM σ α) (value : α) : Prop :=
  ∀ state : JoinState σ, state.languages.Sound →
    ∃ state', step state = (.ok value, state') ∧ state'.languages.Sound

namespace JoinM

lemma gives_pure (value : α) : Gives (pure value : JoinM σ α) value :=
  fun state hlanguages => ⟨state, rfl, hlanguages⟩

lemma Gives.bind {step : JoinM σ α} {next : α → JoinM σ β} {a : α} {b : β} (hstep : step.Gives a)
    (hnext : (next a).Gives b) : (step >>= next).Gives b := by
  intro state hlanguages
  obtain ⟨state', hrun, hsound⟩ := hstep state hlanguages
  obtain ⟨state'', hrun', hsound'⟩ := hnext state' hsound
  exact ⟨state'', by rw [bind_ok hrun, hrun'], hsound'⟩

lemma Gives.mapM {step : α → JoinM σ β} {value : α → β} {list : List α}
    (h : ∀ a ∈ list, (step a).Gives (value a)) : (list.mapM step).Gives (list.map value) := by
  induction list with
  | nil =>
    rw [List.mapM_nil]
    exact gives_pure []
  | cons a list ih =>
    rw [List.mapM_cons]
    exact (h a List.mem_cons_self).bind
      ((ih fun b hb => h b (List.mem_cons_of_mem a hb)).bind (gives_pure _))

end JoinM

namespace Evaluation

/-! ## The loops -/

section

variable (evaluation : Evaluation σ) (constraints : List Constraint)

/-- The records that a pattern may match under a row, as the source finds them. -/
def ask (pattern : TriplePattern) (row : Assignments) : JoinM σ (List RecordId) := do
  let filters ← JoinM.building pattern
    (queryPredicates evaluation.graph constraints pattern (row.lookup ·))
  let scan := Scan.start filters evaluation.pageLength evaluation.order false
  JoinM.scanning pattern (scan.recordIds evaluation.source evaluation.fuel)

/-- The rows that loops over the patterns make of a row.  Each loop asks for its records, reads them one
after the other, and lets the loops inside it go through before it comes to the next. -/
def askedLoops : List TriplePattern → Assignments → JoinM σ (List Assignments)
  | [], row => return [row]
  | pattern :: rest, row => do
    let records ← evaluation.ask constraints pattern row
    let made ← records.mapM fun id => do
      let triple ← JoinM.asking pattern (evaluation.source.readTriple id)
      match extendRow pattern triple row with
      | none => return []
      | some extended => askedLoops rest extended
    return made.flatten

/-- The patterns in the order of the numbers of their records, those of one number as they were. -/
def askedOrder (patterns : List TriplePattern) : JoinM σ (List TriplePattern) := do
  let counted ← patterns.mapM fun pattern => do
    let records ← evaluation.ask constraints pattern []
    return (pattern, records.length)
  return (counted.mergeSort fun a b => decide (a.2 ≤ b.2)).map Prod.fst

/-- **A query answered by loops**: the rows of the loops over the patterns in their order. -/
def loopQuery (patterns : List TriplePattern) : JoinM σ (List Assignments) := do
  let ordered ← evaluation.askedOrder constraints patterns
  evaluation.askedLoops constraints ordered []

end

variable {evaluation : Evaluation σ} {holdings : Holdings} {constraints : List Constraint}

/-! ## What the loops give -/

/-- Asking gives the candidates. -/
lemma gives_ask (hready : evaluation.Ready holdings) {pattern : TriplePattern}
    (hbuilds : evaluation.Builds constraints pattern) (row : Assignments) :
    (evaluation.ask constraints pattern row).Gives
      (evaluation.candidates holdings constraints pattern row) := by
  intro state hlanguages
  obtain ⟨filters, hfilters⟩ := hbuilds (row.lookup ·)
  obtain ⟨languages, hsound, hbuilding⟩ :=
    building_run (transparent_queryPredicates _ _ _ _) pattern hlanguages
  rw [hfilters] at hbuilding
  obtain ⟨source, hscanning⟩ := scanning_run (hready.finds filters) pattern { state with languages }
  refine ⟨{ state with source, languages }, ?_, hsound⟩
  unfold ask
  rw [bind_ok hbuilding, hscanning]
  simp only [candidates, hfilters]

lemma gives_read (hready : evaluation.Ready holdings) (pattern : TriplePattern) {id : RecordId}
    (hid : id ∈ holdings.ids) :
    (JoinM.asking pattern (evaluation.source.readTriple id)).Gives (holdings.quad id).triple := by
  intro state hlanguages
  obtain ⟨source, hanswer⟩ := hready.serves.reads.run hid state.source
  refine ⟨{ state with source }, ?_, hlanguages⟩
  unfold JoinM.asking
  rw [hanswer]

/-- **The loops that ask** give the rows of the loops that do not. -/
theorem gives_askedLoops (hready : evaluation.Ready holdings) {patterns : List TriplePattern}
    (hbuilds : ∀ pattern ∈ patterns, evaluation.Builds constraints pattern) (row : Assignments) :
    (evaluation.askedLoops constraints patterns row).Gives
      (evaluation.loops holdings constraints patterns row) := by
  induction patterns generalizing row with
  | nil => exact JoinM.gives_pure [row]
  | cons pattern rest ih =>
    have hrest : ∀ other ∈ rest, evaluation.Builds constraints other := fun other hother =>
      hbuilds other (List.mem_cons_of_mem pattern hother)
    rw [loops, extensions, flatMap_filterMap, List.flatMap_def]
    refine (gives_ask hready (hbuilds pattern List.mem_cons_self) row).bind
      (.bind (.mapM fun id hid => ?_) (JoinM.gives_pure _))
    refine (gives_read hready pattern (mem_ids_of_mem_candidates hid)).bind ?_
    cases extendRow pattern (holdings.quad id).triple row with
    | none => exact JoinM.gives_pure []
    | some extended => exact ih hrest extended

/-- The order that is asked for is that of the numbers of candidates. -/
lemma gives_askedOrder (hready : evaluation.Ready holdings) {patterns : List TriplePattern}
    (hbuilds : ∀ pattern ∈ patterns, evaluation.Builds constraints pattern) :
    (evaluation.askedOrder constraints patterns).Gives
      (evaluation.fewestFirst holdings constraints patterns) := by
  let count (pattern : TriplePattern) : TriplePattern × Nat :=
    (pattern, (evaluation.candidates holdings constraints pattern []).length)
  have hordered : ((patterns.map count).mergeSort fun a b => decide (a.2 ≤ b.2)).map Prod.fst =
      evaluation.fewestFirst holdings constraints patterns := by
    have hkey : ∀ a ∈ patterns, ∀ b ∈ patterns,
        decide ((evaluation.candidates holdings constraints a []).length ≤
            (evaluation.candidates holdings constraints b []).length) =
          decide ((count a).2 ≤ (count b).2) := fun _ _ _ _ => rfl
    rw [fewestFirst, ← List.map_mergeSort hkey, List.map_map]
    exact List.map_id _
  have hcount : ∀ pattern ∈ patterns, JoinM.Gives (do
      let records ← evaluation.ask constraints pattern []
      return (pattern, records.length)) (count pattern) := fun pattern hpattern =>
    (gives_ask hready (hbuilds pattern hpattern) []).bind (JoinM.gives_pure _)
  rw [← hordered]
  exact (JoinM.Gives.mapM hcount).bind (JoinM.gives_pure _)

lemma gives_loopQuery (hready : evaluation.Ready holdings) {patterns : List TriplePattern}
    (hbuilds : ∀ pattern ∈ patterns, evaluation.Builds constraints pattern) :
    (evaluation.loopQuery constraints patterns).Gives
      (evaluation.loops holdings constraints
        (evaluation.fewestFirst holdings constraints patterns) []) := by
  have hperm := evaluation.fewestFirst_perm holdings constraints patterns
  refine (gives_askedOrder hready hbuilds).bind (gives_askedLoops hready (fun pattern hpattern => ?_) [])
  exact hbuilds pattern (hperm.mem_iff.mp hpattern)

/-! ## What an evaluation gives -/

/-- A pattern without candidates comes first in the order of the loops, and so they make no row. -/
lemma loops_fewestFirst_of_lacksCandidates {patterns : List TriplePattern}
    (h : evaluation.lacksCandidates holdings constraints patterns = true) :
    evaluation.loops holdings constraints
      (evaluation.fewestFirst holdings constraints patterns) [] = [] := by
  let size (pattern : TriplePattern) : Nat :=
    (evaluation.candidates holdings constraints pattern []).length
  obtain ⟨pattern, hpattern, hempty⟩ := List.any_eq_true.mp h
  have hmem : pattern ∈ evaluation.fewestFirst holdings constraints patterns :=
    (evaluation.fewestFirst_perm holdings constraints patterns).mem_iff.mpr hpattern
  have hsorted : (evaluation.fewestFirst holdings constraints patterns).Pairwise
      fun a b => decide (size a ≤ size b) := by
    apply List.pairwise_mergeSort
    · intro a b c hab hbc
      exact decide_eq_true (Nat.le_trans (of_decide_eq_true hab) (of_decide_eq_true hbc))
    · intro a b
      rw [Bool.or_eq_true, decide_eq_true_iff, decide_eq_true_iff]
      exact Nat.le_total _ _
  cases hfirst : evaluation.fewestFirst holdings constraints patterns with
  | nil =>
    rw [hfirst] at hmem
    cases hmem
  | cons first rest =>
    rw [hfirst] at hmem hsorted
    have hle : size first ≤ size pattern := by
      rcases List.mem_cons.mp hmem with rfl | hrest
      · exact Nat.le_refl _
      · exact of_decide_eq_true (List.rel_of_pairwise_cons hsorted hrest)
    have hnone : evaluation.candidates holdings constraints first [] = [] := by
      have hzero : size pattern = 0 := List.length_eq_zero_iff.mpr (List.isEmpty_iff.mp hempty)
      exact List.length_eq_zero_iff.mp (Nat.le_zero.mp (hzero ▸ hle))
    rw [loops, extensions, hnone]
    rfl

/-- **The rows of a query** are those of the loops, in every case. -/
theorem rows_eq_loops (evaluation : Evaluation σ) (holdings : Holdings) (constraints : List Constraint)
    (patterns : List TriplePattern) : evaluation.rows holdings constraints patterns =
      evaluation.loops holdings constraints
        (evaluation.fewestFirst holdings constraints patterns) [] := by
  unfold rows
  split
  · rename_i hlacks
    exact (loops_fewestFirst_of_lacksCandidates hlacks).symm
  · rfl

/-- What is found does not depend on the length of the pages in which it comes. -/
lemma rows_paged (evaluation : Evaluation σ) (holdings : Holdings) (constraints : List Constraint)
    (patterns : List TriplePattern) (pageLength : Nat) :
    Evaluation.rows { evaluation with pageLength } holdings constraints patterns =
      evaluation.rows holdings constraints patterns := by
  have hloops : ∀ patterns row,
      Evaluation.loops { evaluation with pageLength } holdings constraints patterns row =
        evaluation.loops holdings constraints patterns row := by
    intro patterns
    induction patterns with
    | nil => exact fun row => rfl
    | cons pattern rest ih =>
      intro row
      rw [loops, loops]
      exact List.flatMap_congr fun extended _ => ih extended
  rw [rows_eq_loops, rows_eq_loops, hloops]
  rfl

/-- **An evaluation gives the rows of plain loops, in their order.**  Over a source that holds certain
quads, take a query whose terms and constraints can be asked for.  There is one list of rows for all page
lengths: it is what the query yields, and what loops come to that go through the patterns in the order of
their numbers of records and ask the source for the records of a pattern under every single row. -/
theorem run_yields_loop_rows (hserves : evaluation.source.Serves holdings)
    (hfuel : holdings.ids.length < evaluation.fuel) {patterns : List TriplePattern}
    (hresolvable : Resolvable constraints patterns) :
    ∃ rows : List Binding, ∀ pageLength, 0 < pageLength →
      let paged : Evaluation σ := { evaluation with pageLength }
      paged.Yields constraints patterns rows ∧
        (paged.loopQuery constraints patterns).Gives (rows.map Binding.values) := by
  refine ⟨(evaluation.rows holdings constraints patterns).map .mk, fun pageLength hlength => ?_⟩
  intro paged
  have hready : paged.Ready holdings := ⟨hserves, hlength, hfuel⟩
  have hbuilds : ∀ pattern ∈ patterns, paged.Builds constraints pattern := by
    intro pattern hpattern
    obtain ⟨hbuildable, hconstrainable⟩ := hresolvable pattern hpattern
    exact builds_of_constrainable hbuildable hconstrainable
  rw [← rows_paged evaluation holdings constraints patterns pageLength]
  refine ⟨yields_rows hready hbuilds, ?_⟩
  rw [List.map_map, rows_eq_loops]
  have hvalues : (Binding.values ∘ Binding.mk : Assignments → Assignments) = id := rfl
  rw [hvalues, List.map_id]
  exact gives_loopQuery hready hbuilds

end Evaluation

/-- All pairs of edges of the chain, the second of which leads to its end.  The second pattern has fewer
records and comes first, and the pairs are the same in pages of one record and of five. -/
theorem run_yields_loop_rows_pairs :
    let evaluation : Evaluation Unit := ⟨chainHoldings.source, .default, 1, .ascending, .failOpen, 3⟩
    let edge (v w : String) : TriplePattern := ⟨.var ⟨v⟩, .term (.iri ⟨"next"⟩), .var ⟨w⟩⟩
    let constraints : List Constraint := [⟨⟨"d"⟩, .equal, .iri ⟨"2"⟩⟩]
    let node (name : String) : Term := .iri ⟨name⟩
    ∃ rows : List Binding,
      evaluation.Yields constraints [edge "a" "b", edge "c" "d"] rows ∧
      Evaluation.Yields { evaluation with pageLength := 5 } constraints
        [edge "a" "b", edge "c" "d"] rows ∧
      rows.map Binding.values =
        [[(⟨"c"⟩, node "1"), (⟨"d"⟩, node "2"), (⟨"a"⟩, node "0"), (⟨"b"⟩, node "1")],
          [(⟨"c"⟩, node "1"), (⟨"d"⟩, node "2"), (⟨"a"⟩, node "1"), (⟨"b"⟩, node "2")]] := by
  intro evaluation edge constraints node
  let edges : List TriplePattern := [edge "a" "b", edge "c" "d"]
  have hconstraint : Constraint.BuildableAt ⟨⟨"d"⟩, .equal, .iri ⟨"2"⟩⟩ .object := ⟨_, rfl⟩
  have hresolvable : Resolvable constraints edges := by
    simp [Resolvable, edges, edge, constraints, TriplePattern.Buildable, TriplePattern.Constrainable,
      TriplePattern.slots, hconstraint, positionPredicates, built_pure]
  have hserves : evaluation.source.Serves chainHoldings := chainHoldings.serves_source
  have hfuel : chainHoldings.ids.length < evaluation.fuel := by decide
  obtain ⟨rows, hrows⟩ := Evaluation.run_yields_loop_rows hserves hfuel hresolvable
  obtain ⟨hyields, hgives⟩ := hrows 1 (by decide)
  refine ⟨rows, hyields, (hrows 5 (by decide)).1, ?_⟩
  -- What the loops come to is worked out loop by loop.
  have hready : evaluation.Ready chainHoldings := ⟨hserves, by decide, hfuel⟩
  have hloops : (evaluation.loopQuery constraints edges).Gives _ :=
    Evaluation.gives_loopQuery hready fun pattern hpattern =>
      Evaluation.builds_of_constrainable (hresolvable pattern hpattern).1 (hresolvable pattern hpattern).2
  obtain ⟨_, hrun, -⟩ := hgives ⟨(), .empty, .empty, .zero⟩ LanguageCache.sound_empty
  obtain ⟨_, hrun', -⟩ := hloops ⟨(), .empty, .empty, .zero⟩ LanguageCache.sound_empty
  have hvalues := Except.ok.inj (congrArg Prod.fst (hrun.symm.trans hrun'))
  let asked : List Predicate := [graphPredicate .default, termPredicate .predicate (node "next")]
  have hall : chainHoldings.matching asked = [⟨0, 0⟩, ⟨0, 1⟩] := by decide +kernel
  have hlast : chainHoldings.matching (asked ++ [termPredicate .object (node "2")]) = [⟨0, 1⟩] := by
    decide +kernel
  let row : Assignments := [(⟨"c"⟩, node "1"), (⟨"d"⟩, node "2")]
  have hfirst : evaluation.candidates chainHoldings constraints (edge "a" "b") [] =
      [⟨0, 0⟩, ⟨0, 1⟩] :=
    (congrArg evaluation.order.sorted hall).trans (by cbv)
  have hfirst' : evaluation.candidates chainHoldings constraints (edge "a" "b") row =
      [⟨0, 0⟩, ⟨0, 1⟩] :=
    (congrArg evaluation.order.sorted hall).trans (by cbv)
  have hsecond : evaluation.candidates chainHoldings constraints (edge "c" "d") [] = [⟨0, 1⟩] :=
    (congrArg evaluation.order.sorted hlast).trans (by cbv)
  have hordered : evaluation.fewestFirst chainHoldings constraints edges =
      [edge "c" "d", edge "a" "b"] := by
    simp [Evaluation.fewestFirst, edges, List.mergeSort, hfirst, hsecond]
  have houter : evaluation.extensions chainHoldings constraints (edge "c" "d") [] = [row] := by
    rw [Evaluation.extensions, hsecond]
    decide
  have hinner : evaluation.extensions chainHoldings constraints (edge "a" "b") row =
      [row ++ [(⟨"a"⟩, node "0"), (⟨"b"⟩, node "1")],
        row ++ [(⟨"a"⟩, node "1"), (⟨"b"⟩, node "2")]] := by
    rw [Evaluation.extensions, hfirst']
    decide
  rw [hvalues, hordered]
  simp only [Evaluation.loops, houter, hinner, List.flatMap_cons, List.flatMap_nil, List.append_nil]
  rfl

end QuadStore
