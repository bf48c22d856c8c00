import Mathlib
import QuadStore.Proofs.NestedLoops

/-!
# The answers of a query

What a query without constraints asks for can be said without an evaluation.  For each of its
patterns choose a record of the graph, in all ways (`Holdings.choices`).  A choice is an answer if
every record is as the terms of its pattern ask, and if the chosen statements together give no
variable two terms (`Holdings.Fits`); what it says of the variables is its row.

The loops find just these rows, each as often as there are choices for it.  Whatever row the loops
start from, the rows they make are those of the choices that fit on top of it (`loops_perm`), and as
it is no matter in what order the patterns are (`answers_perm`), so are the rows of a query
(`rows_perm`).
-/

namespace QuadStore

/-- The record that is chosen for each pattern. -/
abbrev Choice := List (TriplePattern × RecordId)

namespace Holdings

variable (holdings : Holdings)

/-- The records of a graph. -/
def ofGraph (graph : GraphName) : List RecordId :=
  holdings.ids.filter fun id => (holdings.quad id).graph = graph

/-- All choices of a record of the graph for each pattern. -/
def choices (graph : GraphName) : List TriplePattern → List Choice
  | [] => [[]]
  | pattern :: rest => (holdings.ofGraph graph).flatMap fun id =>
    (choices graph rest).map ((pattern, id) :: ·)

/-- Whether a record is as the terms of a pattern ask, by value where the term is an object. -/
def asks (pattern : TriplePattern) (id : RecordId) : Bool :=
  pattern.slots.all (slotMeets (fun _ => none) (holdings.quad id).record)

/-- What the chosen statements say of the variables of the patterns. -/
def said (choice : Choice) : Assignments :=
  choice.flatMap fun (pattern, id) => pattern.valuesIn (holdings.quad id).triple

/-- A choice fits on top of a row: each record is as its pattern asks, and no variable is given two
terms. -/
def Fits (row : Assignments) (choice : Choice) : Prop :=
  (∀ x ∈ choice, holdings.asks x.1 x.2 = true) ∧ Functional (row ++ holdings.said choice)

instance (row : Assignments) : DecidablePred (holdings.Fits row) := fun choice =>
  inferInstanceAs (Decidable ((∀ x ∈ choice, holdings.asks x.1 x.2 = true) ∧
    Functional (row ++ holdings.said choice)))

/-- What the variables stand for in the choices that fit on top of a row. -/
def answersUnder (graph : GraphName) (patterns : List TriplePattern) (row : Assignments) :
    List (Variable → Option Term) :=
  ((holdings.choices graph patterns).filter fun choice => holdings.Fits row choice).map
    fun choice v => (row ++ holdings.said choice).lookup v

/-- **The answers of a query** in a graph: what the variables stand for in each choice that fits. -/
def answers (graph : GraphName) (patterns : List TriplePattern) : List (Variable → Option Term) :=
  holdings.answersUnder graph patterns []

variable {holdings}

/-! ## Choices, pattern by pattern -/

/-- What a choice says on top of a row, if it fits. -/
def meaning (holdings : Holdings) (row : Assignments) (choice : Choice) :
    Option (Variable → Option Term) :=
  if holdings.Fits row choice then some fun v => (row ++ holdings.said choice).lookup v else none

lemma answersUnder_eq (graph : GraphName) (patterns : List TriplePattern) (row : Assignments) :
    holdings.answersUnder graph patterns row =
      (holdings.choices graph patterns).filterMap (holdings.meaning row) := by
  unfold answersUnder
  rw [← List.filterMap_eq_map', List.filterMap_filter]
  refine List.filterMap_congr fun choice _ => ?_
  by_cases h : holdings.Fits row choice <;> simp [meaning, h]

lemma filterMap_choices_cons {α : Type} (graph : GraphName) (pattern : TriplePattern)
    (rest : List TriplePattern) (f : Choice → Option α) :
    (holdings.choices graph (pattern :: rest)).filterMap f =
      (holdings.ofGraph graph).flatMap fun id => (holdings.choices graph rest).filterMap
        fun choice => f ((pattern, id) :: choice) := by
  rw [choices, List.filterMap_flatMap]
  simp only [List.filterMap_map]
  rfl

lemma answersUnder_cons (graph : GraphName) (pattern : TriplePattern) (rest : List TriplePattern)
    (row : Assignments) :
    holdings.answersUnder graph (pattern :: rest) row =
      (holdings.ofGraph graph).flatMap fun id => (holdings.choices graph rest).filterMap
        fun choice => holdings.meaning row ((pattern, id) :: choice) := by
  rw [answersUnder_eq, filterMap_choices_cons]

lemma said_cons (pattern : TriplePattern) (id : RecordId) (choice : Choice) :
    holdings.said ((pattern, id) :: choice) =
      pattern.valuesIn (holdings.quad id).triple ++ holdings.said choice := rfl

/-- A record that is not as its pattern asks, or gives a variable a second term, spoils every choice
that it is part of. -/
lemma meaning_cons_of_not {row : Assignments} {pattern : TriplePattern} {id : RecordId}
    (h : ¬ (holdings.asks pattern id = true ∧
      Functional (row ++ pattern.valuesIn (holdings.quad id).triple))) (choice : Choice) :
    holdings.meaning row ((pattern, id) :: choice) = none := by
  refine if_neg fun hfits => h ⟨hfits.1 (pattern, id) List.mem_cons_self, ?_⟩
  refine functional_of_subset (fun x hx => ?_) hfits.2
  rw [said_cons, ← List.append_assoc]
  exact List.mem_append_left _ hx

/-- Any other record only extends the row. -/
lemma meaning_cons {row extended : Assignments} {pattern : TriplePattern} {id : RecordId}
    (hasks : holdings.asks pattern id = true)
    (hextended : ∀ x, x ∈ extended ↔ x ∈ row ++ pattern.valuesIn (holdings.quad id).triple)
    (choice : Choice) :
    holdings.meaning row ((pattern, id) :: choice) = holdings.meaning extended choice := by
  have hmem : ∀ x, x ∈ row ++ holdings.said ((pattern, id) :: choice) ↔
      x ∈ extended ++ holdings.said choice := fun x => by
    rw [said_cons, ← List.append_assoc, List.mem_append, ← hextended, ← List.mem_append]
  have hfits : holdings.Fits row ((pattern, id) :: choice) ↔ holdings.Fits extended choice := by
    unfold Fits
    rw [functional_congr hmem, List.forall_mem_cons]
    simp only [hasks, true_and]
  unfold meaning
  by_cases h : holdings.Fits extended choice
  · have h' := hfits.mpr h
    rw [if_pos h, if_pos h']
    exact congrArg some (funext fun v => lookup_congr h'.2 hmem v)
  · rw [if_neg h, if_neg (hfits.not.mpr h)]

/-- What a choice says does not depend on the order in which it was made. -/
lemma meaning_perm {row : Assignments} {choice choice' : Choice} (h : choice.Perm choice') :
    holdings.meaning row choice = holdings.meaning row choice' := by
  have hmem : ∀ x, x ∈ row ++ holdings.said choice ↔ x ∈ row ++ holdings.said choice' := fun x => by
    rw [List.mem_append, List.mem_append, said, said, (h.flatMap_right _).mem_iff]
  have hfits : holdings.Fits row choice ↔ holdings.Fits row choice' := by
    unfold Fits
    rw [functional_congr hmem]
    simp only [h.mem_iff]
  unfold meaning
  by_cases hfit : holdings.Fits row choice
  · rw [if_pos hfit, if_pos (hfits.mp hfit)]
    exact congrArg some (funext fun v => lookup_congr hfit.2 hmem v)
  · rw [if_neg hfit, if_neg (hfits.not.mp hfit)]

/-! ## The order of the patterns -/

lemma flatMap_swap {α β γ : Type} (as : List α) (bs : List β) (f : α → β → List γ) :
    (as.flatMap fun a => bs.flatMap (f a)).Perm (bs.flatMap fun b => as.flatMap fun a => f a b) := by
  induction as with
  | nil => simp
  | cons a as ih =>
    rw [List.flatMap_cons]
    exact (ih.append_left _).trans (List.flatMap_append_perm bs (f a) _)

/-- Anything that does not depend on the order in which a choice was made has the same outcomes for
the patterns in another order. -/
lemma filterMap_choices_perm {α : Type} (graph : GraphName) {patterns patterns' : List TriplePattern}
    (h : patterns.Perm patterns') {f : Choice → Option α}
    (hf : ∀ choice choice' : Choice, choice.Perm choice' → f choice = f choice') :
    ((holdings.choices graph patterns).filterMap f).Perm
      ((holdings.choices graph patterns').filterMap f) := by
  induction h generalizing f with
  | nil => exact .refl _
  | cons pattern _ ih =>
    rw [filterMap_choices_cons, filterMap_choices_cons]
    exact List.Perm.flatMap_left _ fun id _ =>
      ih fun choice choice' hperm => hf _ _ (hperm.cons _)
  | swap first second rest =>
    simp only [filterMap_choices_cons]
    refine (flatMap_swap _ _ _).trans (.of_eq ?_)
    simp only [hf _ _ (List.Perm.swap (first, _) (second, _) _)]
  | trans _ _ ih ih' => exact (ih hf).trans (ih' hf)

/-- **The answers do not depend on the order of the patterns.** -/
theorem answers_perm (graph : GraphName) {patterns patterns' : List TriplePattern}
    (h : patterns.Perm patterns') :
    (holdings.answers graph patterns).Perm (holdings.answers graph patterns') := by
  rw [answers, answers, answersUnder_eq, answersUnder_eq]
  exact filterMap_choices_perm graph h fun _ _ hperm => meaning_perm hperm

/-- A choice has a record for each pattern. -/
lemma exists_mem_of_mem_choices {graph : GraphName} {patterns : List TriplePattern}
    {pattern : TriplePattern} (hpattern : pattern ∈ patterns) {choice : Choice}
    (h : choice ∈ holdings.choices graph patterns) :
    ∃ id ∈ holdings.ofGraph graph, (pattern, id) ∈ choice := by
  induction patterns generalizing choice with
  | nil => cases hpattern
  | cons first rest ih =>
    obtain ⟨id, hid, hchoice⟩ := List.mem_flatMap.mp h
    obtain ⟨others, hothers, rfl⟩ := List.mem_map.mp hchoice
    rcases List.mem_cons.mp hpattern with rfl | hrest
    · exact ⟨id, hid, List.mem_cons_self⟩
    · obtain ⟨other, hother, hmem⟩ := ih hrest hothers
      exact ⟨other, hother, List.mem_cons_of_mem _ hmem⟩

/-- A choice has no pattern but those it was made for. -/
lemma mem_of_mem_choices {graph : GraphName} {patterns : List TriplePattern} {choice : Choice}
    (h : choice ∈ holdings.choices graph patterns) {x : TriplePattern × RecordId}
    (hx : x ∈ choice) : x.1 ∈ patterns := by
  induction patterns generalizing choice with
  | nil =>
    rw [List.mem_singleton.mp h] at hx
    cases hx
  | cons first rest ih =>
    obtain ⟨id, -, hchoice⟩ := List.mem_flatMap.mp h
    obtain ⟨others, hothers, rfl⟩ := List.mem_map.mp hchoice
    rcases List.mem_cons.mp hx with rfl | hrest
    · exact List.mem_cons_self
    · exact List.mem_cons_of_mem _ (ih hothers hrest)

/-- Where every record is as every pattern asks, a choice fits if it is consistent. -/
lemma answers_of_asks {graph : GraphName} {patterns : List TriplePattern}
    (h : ∀ pattern ∈ patterns, ∀ id, holdings.asks pattern id = true) :
    holdings.answers graph patterns =
      ((holdings.choices graph patterns).filter fun choice => Functional (holdings.said choice)).map
        fun choice v => (holdings.said choice).lookup v := by
  unfold answers answersUnder
  rw [List.filter_congr fun choice hchoice => decide_eq_decide.mpr ?_]
  · rfl
  · apply and_iff_right
    intro x hx
    exact h x.1 (mem_of_mem_choices hchoice hx) x.2

/-- An answer says something of exactly the variables of the patterns. -/
theorem isSome_of_mem_answers {graph : GraphName} {patterns : List TriplePattern}
    {answer : Variable → Option Term} (h : answer ∈ holdings.answers graph patterns) (v : Variable) :
    (answer v).isSome ↔ ∃ pattern ∈ patterns, v ∈ pattern.vars := by
  obtain ⟨choice, hchoice, rfl⟩ := List.mem_map.mp h
  have hchoices := List.mem_of_mem_filter hchoice
  rw [List.nil_append]
  constructor
  · intro hsome
    obtain ⟨term, hterm⟩ := Option.isSome_iff_exists.mp hsome
    obtain ⟨⟨pattern, id⟩, hx, hsaid⟩ := List.mem_flatMap.mp (mem_of_lookup hterm)
    obtain ⟨position, hslot, -⟩ := mem_slotValues.mp hsaid
    exact ⟨pattern, mem_of_mem_choices hchoices hx, TriplePattern.mem_vars.mpr ⟨position, hslot⟩⟩
  · rintro ⟨pattern, hpattern, hv⟩
    obtain ⟨position, hslot⟩ := TriplePattern.mem_vars.mp hv
    obtain ⟨id, -, hx⟩ := exists_mem_of_mem_choices hpattern hchoices
    exact lookup_isSome_of_mem (List.mem_flatMap.mpr ⟨_, hx, mem_slotValues.mpr ⟨position, hslot, rfl⟩⟩)

end Holdings

namespace Evaluation

variable {σ : Type} {evaluation : Evaluation σ} {holdings : Holdings}

/-! ## What the loops find -/

/-- A pattern whose own predicates can be built needs no others. -/
lemma builds_of_buildable {pattern : TriplePattern} (h : pattern.Buildable) :
    evaluation.Builds [] pattern := fun lookup =>
  (exists_built_queryPredicates evaluation.graph h lookup).imp fun _ hbuilt => hbuilt.1

/-- What the slots of a pattern ask under a row is what its terms ask, and that the statement agrees
with the row. -/
lemma all_slotMeets_iff {pattern : TriplePattern} {row : Assignments} {id : RecordId} :
    pattern.slots.all (slotMeets (row.lookup ·) (holdings.quad id).record) = true ↔
      holdings.asks pattern id = true ∧
        AgreesWith row (pattern.valuesIn (holdings.quad id).triple) := by
  rw [Holdings.asks, List.all_eq_true, List.all_eq_true]
  constructor
  · intro h
    refine ⟨fun slot hslot => ?_, fun v term hsaid value hvalue => ?_⟩
    · obtain ⟨position, term | v⟩ := slot
      · exact h (position, .term term) hslot
      · rfl
    · obtain ⟨position, hslot, rfl⟩ := mem_slotValues.mp hsaid
      have hmeets := h (position, .var v) hslot
      rw [slotMeets, hvalue, Option.all_some, Quad.holdsOf_termPredicate] at hmeets
      exact hmeets.symm
  · rintro ⟨hasks, hagrees⟩ ⟨position, term | v⟩ hslot
    · exact hasks (position, .term term) hslot
    · rw [slotMeets]
      cases hvalue : row.lookup v with
      | none => rfl
      | some value =>
        have hterm := hagrees v _ (mem_slotValues.mpr ⟨position, hslot, rfl⟩) value hvalue
        exact Quad.holdsOf_termPredicate.mpr hterm.symm

/-- **The candidates of a pattern under a row** are the records of the graph that are as its slots
ask. -/
theorem candidates_perm {pattern : TriplePattern} (h : pattern.Buildable) (row : Assignments) :
    (evaluation.candidates holdings [] pattern row).Perm
      ((holdings.ofGraph evaluation.graph).filter fun id =>
        pattern.slots.all (slotMeets (row.lookup ·) (holdings.quad id).record)) := by
  obtain ⟨filters, hfilters, hmeets⟩ :=
    exists_built_queryPredicates evaluation.graph h (row.lookup ·)
  unfold candidates
  rw [hfilters]
  refine (evaluation.order.sorted_perm _).trans (.of_eq ?_)
  rw [Holdings.matching, Holdings.ofGraph, List.filter_filter]
  refine List.filter_congr fun id _ => ?_
  rw [hmeets, Bool.and_comm]
  congr 1
  rw [Bool.eq_iff_iff, Quad.holdsOf_graphPredicate, decide_eq_true_iff]

lemma flatMap_filterMap {α β γ : Type} (f : α → Option β) (g : β → List γ) (as : List α) :
    (as.filterMap f).flatMap g = as.flatMap fun a => (f a).elim [] g := by
  rw [List.filterMap_eq_flatMap_toList, List.flatMap_assoc]
  refine congrArg as.flatMap (funext fun a => ?_)
  cases f a <;> simp

lemma flatMap_filter {α β : Type} (p : α → Bool) (f : α → List β) (as : List α) :
    (as.filter p).flatMap f = as.flatMap fun a => if p a then f a else [] := by
  induction as with
  | nil => rfl
  | cons a as ih =>
    rw [List.filter_cons, List.flatMap_cons, ← ih]
    split
    · rw [List.flatMap_cons]
    · rw [List.nil_append]

/-- **The loops find the answers**: what the rows they make of a row say is what the choices say that
fit on top of it, each as often. -/
theorem loops_perm {patterns : List TriplePattern}
    (hbuildable : ∀ pattern ∈ patterns, pattern.Buildable) {row : Assignments}
    (hrow : Distinct row) :
    ((evaluation.loops holdings [] patterns row).map fun (made : Assignments) v =>
        made.lookup v).Perm
      (holdings.answersUnder evaluation.graph patterns row) := by
  induction patterns generalizing row with
  | nil =>
    have hfits : holdings.Fits row [] := by
      refine ⟨fun x hx => absurd hx List.not_mem_nil, ?_⟩
      rw [Holdings.said, List.flatMap_nil, List.append_nil]
      exact hrow.functional
    have hmeaning : holdings.meaning row [] = some fun v => row.lookup v := by
      rw [Holdings.meaning, if_pos hfits, Holdings.said, List.flatMap_nil, List.append_nil]
    rw [Holdings.answersUnder_eq, Holdings.choices, List.filterMap_cons_some hmeaning]
    exact .refl _
  | cons pattern rest ih =>
    have hrest : ∀ other ∈ rest, other.Buildable := fun other hother =>
      hbuildable other (List.mem_cons_of_mem pattern hother)
    rw [loops, extensions, flatMap_filterMap, Holdings.answersUnder_cons, List.map_flatMap]
    refine ((candidates_perm (hbuildable pattern List.mem_cons_self) row).flatMap_right _).trans ?_
    rw [flatMap_filter]
    refine List.Perm.flatMap_left _ fun id _ => ?_
    by_cases hmeets : pattern.slots.all (slotMeets (row.lookup ·) (holdings.quad id).record) = true
    · obtain ⟨hasks, hagrees⟩ := all_slotMeets_iff.mp hmeets
      have hextend := extendRow_spec hrow hagrees
      rw [if_pos hmeets]
      split at hextend <;> rename_i hcase <;> rw [hcase]
      · obtain ⟨hdistinct, -, hmem⟩ := hextend
        simp only [Holdings.meaning_cons hasks hmem]
        rw [Option.elim_some, ← Holdings.answersUnder_eq]
        exact ih hrest hdistinct
      · simp only [Holdings.meaning_cons_of_not fun h => hextend h.2]
        exact .of_eq (List.filterMap_none _).symm
    · -- A statement that does not agree with the row gives one of its variables a second term.
      have hnot : ¬ (holdings.asks pattern id = true ∧
          Functional (row ++ pattern.valuesIn (holdings.quad id).triple)) := by
        rintro ⟨hasks, hfunctional⟩
        refine hmeets (all_slotMeets_iff.mpr ⟨hasks, fun v term hsaid value hvalue => ?_⟩)
        exact hfunctional _ (List.mem_append_left _ (mem_of_lookup hvalue)) _
          (List.mem_append_right _ hsaid) rfl
      rw [if_neg hmeets]
      simp only [Holdings.meaning_cons_of_not hnot]
      exact .of_eq (List.filterMap_none _).symm

/-- Every row gives each of its variables one value. -/
lemma distinct_of_mem_loops {patterns : List TriplePattern}
    (hbuildable : ∀ pattern ∈ patterns, pattern.Buildable) {row made : Assignments}
    (hrow : Distinct row) (h : made ∈ evaluation.loops holdings [] patterns row) :
    Distinct made := by
  induction patterns generalizing row with
  | nil =>
    rw [List.mem_singleton.mp h]
    exact hrow
  | cons pattern rest ih =>
    have hpattern := hbuildable pattern List.mem_cons_self
    obtain ⟨extended, hextended, hmade⟩ := List.mem_flatMap.mp h
    obtain ⟨id, hid, hextend⟩ := List.mem_filterMap.mp hextended
    have hmeets := List.of_mem_filter ((candidates_perm hpattern row).mem_iff.mp hid)
    have hspec := extendRow_spec hrow (all_slotMeets_iff.mp hmeets).2
    rw [hextend] at hspec
    exact ih (fun other hother => hbuildable other (List.mem_cons_of_mem pattern hother)) hspec.1 hmade

/-- A pattern without candidates has no answers. -/
lemma answers_of_lacksCandidates {patterns : List TriplePattern}
    (hbuildable : ∀ pattern ∈ patterns, pattern.Buildable)
    (h : evaluation.lacksCandidates holdings [] patterns = true) :
    holdings.answers evaluation.graph patterns = [] := by
  obtain ⟨pattern, hpattern, hempty⟩ := List.any_eq_true.mp h
  have hperm : (evaluation.candidates holdings [] pattern []).Perm _ :=
    candidates_perm (hbuildable pattern hpattern) []
  rw [List.isEmpty_iff.mp hempty] at hperm
  rw [Holdings.answers, Holdings.answersUnder, List.map_eq_nil_iff, List.filter_eq_nil_iff]
  intro choice hchoice hfits
  obtain ⟨id, hid, hmem⟩ := Holdings.exists_mem_of_mem_choices hpattern hchoice
  have hasks := (of_decide_eq_true hfits).1 _ hmem
  exact List.filter_eq_nil_iff.mp hperm.nil_eq.symm id hid hasks

/-- **The rows of a query are its answers**, each as often. -/
theorem rows_perm {patterns : List TriplePattern}
    (hbuildable : ∀ pattern ∈ patterns, pattern.Buildable) :
    ((evaluation.rows holdings [] patterns).map fun (row : Assignments) v => row.lookup v).Perm
      (holdings.answers evaluation.graph patterns) := by
  have hperm := evaluation.fewestFirst_perm holdings [] patterns
  unfold rows
  split
  · rename_i hlacks
    rw [answers_of_lacksCandidates hbuildable hlacks]
    exact .refl _
  · refine (loops_perm (fun pattern hpattern => ?_) distinct_nil).trans
      (Holdings.answers_perm evaluation.graph hperm)
    exact hbuildable pattern (hperm.mem_iff.mp hpattern)

lemma distinct_of_mem_rows {patterns : List TriplePattern}
    (hbuildable : ∀ pattern ∈ patterns, pattern.Buildable) {row : Assignments}
    (h : row ∈ evaluation.rows holdings [] patterns) : Distinct row := by
  have hperm := evaluation.fewestFirst_perm holdings [] patterns
  unfold rows at h
  split at h
  · cases h
  · exact distinct_of_mem_loops (fun pattern hpattern =>
      hbuildable pattern (hperm.mem_iff.mp hpattern)) distinct_nil h

/-! ## What an evaluation yields -/

/-- **An evaluation yields the answers of its query.**  Over a source that holds certain quads, a
query without constraints whose terms can be asked for is evaluated without a failure, in whatever
order the records come, however they are paged, and whatever was asked before.  Its rows, read to
their end, are the answers, each as often as there are choices of records for it; a row gives a value
to exactly the variables of the patterns, and each of them stands in it once. -/
theorem run_yields_answers (hready : evaluation.Ready holdings) {patterns : List TriplePattern}
    (hbuildable : ∀ pattern ∈ patterns, pattern.Buildable) {languages : LanguageCache}
    (hlanguages : languages.Sound) (state : σ) :
    ∃ solutions languages' state',
      evaluation.run [] patterns languages state = (some (.ok solutions), languages', state') ∧
      languages'.Sound ∧
      ∃ rows : List Binding,
        (∀ count, solutions.bound ≤ count → ∀ state,
          (solutions.take evaluation.source count state).1 = rows.map .ok) ∧
        (rows.map Binding.get?).Perm (holdings.answers evaluation.graph patterns) ∧
        ∀ row ∈ rows, (row.values.map Prod.fst).Nodup ∧
          ∀ v, (row.get? v).isSome ↔ ∃ pattern ∈ patterns, v ∈ pattern.vars := by
  have hbuilds : ∀ pattern ∈ patterns, evaluation.Builds [] pattern := fun pattern hpattern =>
    builds_of_buildable (hbuildable pattern hpattern)
  obtain ⟨solutions, languages', state', hrun, hsound, htake⟩ :=
    take_run hready hbuilds hlanguages state
  have hperm : (((evaluation.rows holdings [] patterns).map Binding.mk).map Binding.get?).Perm
      (holdings.answers evaluation.graph patterns) := by
    rw [List.map_map]
    exact rows_perm hbuildable
  refine ⟨solutions, languages', state', hrun, hsound,
    (evaluation.rows holdings [] patterns).map .mk, fun count hcount state => ?_, hperm,
    fun row hrow => ⟨?_, ?_⟩⟩
  · rw [htake count hcount, List.map_map]
    rfl
  · obtain ⟨values, hvalues, rfl⟩ := List.mem_map.mp hrow
    exact distinct_of_mem_rows hbuildable hvalues
  · exact Holdings.isSome_of_mem_answers (hperm.mem_iff.mp (List.mem_map_of_mem hrow))

end Evaluation

/-- Two statements of the default graph, one of which leads to the other. -/
def chainHoldings : Holdings where
  ids := [⟨0, 0⟩, ⟨0, 1⟩]
  nodup := by decide
  quad id := ⟨⟨.iri ⟨toString id.doc⟩, ⟨"next"⟩, .iri ⟨toString (id.doc + 1)⟩⟩, .default⟩
  wellFormed := fun _ _ => ⟨⟨trivial, trivial⟩, trivial⟩

/-- Two steps along the chain can be made in one way. -/
theorem run_yields_answers_chain :
    let evaluation : Evaluation Unit := ⟨chainHoldings.source, .default, 1, .descending, .failOpen, 3⟩
    let steps : List TriplePattern := [⟨.var ⟨"a"⟩, .term (.iri ⟨"next"⟩), .var ⟨"b"⟩⟩,
      ⟨.var ⟨"b"⟩, .term (.iri ⟨"next"⟩), .var ⟨"c"⟩⟩]
    ∃ solutions languages state',
      evaluation.run [] steps .empty () = (some (.ok solutions), languages, state') ∧
      ∃ rows : List Binding,
        (solutions.drain evaluation.source ()).1 = rows.map .ok ∧
        rows.map (fun row => (row.get? ⟨"a"⟩, row.get? ⟨"c"⟩)) =
          [(some (.iri ⟨"0"⟩), some (.iri ⟨"2"⟩))] := by
  intro evaluation steps
  have hready : evaluation.Ready chainHoldings := ⟨chainHoldings.serves_source, by decide, by decide⟩
  have hbuildable : ∀ pattern ∈ steps, pattern.Buildable := by
    simp [steps, TriplePattern.Buildable, TriplePattern.slots, positionPredicates, built_pure]
  have hnext : ∀ id,
      (termPredicate .predicate (.iri ⟨"next"⟩)).holdsOf (chainHoldings.quad id).record :=
    fun id => Quad.holdsOf_termPredicate.mpr rfl
  have hasks : ∀ pattern ∈ steps, ∀ id, chainHoldings.asks pattern id = true := by
    simp [steps, Holdings.asks, TriplePattern.slots, slotMeets, positionPredicates, built_pure,
      Record.meets, hnext]
  have hfits : ∀ choice ∈ chainHoldings.choices .default steps,
      decide (chainHoldings.Fits [] choice) = decide (Functional (chainHoldings.said choice)) := by
    intro choice hchoice
    refine decide_eq_decide.mpr (and_iff_right fun x hx => ?_)
    exact hasks _ (Holdings.mem_of_mem_choices hchoice hx) _
  have hfitting :
      (chainHoldings.choices .default steps).filter (fun choice => chainHoldings.Fits [] choice) =
        [[(steps[0], ⟨0, 0⟩), (steps[1], ⟨0, 1⟩)]] := by
    rw [List.filter_congr hfits]
    cbv
  obtain ⟨solutions, languages, state', hrun, -, rows, htake, hperm, -⟩ :=
    Evaluation.run_yields_answers hready hbuildable LanguageCache.sound_empty ()
  refine ⟨solutions, languages, state', hrun, rows, htake _ (Nat.le_refl _) (), ?_⟩
  have hvalues := hperm.map fun answer => (answer ⟨"a"⟩, answer ⟨"c"⟩)
  rw [Holdings.answers, Holdings.answersUnder, hfitting, List.map_map] at hvalues
  exact List.perm_singleton.mp hvalues

end QuadStore
