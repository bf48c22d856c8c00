import Mathlib
import QuadStore.Proofs.ArenaTree
import QuadStore.Proofs.BuildingPredicates
import QuadStore.Proofs.Holdings
import QuadStore.Proofs.RowExtension
import QuadStore.Solutions

/-!
# The join is nested loops

A query can be answered by loops, one in the other: for each record that the first pattern may match,
extend the row; for each record that the second pattern may match *under that row*, extend it again;
and so on (`Evaluation.loops`).  The evaluation goes about it otherwise.  It joins level by level,
keeps all bindings of a level in an arena, and does not ask again for a pattern that shares no
variable with a binding.

Over a source that holds certain quads the two give the same rows in the same order
(`Evaluation.take_run`).  What carries the proof is the invariant of a level: the candidates of a
set stand, one for one, for the records that the pattern may match under the rows of the level
before (`Stands`).  A step of a level reads one candidate and puts the candidates of the next pattern
behind the others.

There is one exception, which the evaluation makes before it joins.  If some pattern has no
candidates at all, there are no rows.
-/

namespace QuadStore

variable {σ : Type}

/-! ## Binding in the arena -/

/-- **Binding a statement** below a node that stands for a row makes a node that stands for the
extended row, if there is one. -/
theorem Arena.bind_of_represents {arena : Arena} {parent : Option Handle} {row : Assignments}
    (h : arena.Represents parent row) (pattern : TriplePattern) (triple : Triple) :
    match extendRow pattern triple row with
    | none => arena.bind parent pattern triple = none
    | some extended => ∃ handle arena', arena.bind parent pattern triple = some (handle, arena') ∧
        arena'.Extends arena ∧ arena'.size = arena.size + 1 ∧
        arena'.Represents (some handle) extended := by
  have hbound : (fun v => (arena.lookup parent v).isSome) = fun v => (row.lookup v).isSome :=
    funext fun v => congrArg Option.isSome (h.lookup_eq v)
  unfold extendRow bind
  rw [hbound]
  cases hcollect : collectValues (fun v => (row.lookup v).isSome) triple pattern.slots [] with
  | none => rfl
  | some found =>
    refine ⟨_, _, rfl, arena.extends_extend parent found, by simp [size],
      represents_extend found h fun v hv => ?_⟩
    obtain ⟨term, hterm⟩ := Option.isSome_iff_exists.mp hv
    simpa using isOpen_of_collectValues hcollect (mem_of_lookup hterm)

/-- A candidate stands for a record and the row under which it was found. -/
structure Stands (arena : Arena) (candidate : Match) (item : RecordId × Assignments) : Prop where
  record_eq : candidate.record = item.1
  represents : arena.Represents candidate.parent item.2

lemma Stands.of_extends {before after : Arena} {candidate : Match} {item : RecordId × Assignments}
    (h : Stands before candidate item) (hextends : after.Extends before) :
    Stands after candidate item where
  record_eq := h.record_eq
  represents := h.represents.of_extends hextends

namespace Evaluation

/-! ## The loops -/

section

variable (evaluation : Evaluation σ) (holdings : Holdings) (constraints : List Constraint)

/-- The records that a pattern may match under a row. -/
def candidates (pattern : TriplePattern) (row : Assignments) : List RecordId :=
  match built (queryPredicates evaluation.graph constraints pattern (row.lookup ·)) with
  | .ok filters => evaluation.order.sorted (holdings.matching filters)
  | .error _ => []

/-- The rows that the candidates of a pattern make of a row. -/
def extensions (pattern : TriplePattern) (row : Assignments) : List Assignments :=
  (evaluation.candidates holdings constraints pattern row).filterMap fun id =>
    extendRow pattern (holdings.quad id).triple row

/-- The rows that nested loops over the patterns make of a row. -/
def loops : List TriplePattern → Assignments → List Assignments
  | [], row => [row]
  | pattern :: rest, row =>
    (evaluation.extensions holdings constraints pattern row).flatMap (loops rest)

/-- Some pattern has no candidates at all. -/
def lacksCandidates (patterns : List TriplePattern) : Bool :=
  patterns.any fun pattern => (evaluation.candidates holdings constraints pattern []).isEmpty

/-- The patterns in the order of their numbers of candidates. -/
def fewestFirst (patterns : List TriplePattern) : List TriplePattern :=
  patterns.mergeSort fun a b => decide
    ((evaluation.candidates holdings constraints a []).length ≤
      (evaluation.candidates holdings constraints b []).length)

/-- The rows of a query: none if some pattern has no candidates, and else those of the loops over the
patterns, the one with the fewest candidates first. -/
def rows (patterns : List TriplePattern) : List Assignments :=
  if evaluation.lacksCandidates holdings constraints patterns then []
  else evaluation.loops holdings constraints
    (evaluation.fewestFirst holdings constraints patterns) []

/-- What the evaluation needs to come to an end without a failure. -/
structure Ready : Prop where
  serves : evaluation.source.Serves holdings
  pageLength_pos : 0 < evaluation.pageLength
  fuel_lt : holdings.ids.length < evaluation.fuel

/-- A scan for some predicates comes to an end, having found these records. -/
structure Finds (filters : List Predicate) (found : List RecordId) : Prop where
  nodup : found.Nodup
  answers : evaluation.source.Answers filters found
  pageLength_pos : 0 < evaluation.pageLength
  length_lt : found.length < evaluation.fuel

/-- The predicates of a pattern can be built under every binding. -/
def Builds (pattern : TriplePattern) : Prop :=
  ∀ lookup, ∃ filters,
    built (queryPredicates evaluation.graph constraints pattern lookup) = .ok filters

end

variable {evaluation : Evaluation σ} {holdings : Holdings} {constraints : List Constraint}

lemma mem_ids_of_mem_candidates {pattern : TriplePattern} {row : Assignments} {id : RecordId}
    (h : id ∈ evaluation.candidates holdings constraints pattern row) : id ∈ holdings.ids := by
  unfold candidates at h
  split at h
  · exact List.mem_of_mem_filter ((evaluation.order.sorted_perm _).mem_iff.mp h)
  · cases h

/-- A pattern that shares no variable with a row has the candidates that it has under none. -/
lemma candidates_of_disjoint {pattern : TriplePattern} {row : Assignments}
    (h : ∀ position v, (position, Slot.var v) ∈ pattern.slots → row.lookup v = none) :
    evaluation.candidates holdings constraints pattern row =
      evaluation.candidates holdings constraints pattern [] := by
  unfold candidates
  rw [queryPredicates_congr _ _ fun position v hslot =>
    (h position v hslot).trans (show none = List.lookup v [] from rfl)]

/-! ## Asking for the candidates -/

/-- Building predicates, or failing to, changes the cache only. -/
lemma building_run {α : Type} {computation : Building α} (htransparent : Transparent computation)
    (pattern : TriplePattern) {state : JoinState σ} (hlanguages : state.languages.Sound) :
    ∃ languages, languages.Sound ∧ JoinM.building pattern computation state =
      ((built computation).mapError fun fault => .failed ⟨pattern, .filter fault⟩,
        { state with languages }) := by
  obtain ⟨hvalue, hsound⟩ := htransparent _ hlanguages
  refine ⟨_, hsound, ?_⟩
  rw [← hvalue]
  unfold JoinM.building
  rcases computation state.languages with ⟨fault | value, languages⟩ <;> rfl

lemma Ready.finds (hready : evaluation.Ready holdings) (filters : List Predicate) :
    evaluation.Finds filters (holdings.matching filters) where
  nodup := holdings.nodup_matching filters
  answers := hready.serves.answers filters
  pageLength_pos := hready.pageLength_pos
  length_lt := Nat.lt_of_le_of_lt (holdings.length_matching_le filters) hready.fuel_lt

/-- A scan gives the records that it finds, and changes the source only. -/
lemma scanning_run {filters : List Predicate} {found : List RecordId}
    (hfinds : evaluation.Finds filters found) (pattern : TriplePattern) (state : JoinState σ) :
    ∃ source, JoinM.scanning pattern
        ((Scan.start filters evaluation.pageLength evaluation.order false).recordIds
          evaluation.source evaluation.fuel) state =
      (.ok (evaluation.order.sorted found), { state with source }) := by
  obtain ⟨source, hscan⟩ := Scan.recordIds_of_answers evaluation.order hfinds.nodup hfinds.answers
    hfinds.pageLength_pos hfinds.length_lt state.source
  refine ⟨source, ?_⟩
  unfold JoinM.scanning
  simp only [hscan]

/-- Resolving a pattern gives what is found for its predicates. -/
lemma resolve_of_finds {pattern : TriplePattern} {binding : Option Handle} (state : JoinState σ)
    {filters : List Predicate}
    (hfilters : built (queryPredicates evaluation.graph constraints pattern
      (state.arena.lookup binding)) = .ok filters)
    {found : List RecordId} (hfinds : evaluation.Finds filters found)
    (hlanguages : state.languages.Sound) :
    ∃ source languages, languages.Sound ∧
      evaluation.resolve constraints pattern binding state =
        (.ok (evaluation.order.sorted found), { state with source, languages }) := by
  obtain ⟨languages, hsound, hbuilding⟩ :=
    building_run (transparent_queryPredicates _ _ _ _) pattern hlanguages
  rw [hfilters] at hbuilding
  obtain ⟨source, hscanning⟩ := scanning_run hfinds pattern { state with languages }
  refine ⟨source, languages, hsound, ?_⟩
  unfold resolve
  rw [get_bind, bind_ok hbuilding]
  exact hscanning

/-- **Resolving a pattern** under a binding gives its candidates under the row that the binding
stands for, and changes nothing but the source and the cache. -/
theorem resolve_run (hready : evaluation.Ready holdings) {pattern : TriplePattern}
    (hbuilds : evaluation.Builds constraints pattern) {binding : Option Handle} {row : Assignments}
    {state : JoinState σ} (hrow : state.arena.Represents binding row)
    (hlanguages : state.languages.Sound) :
    ∃ source languages, languages.Sound ∧
      evaluation.resolve constraints pattern binding state =
        (.ok (evaluation.candidates holdings constraints pattern row),
          { state with source, languages }) := by
  have hlookup : state.arena.lookup binding = (row.lookup ·) := funext hrow.lookup_eq
  obtain ⟨filters, hfilters⟩ := hbuilds (row.lookup ·)
  simp only [candidates, hfilters]
  rw [← hlookup] at hfilters
  exact resolve_of_finds state hfilters (hready.finds filters) hlanguages

/-! ## One candidate -/

/-- What a stretch of the evaluation does besides its outcome: the arena and the number of probes
grow, and the cache stays sound. -/
structure Grown (before after : JoinState σ) (nodes probes : Nat) : Prop where
  extends_arena : after.arena.Extends before.arena
  size_eq : after.arena.size = before.arena.size + nodes
  sound : after.languages.Sound
  stats_eq : after.stats = { before.stats with joinProbes := before.stats.joinProbes + probes }

lemma Grown.trans {a b c : JoinState σ} {nodes probes nodes' probes' : Nat}
    (hab : Grown a b nodes probes) (hbc : Grown b c nodes' probes') :
    Grown a c (nodes + nodes') (probes + probes') where
  extends_arena := hbc.extends_arena.trans hab.extends_arena
  size_eq := by rw [hbc.size_eq, hab.size_eq, Nat.add_assoc]
  sound := hbc.sound
  stats_eq := by rw [hbc.stats_eq, hab.stats_eq, Nat.add_assoc]

lemma grown_refl {state : JoinState σ} (h : state.languages.Sound) : Grown state state 0 0 :=
  ⟨state.arena.extends_refl, rfl, h, rfl⟩

/-- **Reading and binding a candidate** extends the row that it stands for. -/
theorem bindMatch_run (hready : evaluation.Ready holdings) (pattern : TriplePattern)
    {candidate : Match} {item : RecordId × Assignments} {state : JoinState σ}
    (hstands : Stands state.arena candidate item) (hitem : item.1 ∈ holdings.ids)
    (hlanguages : state.languages.Sound) :
    match extendRow pattern (holdings.quad item.1).triple item.2 with
    | none => ∃ state', evaluation.bindMatch pattern candidate state = (.ok none, state') ∧
        Grown state state' 0 0
    | some row => ∃ handle state',
        evaluation.bindMatch pattern candidate state = (.ok (some handle), state') ∧
          Grown state state' 1 0 ∧ state'.arena.Represents (some handle) row := by
  obtain ⟨record, parent⟩ := candidate
  obtain ⟨id, row⟩ := item
  obtain ⟨rfl, hrow⟩ := hstands
  obtain ⟨source, hanswer⟩ := hready.serves.reads.run hitem state.source
  have hasking : JoinM.asking pattern (evaluation.source.readTriple record) state =
      (.ok (holdings.quad record).triple, { state with source }) := by
    unfold JoinM.asking
    rw [hanswer]
  have hbind := Arena.bind_of_represents hrow pattern (holdings.quad record).triple
  unfold bindMatch
  rw [bind_ok hasking, get_bind]
  split <;> rename_i hextend <;> rw [hextend] at hbind
  · exact ⟨{ state with source }, by simp only [hbind]; rfl,
      state.arena.extends_refl, rfl, hlanguages, rfl⟩
  · obtain ⟨handle, arena, hbind, hextends, hsize, hrepresents⟩ := hbind
    refine ⟨handle, { state with source, arena }, by simp only [hbind]; rfl, ?_, hrepresents⟩
    exact ⟨hextends, hsize, hlanguages, rfl⟩

/-- A pattern has a variable that a row gives a value. -/
def shares (pattern : TriplePattern) (row : Assignments) : Bool :=
  pattern.vars.any fun v => (row.lookup v).isSome

/-- A pattern that was resolved under no binding. -/
def Fresh (evaluation : Evaluation σ) (holdings : Holdings) (constraints : List Constraint)
    (leaf : Leaf) : Prop :=
  leaf.records = evaluation.candidates holdings constraints leaf.pattern []

/-- **The candidates of the next pattern** under a new binding are those under its row, whether they
are asked for or kept. -/
theorem extendLeaf_run (hready : evaluation.Ready holdings) {next : Leaf}
    (hbuilds : evaluation.Builds constraints next.pattern)
    (hnext : Fresh evaluation holdings constraints next) {handle : Handle} {row : Assignments}
    {state : JoinState σ} (hrow : state.arena.Represents (some handle) row)
    (hlanguages : state.languages.Sound) :
    ∃ state', evaluation.extendLeaf constraints next handle state =
        (.ok ⟨next.pattern, evaluation.candidates holdings constraints next.pattern row,
          some handle⟩, state') ∧
      Grown state state' 0 (if shares next.pattern row then 1 else 0) := by
  have hshares : (next.pattern.vars.any fun v => (state.arena.lookup (some handle) v).isSome) =
      shares next.pattern row :=
    congrArg next.pattern.vars.any (funext fun v => congrArg Option.isSome (hrow.lookup_eq v))
  unfold extendLeaf
  rw [get_bind]
  simp only [hshares]
  split
  · let counted : JoinState σ :=
      { state with stats.joinProbes := state.stats.joinProbes + 1 }
    obtain ⟨source, languages, hsound, hresolve⟩ := resolve_run hready hbuilds
      (show counted.arena.Represents (some handle) row from hrow) hlanguages
    refine ⟨{ counted with source, languages }, ?_, state.arena.extends_refl, rfl, hsound, rfl⟩
    have hcount : (countProbe : JoinM σ Unit) state = (.ok (), counted) := rfl
    rw [bind_ok hcount, bind_ok hresolve]
    rfl
  · rename_i hnone
    refine ⟨state, ?_, grown_refl hlanguages⟩
    have hdisjoint : ∀ position v, (position, Slot.var v) ∈ next.pattern.slots →
        row.lookup v = none := by
      intro position v hslot
      have hv := List.any_eq_false.mp (Bool.not_eq_true _ ▸ hnone) v
        (TriplePattern.mem_vars.mpr ⟨position, hslot⟩)
      exact Option.not_isSome_iff_eq_none.mp hv
    rw [candidates_of_disjoint hdisjoint, ← hnext]
    rfl

/-! ## One level -/

/-- The rows that the candidates of a pattern make of the rows under which they were found. -/
def levelRows (holdings : Holdings) (pattern : TriplePattern)
    (items : List (RecordId × Assignments)) : List Assignments :=
  items.filterMap fun item => extendRow pattern (holdings.quad item.1).triple item.2

/-- The candidates of a pattern under some rows. -/
def itemsUnder (evaluation : Evaluation σ) (holdings : Holdings) (constraints : List Constraint)
    (pattern : TriplePattern) (rows : List Assignments) : List (RecordId × Assignments) :=
  rows.flatMap fun row =>
    (evaluation.candidates holdings constraints pattern row).map fun id => (id, row)

/-- A composite whose candidates stand for these items. -/
structure Holds (arena : Arena) (composite : Composite) (pattern : TriplePattern)
    (items : List (RecordId × Assignments)) : Prop where
  pattern_eq : composite.pattern = pattern
  size_eq : composite.size = composite.candidates.length
  stands : List.Forall₂ (Stands arena) composite.candidates items

lemma holds_empty (arena : Arena) (pattern : TriplePattern) :
    Holds arena (Composite.empty pattern) pattern [] := ⟨rfl, rfl, .nil⟩

lemma Holds.of_extends {before after : Arena} {composite : Composite} {pattern : TriplePattern}
    {items : List (RecordId × Assignments)} (h : Holds before composite pattern items)
    (hextends : after.Extends before) : Holds after composite pattern items where
  pattern_eq := h.pattern_eq
  size_eq := h.size_eq
  stands := h.stands.imp fun _ _ hstands => hstands.of_extends hextends

/-- The candidates of a leaf stand for its records under its binding's row. -/
lemma stands_candidates {arena : Arena} {leaf : Leaf} {row : Assignments}
    (h : arena.Represents leaf.parent row) :
    List.Forall₂ (Stands arena) leaf.candidates (leaf.records.map fun id => (id, row)) := by
  rw [Leaf.candidates, List.forall₂_map_left_iff, List.forall₂_map_right_iff, List.forall₂_same]
  exact fun id _ => ⟨rfl, h⟩

lemma candidates_add (composite : Composite) (leaf : Leaf) :
    (composite.add leaf).candidates = composite.candidates ++ leaf.candidates := by
  unfold Composite.add
  split
  · rename_i hempty
    rw [Leaf.candidates, List.isEmpty_iff.mp hempty, List.map_nil, List.append_nil]
  · simp [Composite.candidates]

lemma Holds.add {arena : Arena} {composite : Composite} {leaf : Leaf}
    {items : List (RecordId × Assignments)} {row : Assignments}
    (h : Holds arena composite leaf.pattern items) (hrow : arena.Represents leaf.parent row) :
    Holds arena (composite.add leaf) leaf.pattern
      (items ++ leaf.records.map fun id => (id, row)) where
  pattern_eq := by
    unfold Composite.add
    split <;> exact h.pattern_eq
  size_eq := by
    rw [candidates_add, List.length_append, ← h.size_eq, Leaf.candidates, List.length_map]
    unfold Composite.add
    split
    · rename_i hempty
      rw [List.isEmpty_iff.mp hempty]
      rfl
    · rfl
  stands := by
    rw [candidates_add]
    exact List.rel_append h.stands (stands_candidates hrow)

/-- **A level of the join** puts, behind what the composite holds, the candidates of the next pattern
under each row that the current candidates make. -/
theorem joinLevel_run (hready : evaluation.Ready holdings) (pattern : TriplePattern) {next : Leaf}
    (hbuilds : evaluation.Builds constraints next.pattern)
    (hnext : Fresh evaluation holdings constraints next) {current : List Match}
    {items behind : List (RecordId × Assignments)} {composite : Composite} {state : JoinState σ}
    (hstands : List.Forall₂ (Stands state.arena) current items)
    (hitems : ∀ item ∈ items, item.1 ∈ holdings.ids)
    (hcomposite : Holds state.arena composite next.pattern behind)
    (hlanguages : state.languages.Sound) :
    ∃ composite' state', evaluation.joinLevel constraints pattern next current composite state =
        (.ok composite', state') ∧
      Grown state state' (levelRows holdings pattern items).length
        ((levelRows holdings pattern items).countP (shares next.pattern)) ∧
      Holds state'.arena composite' next.pattern
        (behind ++ itemsUnder evaluation holdings constraints next.pattern
          (levelRows holdings pattern items)) := by
  induction items generalizing current behind composite state with
  | nil =>
    cases hstands
    refine ⟨composite, state, rfl, grown_refl hlanguages, ?_⟩
    rw [levelRows, List.filterMap_nil, itemsUnder, List.flatMap_nil, List.append_nil]
    exact hcomposite
  | cons item items ih =>
    cases hstands with
    | cons hfirst hrest =>
      rename_i candidate current
      have hrestIds : ∀ item ∈ items, item.1 ∈ holdings.ids := fun other hother =>
        hitems other (List.mem_cons_of_mem item hother)
      have hbind := bindMatch_run hready pattern hfirst (hitems item List.mem_cons_self) hlanguages
      unfold joinLevel
      cases hextend : extendRow pattern (holdings.quad item.1).triple item.2 with
      | none =>
        -- The statement does not fit, and the level goes on with the arena as it was.
        rw [hextend] at hbind
        obtain ⟨state₁, hrun, hgrown⟩ := hbind
        have hrows : levelRows holdings pattern (item :: items) =
            levelRows holdings pattern items := List.filterMap_cons_none hextend
        obtain ⟨composite', state', hlevel, hgrown', hholds⟩ := ih
          (hrest.imp fun _ _ h => h.of_extends hgrown.extends_arena) hrestIds
          (hcomposite.of_extends hgrown.extends_arena) hgrown.sound
        rw [bind_ok hrun, hrows]
        refine ⟨composite', state', hlevel, ?_, hholds⟩
        simpa using hgrown.trans hgrown'
      | some row =>
        -- The new node is read while the rest of the level is still of the arena before it.
        rw [hextend] at hbind
        obtain ⟨handle, state₁, hrun, hgrown, hrow⟩ := hbind
        have hrows : levelRows holdings pattern (item :: items) =
            row :: levelRows holdings pattern items := List.filterMap_cons_some hextend
        obtain ⟨state₂, hleaf, hgrown₂⟩ := extendLeaf_run hready hbuilds hnext hrow hgrown.sound
        have hextends := hgrown₂.extends_arena.trans hgrown.extends_arena
        let leaf : Leaf :=
          ⟨next.pattern, evaluation.candidates holdings constraints next.pattern row, some handle⟩
        have hadded : Holds state₂.arena (composite.add leaf) next.pattern
            (behind ++ leaf.records.map fun id => (id, row)) :=
          Holds.add (hcomposite.of_extends hextends) (hrow.of_extends hgrown₂.extends_arena)
        obtain ⟨composite', state', hlevel, hgrown', hholds⟩ := ih
          (hrest.imp fun _ _ h => h.of_extends hextends) hrestIds hadded hgrown₂.sound
        rw [hrows]
        refine ⟨composite', state', (bind_ok hrun).trans ((bind_ok hleaf).trans hlevel), ?_, ?_⟩
        · have hall := (hgrown.trans hgrown₂).trans hgrown'
          rw [List.length_cons, List.countP_cons]
          convert hall using 1 <;> omega
        · rw [itemsUnder, List.flatMap_cons, ← List.append_assoc]
          exact hholds

/-! ## All levels -/

lemma levelRows_itemsUnder (evaluation : Evaluation σ) (holdings : Holdings)
    (constraints : List Constraint) (pattern : TriplePattern) (rows : List Assignments) :
    levelRows holdings pattern (itemsUnder evaluation holdings constraints pattern rows) =
      rows.flatMap (evaluation.extensions holdings constraints pattern) := by
  rw [levelRows, itemsUnder, List.filterMap_flatMap]
  simp only [List.filterMap_map, Function.comp_def]
  rfl

/-- The bindings that a join of these patterns to some rows makes. -/
def nodeCount (evaluation : Evaluation σ) (holdings : Holdings) (constraints : List Constraint) :
    List TriplePattern → List Assignments → Nat
  | [], _ => 0
  | next :: rest, rows => rows.length + nodeCount evaluation holdings constraints rest
      (rows.flatMap (evaluation.extensions holdings constraints next))

/-- The probes that a join of these patterns to some rows makes: one for each row of a level with
which the next pattern shares a variable. -/
def probeCount (evaluation : Evaluation σ) (holdings : Holdings) (constraints : List Constraint) :
    List TriplePattern → List Assignments → Nat
  | [], _ => 0
  | next :: rest, rows => rows.countP (shares next) + probeCount evaluation holdings constraints rest
      (rows.flatMap (evaluation.extensions holdings constraints next))

lemma nodeCount_nil (patterns : List TriplePattern) :
    nodeCount evaluation holdings constraints patterns [] = 0 := by
  induction patterns with
  | nil => rfl
  | cons next rest ih => rw [nodeCount, List.flatMap_nil, ih, List.length_nil]

lemma probeCount_nil (patterns : List TriplePattern) :
    probeCount evaluation holdings constraints patterns [] = 0 := by
  induction patterns with
  | nil => rfl
  | cons next rest ih => rw [probeCount, List.flatMap_nil, ih, List.countP_nil]

/-- Whether a join of these patterns to some rows comes to a level without candidates. -/
def runsDry (evaluation : Evaluation σ) (holdings : Holdings) (constraints : List Constraint) :
    List TriplePattern → List Assignments → Bool
  | [], _ => false
  | next :: rest, rows => (itemsUnder evaluation holdings constraints next rows).isEmpty ||
    runsDry evaluation holdings constraints rest
      (rows.flatMap (evaluation.extensions holdings constraints next))

/-- What a join has come to: no set where no row is made, and else a set whose candidates make the
rows. -/
def Makes (holdings : Holdings) (arena : Arena) (rows : List Assignments) :
    Option CandidateSet → Prop
  | none => rows = []
  | some last => ∃ items, List.Forall₂ (Stands arena) last.candidates items ∧
      (∀ item ∈ items, item.1 ∈ holdings.ids) ∧ levelRows holdings last.pattern items = rows

lemma mem_ids_of_mem_itemsUnder {pattern : TriplePattern} {rows : List Assignments}
    {item : RecordId × Assignments}
    (h : item ∈ itemsUnder evaluation holdings constraints pattern rows) :
    item.1 ∈ holdings.ids := by
  obtain ⟨row, -, hitem⟩ := List.mem_flatMap.mp h
  obtain ⟨id, hid, rfl⟩ := List.mem_map.mp hitem
  exact mem_ids_of_mem_candidates hid

/-- **The levels of a join** make of the rows of the first set what the loops over the other patterns
make of them.  There is no set in the end only if some level has no candidates. -/
theorem joinRest_run (hready : evaluation.Ready holdings) {leaves : List Leaf}
    (hleaves : ∀ leaf ∈ leaves, evaluation.Builds constraints leaf.pattern ∧
      Fresh evaluation holdings constraints leaf)
    {pivot : CandidateSet} {rows : List Assignments} {state : JoinState σ}
    (hpivot : Makes holdings state.arena rows (some pivot)) (hlanguages : state.languages.Sound) :
    ∃ outcome state', evaluation.joinRest constraints pivot leaves state = (.ok outcome, state') ∧
      Grown state state'
        (nodeCount evaluation holdings constraints (leaves.map Leaf.pattern) rows)
        (probeCount evaluation holdings constraints (leaves.map Leaf.pattern) rows) ∧
      Makes holdings state'.arena
        (rows.flatMap (evaluation.loops holdings constraints (leaves.map Leaf.pattern))) outcome ∧
      outcome.isNone = runsDry evaluation holdings constraints (leaves.map Leaf.pattern) rows := by
  induction leaves generalizing pivot rows state with
  | nil =>
    have hloops : rows.flatMap (evaluation.loops holdings constraints []) = rows := by
      simp [loops]
    refine ⟨some pivot, state, rfl, grown_refl hlanguages, ?_, rfl⟩
    rw [List.map_nil, hloops]
    exact hpivot
  | cons next rest ih =>
    obtain ⟨hbuilds, hnext⟩ := hleaves next List.mem_cons_self
    obtain ⟨items, hstands, hitems, rfl⟩ := hpivot
    obtain ⟨composite, state₁, hlevel, hgrown, hholds⟩ := joinLevel_run hready pivot.pattern hbuilds
      hnext hstands hitems (holds_empty state.arena next.pattern) hlanguages
    rw [List.nil_append] at hholds
    have hmade := levelRows_itemsUnder evaluation holdings constraints next.pattern
      (levelRows holdings pivot.pattern items)
    have hloops : (levelRows holdings pivot.pattern items).flatMap
          (evaluation.loops holdings constraints (next.pattern :: rest.map Leaf.pattern)) =
        ((levelRows holdings pivot.pattern items).flatMap
          (evaluation.extensions holdings constraints next.pattern)).flatMap
            (evaluation.loops holdings constraints (rest.map Leaf.pattern)) := by
      rw [List.flatMap_assoc]
      rfl
    rw [List.map_cons, nodeCount, probeCount, runsDry, hloops, ← hmade]
    unfold joinRest
    rw [bind_ok hlevel]
    by_cases hsize : composite.size = 0
    · -- A level without candidates makes no row, and neither do the levels after it.
      have hnone : itemsUnder evaluation holdings constraints next.pattern
          (levelRows holdings pivot.pattern items) = [] := by
        rw [← List.length_eq_zero_iff, ← hholds.stands.length_eq, ← hholds.size_eq, hsize]
      have hempty : levelRows holdings next.pattern [] = [] := rfl
      rw [if_pos hsize, hnone, hempty, nodeCount_nil, probeCount_nil]
      exact ⟨none, state₁, rfl, hgrown, rfl, rfl⟩
    · rw [if_neg hsize]
      have hsome : (itemsUnder evaluation holdings constraints next.pattern
          (levelRows holdings pivot.pattern items)).isEmpty = false := by
        rw [List.isEmpty_eq_false_iff, ← List.length_pos_iff, ← hholds.stands.length_eq,
          ← hholds.size_eq]
        exact Nat.pos_of_ne_zero hsize
      have hcomposite : Makes holdings state₁.arena
          (levelRows holdings next.pattern (itemsUnder evaluation holdings constraints next.pattern
            (levelRows holdings pivot.pattern items))) (some (.composite composite)) :=
        ⟨_, hholds.stands, fun _ => mem_ids_of_mem_itemsUnder,
          congrArg (levelRows holdings · _) hholds.pattern_eq⟩
      obtain ⟨outcome, state', hrest, hgrown', hmakes, hdry⟩ := ih
        (fun leaf hleaf => hleaves leaf (List.mem_cons_of_mem next hleaf)) hcomposite hgrown.sound
      rw [hsome, Bool.false_or]
      exact ⟨outcome, state', hrest, hgrown.trans hgrown', hmakes, hdry⟩

/-! ## The join -/

/-- What resolving a pattern on its own gives. -/
def firstLeaf (evaluation : Evaluation σ) (holdings : Holdings) (constraints : List Constraint)
    (pattern : TriplePattern) : Leaf :=
  ⟨pattern, evaluation.candidates holdings constraints pattern [], none⟩

/-- The leaf of a pattern makes the rows of the outermost loop. -/
lemma makes_firstLeaf (arena : Arena) (pattern : TriplePattern) :
    Makes holdings arena (evaluation.extensions holdings constraints pattern [])
      (some (.leaf (evaluation.firstLeaf holdings constraints pattern))) := by
  refine ⟨_, stands_candidates arena.represents_none, fun item hitem => ?_, ?_⟩
  · obtain ⟨id, hid, rfl⟩ := List.mem_map.mp hitem
    exact mem_ids_of_mem_candidates hid
  · rw [levelRows, List.filterMap_map]
    rfl

/-- How many patterns are resolved on their own: all up to the first without candidates. -/
def resolvedCount (evaluation : Evaluation σ) (holdings : Holdings) (constraints : List Constraint) :
    List TriplePattern → Nat
  | [] => 0
  | pattern :: rest =>
    if (evaluation.candidates holdings constraints pattern []).isEmpty then 1
    else resolvedCount evaluation holdings constraints rest + 1

/-- What resolving so many patterns on their own does besides its outcome. -/
structure Resolved (before after : JoinState σ) (count : Nat) : Prop where
  arena_eq : after.arena = before.arena
  sound : after.languages.Sound
  stats_eq : after.stats =
    { before.stats with patternsResolved := before.stats.patternsResolved + count }

/-- **Resolving all patterns** gives a leaf for each, unless one has no candidates. -/
theorem resolveAll_run (hready : evaluation.Ready holdings) {patterns : List TriplePattern}
    (hbuilds : ∀ pattern ∈ patterns, evaluation.Builds constraints pattern) {state : JoinState σ}
    (hlanguages : state.languages.Sound) :
    ∃ state', evaluation.resolveAll constraints patterns state =
        (.ok (if evaluation.lacksCandidates holdings constraints patterns then none
          else some (patterns.map (evaluation.firstLeaf holdings constraints))), state') ∧
      Resolved state state' (resolvedCount evaluation holdings constraints patterns) := by
  induction patterns generalizing state with
  | nil => exact ⟨state, rfl, rfl, hlanguages, rfl⟩
  | cons pattern rest ih =>
    obtain ⟨source, languages, hsound, hresolve⟩ := resolve_run hready
      (hbuilds pattern List.mem_cons_self) state.arena.represents_none hlanguages
    let resolved : JoinState σ := { state with source, languages }
    let counted : JoinState σ :=
      { resolved with stats.patternsResolved := resolved.stats.patternsResolved + 1 }
    have hcount : (countPattern : JoinM σ Unit) resolved = (.ok (), counted) := rfl
    unfold resolveAll
    rw [bind_ok hresolve, bind_ok hcount, lacksCandidates, List.any_cons, resolvedCount]
    by_cases hempty : (evaluation.candidates holdings constraints pattern []).isEmpty
    · rw [if_pos hempty, if_pos (by rw [hempty, Bool.true_or]), if_pos hempty]
      exact ⟨counted, rfl, rfl, hsound, rfl⟩
    · have hcounted : counted.languages.Sound := hsound
      obtain ⟨state', hrest, hresolved⟩ := ih
        (fun other hother => hbuilds other (List.mem_cons_of_mem pattern hother)) hcounted
      rw [if_neg hempty, bind_ok hrest, Bool.eq_false_of_not_eq_true hempty, Bool.false_or]
      refine ⟨state', ?_, hresolved.arena_eq, hresolved.sound, ?_⟩
      · unfold lacksCandidates
        split <;> rfl
      · rw [hresolved.stats_eq, if_neg Bool.false_ne_true, Nat.add_comm _ 1, ← Nat.add_assoc]

/-- The leaves are put in order by the number of their records. -/
lemma joinOrder_map_firstLeaf (patterns : List TriplePattern) :
    joinOrder (patterns.map (evaluation.firstLeaf holdings constraints)) =
      (evaluation.fewestFirst holdings constraints patterns).map
        (evaluation.firstLeaf holdings constraints) := by
  have hkey : ∀ a ∈ patterns, ∀ b ∈ patterns,
      decide ((evaluation.candidates holdings constraints a []).length ≤
          (evaluation.candidates holdings constraints b []).length) =
        decide ((evaluation.firstLeaf holdings constraints a).size ≤
          (evaluation.firstLeaf holdings constraints b).size) := fun _ _ _ _ => rfl
  exact (List.map_mergeSort hkey).symm

lemma fewestFirst_perm (evaluation : Evaluation σ) (holdings : Holdings)
    (constraints : List Constraint) (patterns : List TriplePattern) :
    (evaluation.fewestFirst holdings constraints patterns).Perm patterns :=
  List.mergeSort_perm patterns _

/-- The query without patterns has the row that binds nothing. -/
lemma rows_nil : evaluation.rows holdings constraints [] = [[]] := by
  simp [rows, lacksCandidates, fewestFirst, loops]

/-- Where some pattern has no candidates, there is nothing to join. -/
theorem join_lacking (hready : evaluation.Ready holdings) {patterns : List TriplePattern}
    (hbuilds : ∀ pattern ∈ patterns, evaluation.Builds constraints pattern) {state : JoinState σ}
    (hlanguages : state.languages.Sound)
    (hlacks : evaluation.lacksCandidates holdings constraints patterns = true) :
    ∃ state', evaluation.join constraints patterns state = (.ok none, state') ∧
      Resolved state state' (resolvedCount evaluation holdings constraints patterns) := by
  obtain ⟨resolved, hresolve, hresolved⟩ := resolveAll_run hready hbuilds hlanguages
  unfold join
  rw [bind_ok hresolve, if_pos hlacks]
  exact ⟨resolved, rfl, hresolved⟩

/-- **The levels of the join of a query** go over the patterns in the order of their candidates, once
all have been resolved. -/
theorem join_levels (hready : evaluation.Ready holdings) {patterns : List TriplePattern}
    (hbuilds : ∀ pattern ∈ patterns, evaluation.Builds constraints pattern) {state : JoinState σ}
    (hlanguages : state.languages.Sound)
    (hlacks : evaluation.lacksCandidates holdings constraints patterns = false)
    {first : TriplePattern} {rest : List TriplePattern}
    (hsorted : evaluation.fewestFirst holdings constraints patterns = first :: rest) :
    ∃ outcome resolved state', evaluation.join constraints patterns state = (.ok outcome, state') ∧
      Resolved state resolved (resolvedCount evaluation holdings constraints patterns) ∧
      Grown resolved state'
        (nodeCount evaluation holdings constraints rest
          (evaluation.extensions holdings constraints first []))
        (probeCount evaluation holdings constraints rest
          (evaluation.extensions holdings constraints first [])) ∧
      Makes holdings state'.arena (evaluation.loops holdings constraints (first :: rest) [])
        outcome ∧
      outcome.isNone = runsDry evaluation holdings constraints rest
        (evaluation.extensions holdings constraints first []) := by
  obtain ⟨resolved, hresolve, hresolved⟩ := resolveAll_run hready hbuilds hlanguages
  have hperm := evaluation.fewestFirst_perm holdings constraints patterns
  rw [hsorted] at hperm
  have hleaves : ∀ leaf ∈ rest.map (evaluation.firstLeaf holdings constraints),
      evaluation.Builds constraints leaf.pattern ∧ Fresh evaluation holdings constraints leaf := by
    intro leaf hleaf
    obtain ⟨pattern, hpattern, rfl⟩ := List.mem_map.mp hleaf
    exact ⟨hbuilds pattern (hperm.mem_iff.mp (List.mem_cons_of_mem first hpattern)), rfl⟩
  have hrestPatterns :
      (rest.map (evaluation.firstLeaf holdings constraints)).map Leaf.pattern = rest := by
    rw [List.map_map]
    exact List.map_id rest
  obtain ⟨outcome, state', hrest, hgrown, hmakes, hdry⟩ := joinRest_run hready hleaves
    (makes_firstLeaf resolved.arena first) hresolved.sound
  rw [hrestPatterns] at hgrown hmakes hdry
  refine ⟨outcome, resolved, state', ?_, hresolved, hgrown, hmakes, hdry⟩
  unfold join
  rw [bind_ok hresolve, hlacks, if_neg Bool.false_ne_true]
  simp only [joinOrder_map_firstLeaf, hsorted, List.map_cons]
  exact hrest

/-- **The join makes the rows of the query.** -/
theorem join_run (hready : evaluation.Ready holdings) {patterns : List TriplePattern}
    (hpatterns : patterns ≠ [])
    (hbuilds : ∀ pattern ∈ patterns, evaluation.Builds constraints pattern) {state : JoinState σ}
    (hlanguages : state.languages.Sound) :
    ∃ outcome state', evaluation.join constraints patterns state = (.ok outcome, state') ∧
      state'.languages.Sound ∧
      Makes holdings state'.arena (evaluation.rows holdings constraints patterns) outcome := by
  have hperm := evaluation.fewestFirst_perm holdings constraints patterns
  unfold rows
  by_cases hlacks : evaluation.lacksCandidates holdings constraints patterns
  · rw [if_pos hlacks]
    obtain ⟨state', hjoin, hresolved⟩ := join_lacking hready hbuilds hlanguages hlacks
    exact ⟨none, state', hjoin, hresolved.sound, rfl⟩
  · rw [if_neg hlacks]
    cases hsorted : evaluation.fewestFirst holdings constraints patterns with
    | nil =>
      rw [hsorted] at hperm
      exact absurd hperm.nil_eq.symm hpatterns
    | cons first rest =>
      obtain ⟨outcome, resolved, state', hjoin, -, hgrown, hmakes, -⟩ := join_levels hready hbuilds
        hlanguages (Bool.eq_false_of_not_eq_true hlacks) hsorted
      exact ⟨outcome, state', hjoin, hgrown.sound, hmakes⟩

end Evaluation

/-! ## Reading the last set -/

open Evaluation (levelRows Makes Ready Builds)

namespace Solutions

variable {source : RecordSource σ} {holdings : Holdings}

/-- Solutions that give these rows, in whatever state the source is, and end. -/
def Lists (source : RecordSource σ) (solutions : Solutions) (bindings : List Binding) : Prop :=
  ∀ count, solutions.bound ≤ count → ∀ state,
    (solutions.take source count state).1 = bindings.map .ok

/-- **The next row** is the one that the first fitting candidate makes; the candidates behind it make
the others. -/
theorem nextRow_run (hreads : source.Reads holdings.ids fun id => (holdings.quad id).triple)
    (pattern : TriplePattern) {candidates : List Match} {items : List (RecordId × Assignments)} {solutions : Solutions}
    (hstands : List.Forall₂ (Stands solutions.arena) candidates items)
    (hitems : ∀ item ∈ items, item.1 ∈ holdings.ids) (state : σ) :
    match levelRows holdings pattern items with
    | [] => ∃ state', nextRow source pattern candidates solutions state =
        (Option.none, { solutions with stage := .done }, state')
    | row :: more => ∃ rest items' arena state', nextRow source pattern candidates solutions state =
          (some (.ok ⟨row⟩), { solutions with stage := .rows pattern rest, arena }.emit, state') ∧
        List.Forall₂ (Stands arena) rest items' ∧ (∀ item ∈ items', item.1 ∈ holdings.ids) ∧
        levelRows holdings pattern items' = more ∧ items'.length < items.length := by
  induction items generalizing candidates state with
  | nil =>
    cases hstands
    exact ⟨state, rfl⟩
  | cons item items ih =>
    cases hstands with
    | cons hfirst hrest =>
      rename_i candidate rest
      have hrestIds : ∀ other ∈ items, other.1 ∈ holdings.ids := fun other hother =>
        hitems other (List.mem_cons_of_mem item hother)
      obtain ⟨record, parent⟩ := candidate
      obtain ⟨id, row⟩ := item
      obtain ⟨rfl, hrow⟩ := hfirst
      obtain ⟨state₁, hanswer⟩ := hreads.run (hitems _ List.mem_cons_self) state
      have hbind := Arena.bind_of_represents hrow pattern (holdings.quad record).triple
      unfold nextRow
      simp only [hanswer]
      cases hextend : extendRow pattern (holdings.quad record).triple row with
      | none =>
        rw [hextend] at hbind
        have hrows : levelRows holdings pattern ((record, row) :: items) =
            levelRows holdings pattern items := List.filterMap_cons_none hextend
        have hnext := ih hrest hrestIds state₁
        simp only [hbind, hrows]
        split <;> rename_i hmade <;> rw [hmade] at hnext
        · exact hnext
        · obtain ⟨rest', items', arena, state', hnext, hstands', hitems', hmore, hlt⟩ := hnext
          exact ⟨rest', items', arena, state', hnext, hstands', hitems', hmore, Nat.lt_succ_of_lt hlt⟩
      | some extended =>
        rw [hextend] at hbind
        obtain ⟨handle, arena, hbind, hextends, -, hrepresents⟩ := hbind
        have hrows : levelRows holdings pattern ((record, row) :: items) =
            extended :: levelRows holdings pattern items := List.filterMap_cons_some hextend
        simp only [hbind, hrows]
        refine ⟨rest, items, arena, state₁, ?_, hrest.imp fun _ _ h => h.of_extends hextends,
          hrestIds, rfl, Nat.lt_succ_self _⟩
        rw [hrepresents.materialize_eq]

/-- **Enough steps give all rows.** -/
theorem take_run (hreads : source.Reads holdings.ids fun id => (holdings.quad id).triple)
    {pattern : TriplePattern} {candidates : List Match} {items : List (RecordId × Assignments)} {solutions : Solutions}
    (hstage : solutions.stage = .rows pattern candidates)
    (hstands : List.Forall₂ (Stands solutions.arena) candidates items)
    (hitems : ∀ item ∈ items, item.1 ∈ holdings.ids) {count : Nat} (hcount : items.length < count)
    (state : σ) :
    (solutions.take source count state).1 =
      (levelRows holdings pattern items).map fun row => .ok ⟨row⟩ := by
  induction count generalizing candidates items solutions state with
  | zero => cases hcount
  | succ count ih =>
    have hnext := nextRow_run hreads pattern hstands hitems state
    have hstep : solutions.next source state = nextRow source pattern candidates solutions state := by
      unfold next
      rw [hstage]
    cases hrows : levelRows holdings pattern items with
    | nil =>
      rw [hrows] at hnext
      obtain ⟨state', hnext⟩ := hnext
      unfold take
      rw [hstep, hnext]
      rfl
    | cons row more =>
      rw [hrows] at hnext
      obtain ⟨rest, items', arena, state', hnext, hstands', hitems', hmore, hlt⟩ := hnext
      let left := { solutions with stage := .rows pattern rest, arena }.emit
      have hstage' : left.stage = .rows pattern rest := rfl
      have hrest := ih hstage' hstands' hitems' (Nat.lt_of_lt_of_le hlt (Nat.le_of_lt_succ hcount))
        state'
      unfold take
      rw [hstep, hnext, List.map_cons, ← hmore, ← hrest]

/-- Nothing comes after the end. -/
lemma take_done {solutions : Solutions} (hstage : solutions.stage = .done) (count : Nat)
    (state : σ) : (solutions.take source count state).1 = [] := by
  cases count with
  | zero => rfl
  | succ count =>
    unfold take next
    rw [hstage]

end Solutions

/-- The solutions that a join leaves. -/
def Solutions.ofJoin (policy : FailurePolicy) (outcome : Option CandidateSet) (joined : JoinState σ) :
    Solutions :=
  outcome.elim (.none policy joined.stats) fun last =>
    ⟨.rows last.pattern last.candidates, joined.arena, policy, joined.stats⟩

/-- They give the rows that the join makes. -/
lemma Solutions.lists_ofJoin {source : RecordSource σ} {holdings : Holdings}
    (hreads : source.Reads holdings.ids fun id => (holdings.quad id).triple) (policy : FailurePolicy)
    {outcome : Option CandidateSet} {joined : JoinState σ} {rows : List Assignments}
    (hmakes : Makes holdings joined.arena rows outcome) :
    (ofJoin policy outcome joined).Lists source (rows.map Binding.mk) := by
  intro count hcount state
  cases outcome with
  | none =>
    rw [show rows = [] from hmakes]
    exact take_done rfl count state
  | some last =>
    obtain ⟨items, hstands, hitems, rfl⟩ := hmakes
    have hitemsCount : items.length < count := hstands.length_eq ▸ hcount
    rw [take_run hreads rfl hstands hitems hitemsCount state, List.map_map]
    rfl

/-- The solutions of a query are those that its join leaves. -/
lemma Evaluation.run_eq_ofJoin {evaluation : Evaluation σ} {constraints : List Constraint}
    {patterns : List TriplePattern} (hpatterns : patterns ≠ []) {languages : LanguageCache} {state : σ}
    {outcome : Option CandidateSet} {joined : JoinState σ}
    (hjoin : evaluation.join constraints patterns ⟨state, languages, .empty, .zero⟩ =
      (.ok outcome, joined)) :
    evaluation.run constraints patterns languages state =
      (some (.ok (.ofJoin evaluation.policy outcome joined)), joined.languages, joined.source) := by
  unfold run
  rw [if_neg fun h => hpatterns (List.isEmpty_iff.mp h), hjoin]
  cases outcome <;> rfl

/-- A query whose join makes some rows has solutions that give them. -/
lemma Evaluation.run_of_join {evaluation : Evaluation σ} {holdings : Holdings}
    (hreads : evaluation.source.Reads holdings.ids fun id => (holdings.quad id).triple)
    {constraints : List Constraint} {patterns : List TriplePattern} (hpatterns : patterns ≠ [])
    {languages : LanguageCache} {state : σ} {outcome : Option CandidateSet} {joined : JoinState σ}
    (hjoin : evaluation.join constraints patterns ⟨state, languages, .empty, .zero⟩ =
      (.ok outcome, joined)) {rows : List Assignments}
    (hmakes : Makes holdings joined.arena rows outcome) :
    ∃ solutions, evaluation.run constraints patterns languages state =
        (some (.ok solutions), joined.languages, joined.source) ∧
      solutions.Lists evaluation.source (rows.map Binding.mk) :=
  ⟨_, run_eq_ofJoin hpatterns hjoin, Solutions.lists_ofJoin hreads evaluation.policy hmakes⟩

/-- **Reading the solutions of a query** to their end, over a source that holds some quads, gives the
rows of the query, whatever the state of the source; more steps give no more. -/
theorem Evaluation.take_run {evaluation : Evaluation σ} {holdings : Holdings}
    {constraints : List Constraint} (hready : evaluation.Ready holdings)
    {patterns : List TriplePattern}
    (hbuilds : ∀ pattern ∈ patterns, evaluation.Builds constraints pattern)
    {languages : LanguageCache} (hlanguages : languages.Sound) (state : σ) :
    ∃ solutions languages' state',
      evaluation.run constraints patterns languages state =
        (some (.ok solutions), languages', state') ∧
      languages'.Sound ∧
      ∀ count, solutions.bound ≤ count → ∀ state,
        (solutions.take evaluation.source count state).1 =
          (evaluation.rows holdings constraints patterns).map fun row => .ok ⟨row⟩ := by
  by_cases hpatterns : patterns = []
  · subst hpatterns
    refine ⟨_, _, _, rfl, hlanguages, fun count hcount state => ?_⟩
    -- The one row comes with the first step.
    obtain ⟨count, rfl⟩ := Nat.exists_eq_add_of_le' (Nat.le_trans (by decide : 1 ≤ 2) hcount)
    unfold Solutions.take Solutions.next
    simp only [Solutions.emit]
    rw [Solutions.take_done rfl, rows_nil]
    rfl
  let start : JoinState σ := ⟨state, languages, .empty, .zero⟩
  have hstart : start.languages.Sound := hlanguages
  obtain ⟨outcome, joined, hjoin, hsound, hmakes⟩ := join_run hready hpatterns hbuilds hstart
  obtain ⟨solutions, hrun, hlists⟩ := run_of_join hready.serves.reads hpatterns hjoin hmakes
  refine ⟨solutions, _, _, hrun, hsound, fun count hcount state => ?_⟩
  rw [hlists count hcount state, List.map_map]
  rfl

end QuadStore
