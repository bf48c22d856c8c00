import QuadStore.Filter
import QuadStore.Join
import Mathlib.Data.List.Basic
import Mathlib.Tactic.Lemma

/-!
# What building predicates yields

Building predicates asks a cache for the predicates of languages.  The cache does not matter: as
long as every entry is the predicate of its language (`LanguageCache.Sound`), what is built is what
would be built from nothing (`built`), and the cache is sound again.  A computation of this kind is
called *transparent*, and all that build the predicates of a query are (`queryPredicates`).

So the predicates of a pattern can be spoken of without the cache.  Those of a query without
constraints say that the record belongs to the graph and is, slot by slot, as the pattern asks
(`exists_built_queryPredicates`).
-/

namespace QuadStore

variable {α β : Type}

/-! ## Transparent computations -/

/-- Every entry is the predicate of its language. -/
def LanguageCache.Sound (cache : LanguageCache) : Prop :=
  ∀ key predicate, cache.find? key = some predicate → predicate = predicateOf key

lemma LanguageCache.sound_empty : LanguageCache.empty.Sound := by
  intro key predicate h
  cases h

/-- What a computation builds if no language was asked for before. -/
def built (computation : Building α) : Except FilterError α := (computation .empty).1

/-- A computation whose outcome does not depend on a sound cache, and which leaves it sound. -/
def Transparent (computation : Building α) : Prop :=
  ∀ cache : LanguageCache, cache.Sound →
    (computation cache).1 = built computation ∧ (computation cache).2.Sound

section

variable {ε τ : Type} {x : ExceptT ε (StateM τ) α} {f : α → ExceptT ε (StateM τ) β} {s s' : τ}

lemma bind_ok {a : α} (h : x s = (.ok a, s')) : (x >>= f) s = f a s' := by
  simp only [bind, ExceptT.bind, ExceptT.mk, StateT.bind, h]
  rfl

lemma get_bind (f : τ → ExceptT ε (StateM τ) β) : (get >>= f) s = f s s := rfl

lemma bind_error {fault : ε} (h : x s = (.error fault, s')) :
    (x >>= f) s = (.error fault, s') := by
  simp only [bind, ExceptT.bind, ExceptT.mk, StateT.bind, h]
  rfl

end

/-- Where a list of computations has a result, each of them has. -/
lemma exists_ok_of_mapM {ε : Type} {f : α → Except ε β} {list : List α} {results : List β}
    (h : list.mapM f = .ok results) : ∀ a ∈ list, ∃ b, f a = .ok b := by
  induction list generalizing results with
  | nil =>
    intro a ha
    cases ha
  | cons first rest ih =>
    rw [List.mapM_cons] at h
    cases hfirst : f first with
    | error fault =>
      rw [hfirst] at h
      cases h
    | ok b =>
      cases hrest : rest.mapM f with
      | error fault =>
        rw [hfirst, hrest] at h
        cases h
      | ok others =>
        intro a ha
        rcases List.mem_cons.mp ha with rfl | ha
        · exact ⟨b, hfirst⟩
        · exact ih hrest a ha

lemma exists_ok_of_bind {ε : Type} {x : Except ε α} {f : α → Except ε β} {b : β}
    (h : x.bind f = .ok b) : ∃ a, x = .ok a ∧ f a = .ok b := by
  cases x with
  | error fault => cases h
  | ok a => exact ⟨a, rfl, h⟩

lemma transparent_pure (a : α) : Transparent (pure a : Building α) := fun _ h => ⟨rfl, h⟩

lemma transparent_throw (fault : FilterError) : Transparent (throw fault : Building α) :=
  fun _ h => ⟨rfl, h⟩

lemma transparent_liftM (e : Except FilterError α) : Transparent (liftM e : Building α) := by
  intro cache h
  cases e <;> exact ⟨rfl, h⟩

lemma built_pure (a : α) : built (pure a : Building α) = .ok a := rfl

/-- One transparent computation after another: the second starts from a sound cache. -/
lemma built_bind {x : Building α} {f : α → Building β} (hx : Transparent x)
    (hf : ∀ a, Transparent (f a)) : built (x >>= f) = (built x).bind fun a => built (f a) := by
  have hsound := (hx .empty LanguageCache.sound_empty).2
  unfold built
  rcases h : x .empty with ⟨fault | a, cache⟩
  · rw [bind_error h]
    rfl
  · rw [h] at hsound
    rw [bind_ok h]
    exact (hf a cache hsound).1

lemma transparent_bind {x : Building α} {f : α → Building β} (hx : Transparent x)
    (hf : ∀ a, Transparent (f a)) : Transparent (x >>= f) := by
  intro cache hcache
  rw [built_bind hx hf]
  obtain ⟨hvalue, hsound⟩ := hx cache hcache
  rcases h : x cache with ⟨fault | a, cache'⟩
  · rw [h] at hvalue hsound
    rw [bind_error h, ← hvalue]
    exact ⟨rfl, hsound⟩
  · rw [h] at hvalue hsound
    rw [bind_ok h, ← hvalue]
    exact hf a cache' hsound

lemma transparent_mapM {f : α → Building β} (hf : ∀ a, Transparent (f a)) (list : List α) :
    Transparent (list.mapM f) := by
  induction list with
  | nil =>
    rw [List.mapM_nil]
    exact transparent_pure []
  | cons a list ih =>
    rw [List.mapM_cons]
    exact transparent_bind (hf a) fun b => transparent_bind ih fun rest => transparent_pure _

lemma built_mapM {f : α → Building β} (hf : ∀ a, Transparent (f a)) (list : List α) :
    built (list.mapM f) = list.mapM fun a => built (f a) := by
  induction list with
  | nil => rfl
  | cons a list ih =>
    have hrest := transparent_mapM hf list
    rw [List.mapM_cons, List.mapM_cons, built_bind (hf a) fun b =>
      transparent_bind hrest fun rest => transparent_pure _]
    simp only [built_bind hrest fun rest => transparent_pure _, ih]
    rfl

/-! ## Transparency of what builds predicates -/

lemma mapM_congr {f g : α → Building β} {list : List α} (h : ∀ a ∈ list, f a = g a) :
    list.mapM f = list.mapM g := by
  induction list with
  | nil => rw [List.mapM_nil, List.mapM_nil]
  | cons a list ih =>
    rw [List.mapM_cons, List.mapM_cons, h a List.mem_cons_self,
      ih fun b hb => h b (List.mem_cons_of_mem a hb)]

lemma LanguageCache.sound_insertNew {cache : LanguageCache} (h : cache.Sound) (key : String) :
    (cache.insertNew key (predicateOf key)).Sound := by
  unfold insertNew
  split
  · exact h
  · intro key' predicate hfind
    rw [find?, List.lookup_append] at hfind
    rcases Option.or_eq_some_iff.mp hfind with hold | ⟨-, hnew⟩
    · exact h key' predicate hold
    · rw [List.lookup_cons] at hnew
      split at hnew
      · rename_i hkey
        rw [eq_of_beq hkey, Option.some.inj hnew]
      · cases hnew

lemma transparent_languagePredicate (tag : Option String) :
    Transparent (languagePredicate tag) := by
  intro cache hcache
  unfold languagePredicate LanguageCache.predicate
  cases hfind : cache.find? (LanguageCache.key tag) with
  | some cached =>
    have hcached := hcache _ _ hfind
    subst hcached
    exact ⟨rfl, hcache⟩
  | none => exact ⟨rfl, LanguageCache.sound_insertNew hcache _⟩

lemma transparent_positionPredicates (position : Position) (term : Term) :
    Transparent (positionPredicates position term) := by
  unfold positionPredicates
  split
  · unfold objectPredicates
    split
    · exact transparent_bind (transparent_languagePredicate _) fun _ =>
        transparent_bind (transparent_liftM _) fun _ => transparent_pure _
    · exact transparent_pure _
  · exact transparent_pure _

lemma transparent_slotPredicates (lookup : Variable → Option Term) (position : Position)
    (slot : Slot) : Transparent (slotPredicates lookup position slot) := by
  cases slot with
  | term term => exact transparent_positionPredicates position term
  | var v => exact transparent_pure _

lemma transparent_constraintPredicates (position : Position) (constraint : Constraint) :
    Transparent (constraintPredicates position constraint) := by
  unfold constraintPredicates
  split
  · exact transparent_positionPredicates _ _
  · exact transparent_bind (transparent_liftM _) fun _ => transparent_pure _
  · exact transparent_throw _

lemma transparent_patternPredicates (graph : GraphName) (pattern : TriplePattern)
    (lookup : Variable → Option Term) :
    Transparent (patternPredicates graph pattern lookup) :=
  transparent_bind (transparent_mapM (fun _ => transparent_slotPredicates _ _ _) _) fun _ =>
    transparent_pure _

/-- The predicates of a pattern are the graph's and those of its slots, one after the other. -/
lemma built_patternPredicates (graph : GraphName) (pattern : TriplePattern)
    (lookup : Variable → Option Term) :
    built (patternPredicates graph pattern lookup) =
      (pattern.slots.mapM fun slot => built (slotPredicates lookup slot.1 slot.2)).bind
        fun bySlot => .ok (graphPredicate graph :: bySlot.flatten) := by
  unfold patternPredicates
  rw [built_bind (transparent_mapM (fun _ => transparent_slotPredicates _ _ _) _) fun _ =>
    transparent_pure _, built_mapM fun _ => transparent_slotPredicates _ _ _]
  rfl

/-- The predicates that the constraints put on a slot. -/
def slotConstraints (constraints : List Constraint) (lookup : Variable → Option Term) :
    Position × Slot → Building (List Predicate)
  | (_, .term _) => return []
  | (position, .var v) =>
    if (lookup v).isSome then return [] else variablePredicates constraints position v

lemma openPredicates_eq (constraints : List Constraint) (lookup : Variable → Option Term)
    (pattern : TriplePattern) : openPredicates constraints lookup pattern =
      (pattern.slots.mapM (slotConstraints constraints lookup) >>= fun found =>
        pure found.flatten) := by
  unfold openPredicates
  rw [mapM_congr fun slot hslot => ?_]
  obtain ⟨position, term | v⟩ := slot <;> rfl

lemma transparent_variablePredicates (constraints : List Constraint) (position : Position)
    (v : Variable) : Transparent (variablePredicates constraints position v) :=
  transparent_bind (transparent_mapM (transparent_constraintPredicates position) _) fun _ =>
    transparent_pure _

lemma transparent_slotConstraints (constraints : List Constraint)
    (lookup : Variable → Option Term) (slot : Position × Slot) :
    Transparent (slotConstraints constraints lookup slot) := by
  obtain ⟨position, term | v⟩ := slot
  · exact transparent_pure _
  · show Transparent (if (lookup v).isSome then _ else _)
    split
    · exact transparent_pure _
    · exact transparent_variablePredicates constraints position v

lemma transparent_openPredicates (constraints : List Constraint)
    (lookup : Variable → Option Term) (pattern : TriplePattern) :
    Transparent (openPredicates constraints lookup pattern) := by
  rw [openPredicates_eq]
  exact transparent_bind (transparent_mapM (transparent_slotConstraints _ _) _) fun _ =>
    transparent_pure _

/-- **Building the predicates of a query is transparent.** -/
theorem transparent_queryPredicates (graph : GraphName) (constraints : List Constraint)
    (pattern : TriplePattern) (lookup : Variable → Option Term) :
    Transparent (queryPredicates graph constraints pattern lookup) :=
  transparent_bind (transparent_patternPredicates graph pattern lookup) fun _ =>
    transparent_bind (transparent_openPredicates constraints lookup pattern) fun _ =>
      transparent_pure _

/-! ## The predicates of a pattern -/

/-- The predicates for a pattern depend on a binding only through the values of the pattern's
variables. -/
lemma queryPredicates_congr (graph : GraphName) (constraints : List Constraint)
    {pattern : TriplePattern} {lookup lookup' : Variable → Option Term}
    (h : ∀ position v, (position, Slot.var v) ∈ pattern.slots → lookup v = lookup' v) :
    queryPredicates graph constraints pattern lookup =
      queryPredicates graph constraints pattern lookup' := by
  have hown : patternPredicates graph pattern lookup = patternPredicates graph pattern lookup' := by
    unfold patternPredicates
    rw [mapM_congr fun slot hslot => ?_]
    obtain ⟨position, term | v⟩ := slot
    · rfl
    · simp only [slotPredicates, h position v hslot]
  have hopen : openPredicates constraints lookup pattern =
      openPredicates constraints lookup' pattern := by
    unfold openPredicates
    rw [mapM_congr fun slot hslot => ?_]
    obtain ⟨position, term | v⟩ := slot
    · rfl
    · simp only [h position v hslot]
  unfold queryPredicates
  rw [hown, hopen]

/-- Without constraints nothing is added to the pattern's own predicates. -/
lemma openPredicates_nil (lookup : Variable → Option Term) (pattern : TriplePattern) :
    openPredicates [] lookup pattern = pure [] := by
  unfold openPredicates
  rw [mapM_congr (g := fun _ => pure []) fun slot hslot => ?_]
  · rfl
  · obtain ⟨position, term | v⟩ := slot
    · rfl
    · show (if (lookup v).isSome then pure [] else pure []) = pure []
      rw [ite_self]

/-- Whether a record is as a slot of a pattern asks under a binding: the term written there is looked
up by its value, and one that the variable is bound to by its written form. -/
def slotMeets (lookup : Variable → Option Term) (record : Record) : Position × Slot → Bool
  | (position, .term term) =>
    match built (positionPredicates position term) with
    | .ok filters => record.meets filters
    | .error _ => false
  | (position, .var v) => (lookup v).all fun term => (termPredicate position term).holdsOf record

/-- The predicates of all terms of a pattern can be built. -/
def TriplePattern.Buildable (pattern : TriplePattern) : Prop :=
  ∀ position term, (position, Slot.term term) ∈ pattern.slots →
    ∃ filters, built (positionPredicates position term) = .ok filters

/-- Lists of predicates that are built one after the other ask together for what each asks. -/
lemma exists_mapM_meets {ι : Type} {record : ι → Record} {f : α → Except FilterError (List Predicate)}
    {g : ι → α → Bool} {list : List α}
    (h : ∀ a ∈ list, ∃ filters, f a = .ok filters ∧ ∀ i, (record i).meets filters = g i a) :
    ∃ filters, list.mapM f = .ok filters ∧
      ∀ i, (record i).meets filters.flatten = list.all (g i) := by
  induction list with
  | nil => exact ⟨[], rfl, fun i => rfl⟩
  | cons a list ih =>
    obtain ⟨first, hfirst, hfirst'⟩ := h a List.mem_cons_self
    obtain ⟨rest, hrest, hrest'⟩ := ih fun b hb => h b (List.mem_cons_of_mem a hb)
    refine ⟨first :: rest, ?_, fun i => ?_⟩
    · rw [List.mapM_cons, hfirst, hrest]
      rfl
    · rw [List.flatten_cons, Record.meets, List.all_append, List.all_cons, ← hfirst', ← hrest']
      rfl

/-- The own predicates of a pattern ask for the records of the graph that are as every slot asks. -/
lemma exists_built_patternPredicates (graph : GraphName) {pattern : TriplePattern}
    (h : pattern.Buildable) (lookup : Variable → Option Term) :
    ∃ filters, built (patternPredicates graph pattern lookup) = .ok filters ∧
      ∀ record : Record, record.meets filters =
        ((graphPredicate graph).holdsOf record && pattern.slots.all (slotMeets lookup record)) := by
  have hslots : ∀ slot ∈ pattern.slots, ∃ filters,
      built (slotPredicates lookup slot.1 slot.2) = .ok filters ∧
        ∀ record : Record, record.meets filters = slotMeets lookup record slot := by
    rintro ⟨position, term | v⟩ hslot
    · obtain ⟨filters, hfilters⟩ := h position term hslot
      exact ⟨filters, hfilters, fun record => by simp only [slotMeets, hfilters]⟩
    · refine ⟨((lookup v).map (termPredicate position)).toList, rfl, fun record => ?_⟩
      cases hv : lookup v <;> simp [Record.meets, slotMeets, hv]
  obtain ⟨filters, hfilters, hmeets⟩ := exists_mapM_meets hslots
  refine ⟨graphPredicate graph :: filters.flatten, ?_, fun record => ?_⟩
  · rw [built_patternPredicates, hfilters]
    rfl
  · rw [Record.meets, List.all_cons, ← hmeets]
    rfl

/-- If the predicates of a pattern could be built, those of its terms can. -/
lemma buildable_of_built {graph : GraphName} {pattern : TriplePattern}
    {lookup : Variable → Option Term} {own : List Predicate}
    (h : built (patternPredicates graph pattern lookup) = .ok own) : pattern.Buildable := by
  rw [built_patternPredicates] at h
  obtain ⟨bySlot, hslots, -⟩ := exists_ok_of_bind h
  intro position term hslot
  exact exists_ok_of_mapM hslots (position, .term term) hslot

/-- The first of a pattern's predicates is the graph's. -/
lemma exists_graphPredicate_cons {graph : GraphName} {pattern : TriplePattern}
    {lookup : Variable → Option Term} {filters : List Predicate}
    (h : built (patternPredicates graph pattern lookup) = .ok filters) :
    ∃ rest, filters = graphPredicate graph :: rest := by
  rw [built_patternPredicates] at h
  obtain ⟨bySlot, -, hfilters⟩ := exists_ok_of_bind h
  exact ⟨bySlot.flatten, (Except.ok.inj hfilters).symm⟩

/-- Without constraints a query builds what finding builds. -/
lemma built_queryPredicates_nil (graph : GraphName) (pattern : TriplePattern)
    (lookup : Variable → Option Term) :
    built (queryPredicates graph [] pattern lookup) =
      built (patternPredicates graph pattern lookup) := by
  unfold queryPredicates
  rw [openPredicates_nil, built_bind (transparent_patternPredicates _ _ _) fun own =>
    transparent_bind (transparent_pure _) fun _ => transparent_pure _]
  cases built (patternPredicates graph pattern lookup) with
  | error fault => rfl
  | ok own => exact congrArg Except.ok (List.append_nil own)

/-- **The predicates of a pattern without constraints** can be built under every binding if those of
its terms can, and ask for the records of the graph that are as every slot asks. -/
theorem exists_built_queryPredicates (graph : GraphName) {pattern : TriplePattern}
    (h : pattern.Buildable) (lookup : Variable → Option Term) :
    ∃ filters, built (queryPredicates graph [] pattern lookup) = .ok filters ∧
      ∀ record : Record, record.meets filters =
        ((graphPredicate graph).holdsOf record && pattern.slots.all (slotMeets lookup record)) := by
  rw [built_queryPredicates_nil]
  exact exists_built_patternPredicates graph h lookup

end QuadStore
