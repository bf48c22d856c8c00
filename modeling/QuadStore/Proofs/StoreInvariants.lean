import Mathlib
import QuadStore.Proofs.StoreHistory

/-!
# What every command keeps

A command may fail: a store may be read-only, and the predicates of a pattern may not be buildable.  It
has then changed nothing but the languages that were asked for.  So what a store keeps is said of the
store that a command leaves, whether it succeeds or not (`Store.Keeps`).

A property is kept by every command if it is kept by the few changes that commands are made of
(`Store.Invariant`), and then by every row of commands (`Store.Invariant.afterAll`).  One such property is
that all records are those of well-formed quads at places in order (`Store.Sound`); another, of a store
that is read-only, is that it shows what it showed at first (`Store.Fixed`).

The last part is on the questions that build predicates: as long as the languages that were asked for are
remembered as they should be, only what is visible and the configuration matter for the answer.
-/

namespace QuadStore

/-- A command adds known quads only. -/
def StoreCommand.Adds (known : Set Quad) : StoreCommand → Prop
  | add graph triple => ⟨triple, graph⟩ ∈ known
  | addQuad quad => quad ∈ known
  | addAll graph triples => ∀ triple ∈ triples, ⟨triple, graph⟩ ∈ known
  | delete _ _ | clear _ | clearAll | commit => True

namespace Store

/-- The store that commands leave, each of which may fail. -/
def afterAll (store : Store) (commands : List StoreCommand) : Store :=
  commands.foldl (fun store command => store.after command.perform) store

/-- An operation keeps a property, whether it succeeds or not. -/
def Keeps (property : Store → Prop) {α : Type} (operation : StoreM α) : Prop :=
  ∀ store, property store → property (store.after operation)

/-! ## Building predicates -/

section

variable {store : Store} {α : Type} {computation : Building α}

/-- The outcome of a computation that builds predicates is what it builds. -/
lemma building_outcome (htransparent : Transparent computation)
    (hlanguages : store.languages.Sound) :
    ∃ languages : LanguageCache, languages.Sound ∧ building computation store =
      ((built computation).mapError fun fault => .query (.filter fault), { store with languages }) := by
  obtain ⟨hvalue, hsound⟩ := htransparent _ hlanguages
  refine ⟨_, hsound, ?_⟩
  rw [← hvalue]
  unfold building
  rcases computation store.languages with ⟨answer, languages⟩
  cases answer <;> rfl

end

/-! ## Operations one after the other -/

section

variable {property : Store → Prop} {α β : Type}

lemma keeps_pure (a : α) : Keeps property (pure a : StoreM α) := fun _ h => h

lemma keeps_modify {f : Store → Store} (h : ∀ store, property store → property (f store)) :
    Keeps property (modify f : StoreM Unit) := h

lemma Keeps.bind {x : StoreM α} {f : α → StoreM β} (hx : Keeps property x)
    (hf : ∀ a, Keeps property (f a)) : Keeps property (x >>= f) := by
  intro store h
  have hafter : property (x store).2 := hx store h
  show property ((x >>= f) store).2
  rcases hrun : x store with ⟨fault | a, store'⟩
  · rw [hrun] at hafter
    rw [bind_error hrun]
    exact hafter
  · rw [hrun] at hafter
    rw [bind_ok hrun]
    exact hf a store' hafter

lemma Keeps.forM {f : α → StoreM Unit} {list : List α} (h : ∀ a ∈ list, Keeps property (f a)) :
    Keeps property (list.forM f) := by
  induction list with
  | nil => exact keeps_pure ()
  | cons a list ih =>
    exact (h a List.mem_cons_self).bind fun _ => ih fun b hb => h b (List.mem_cons_of_mem a hb)

/-- Changing the writer of a store that has one, and nothing else of any other. -/
lemma keeps_change {edit : Writer → Writer} (h : ∀ store writer, store.writer = some writer →
      property store → property { store with writer := some (edit writer) }) :
    Keeps property (change edit) := by
  intro store hstore
  show property (change edit store).2
  unfold change
  rw [get_bind]
  cases hwriter : store.writer with
  | none => exact hstore
  | some writer => exact h store writer hwriter hstore

end

/-! ## Properties that all commands keep -/

/-- A property that is kept by what commands do: they ask for languages, count themselves, and change
the writer, in which they write records of known quads only. -/
structure Invariant (known : Set Quad) (property : Store → Prop) : Prop where
  asked : ∀ {store} (languages : LanguageCache), (store.languages.Sound → languages.Sound) →
    property store → property { store with languages }
  counted : ∀ {store} (stats : Statistics), property store → property { store with stats }
  added : ∀ {store writer}, store.writer = some writer → ∀ quad ∈ known,
    property store → property { store with writer := some (writer.add quad.record) }
  erased : ∀ {store writer}, store.writer = some writer → ∀ condition,
    property store → property { store with writer := some (writer.erase condition) }
  cleared : ∀ {store writer}, store.writer = some writer →
    property store → property { store with writer := some writer.clearAll }
  committed : ∀ {store writer}, store.writer = some writer → property store →
    property { store with visible := writer.committed, writer := some (.on writer.committed) }

namespace Invariant

variable {known : Set Quad} {property : Store → Prop} (h : Invariant known property)

include h

lemma keeps_building {α : Type} {computation : Building α} (htransparent : Transparent computation) :
    Keeps property (building computation) := by
  intro store hstore
  have hsound : store.languages.Sound → (computation store.languages).2.Sound :=
    fun hlanguages => (htransparent _ hlanguages).2
  show property (building computation store).2
  unfold building
  rcases hrun : computation store.languages with ⟨fault | value, languages⟩ <;>
  · rw [hrun] at hsound
    exact h.asked languages hsound hstore

lemma keeps_add (quad : Quad) (hquad : quad ∈ known) :
    Keeps property (Store.add quad.graph quad.triple) :=
  (keeps_change fun _ _ hwriter hstore => h.added hwriter quad hquad hstore).bind fun _ =>
    keeps_modify fun _ hstore => h.counted _ hstore

lemma keeps_eraseMatching (filters : List Predicate) : Keeps property (eraseMatching filters) :=
  (keeps_change fun _ _ hwriter hstore => h.erased hwriter _ hstore).bind fun _ =>
    keeps_modify fun _ hstore => h.counted _ hstore

lemma keeps_commit : Keeps property Store.commit := by
  intro store hstore
  show property (Store.commit store).2
  unfold Store.commit
  rw [get_bind]
  cases hwriter : store.writer with
  | none => exact hstore
  | some writer => exact h.committed hwriter hstore

/-- **One command** keeps the property. -/
theorem perform {command : StoreCommand} (hadds : command.Adds known) :
    Keeps property command.perform := by
  cases command with
  | add graph triple => exact h.keeps_add ⟨triple, graph⟩ hadds
  | addQuad quad => exact h.keeps_add quad hadds
  | addAll graph triples =>
    have hall : Keeps property (triples.forM (Store.add graph)) :=
      Keeps.forM fun triple htriple => h.keeps_add ⟨triple, graph⟩ (hadds triple htriple)
    exact (hall.bind fun _ => keeps_pure _).bind fun _ => keeps_pure _
  | delete graph pattern =>
    exact (h.keeps_building (transparent_patternPredicates graph pattern _)).bind fun filters =>
      h.keeps_eraseMatching filters
  | clear graph => exact h.keeps_eraseMatching _
  | clearAll =>
    exact (keeps_change fun _ _ hwriter hstore => h.cleared hwriter hstore).bind fun _ =>
      keeps_modify fun _ hstore => h.counted _ hstore
  | commit => exact h.keeps_commit

/-- **Commands one after the other** keep the property. -/
theorem afterAll {commands : List StoreCommand} (hadds : ∀ command ∈ commands, command.Adds known)
    {store : Store} (hstore : property store) : property (store.afterAll commands) := by
  induction commands generalizing store with
  | nil => exact hstore
  | cons command rest ih =>
    exact ih (fun other hother => hadds other (List.mem_cons_of_mem command hother))
      (h.perform (hadds command List.mem_cons_self) store hstore)

end Invariant

end Store

/-! ## Sound stores -/

/-- An index whose records are those of well-formed quads, at places in order. -/
structure Index.Sound (index : Index) : Prop where
  ordered : index.Ordered
  quads : ∀ record ∈ index.records, ∃ quad : Quad, quad.WellFormed ∧ quad.record = record

/-- A writer that would commit records of well-formed quads only, at places in order. -/
structure Writer.Sound (writer : Writer) : Prop extends Writer.Placed writer where
  quads : ∀ record ∈ writer.committed.records, ∃ quad : Quad, quad.WellFormed ∧ quad.record = record

namespace Writer.Sound

variable {writer : Writer}

lemma committed (h : writer.Sound) : writer.committed.Sound := ⟨h.toPlaced.ordered_committed, h.quads⟩

lemma on {index : Index} (h : index.Sound) : (Writer.on index).Sound where
  toPlaced := placed_on h.ordered
  quads := by
    rw [records_committed_on]
    exact h.quads

lemma erase (h : writer.Sound) (condition : Record → Bool) : (writer.erase condition).Sound where
  toPlaced := h.toPlaced.erase condition
  quads := by
    rw [records_committed_erase]
    exact fun record hrecord => h.quads record (List.mem_of_mem_filter hrecord)

lemma add (h : writer.Sound) {quad : Quad} (hquad : quad.WellFormed) :
    (writer.add quad.record).Sound where
  toPlaced := h.toPlaced.add quad.record
  quads := by
    rw [records_committed_add]
    intro record hrecord
    rcases List.mem_append.mp hrecord with hold | hnew
    · exact h.quads record (List.mem_of_mem_filter hold)
    · exact ⟨quad, hquad, (List.mem_singleton.mp hnew).symm⟩

lemma clearAll (h : writer.Sound) : writer.clearAll.Sound where
  toPlaced := h.toPlaced.clearAll
  quads := by
    intro record hrecord
    refine h.quads record ?_
    rw [records_committed] at hrecord ⊢
    exact List.mem_append_right _ hrecord

end Writer.Sound

namespace Store

/-- A store that shows, and would commit, records of well-formed quads only, at places in order. -/
structure Sound (config : StoreConfig) (store : Store) : Prop where
  config_eq : store.config = config
  visible : store.visible.Sound
  writer : ∀ writer, store.writer = some writer → writer.Sound
  languages : store.languages.Sound

lemma invariant_sound (config : StoreConfig) :
    Invariant { quad | quad.WellFormed } (Sound config) where
  asked := fun _ hlanguages h => ⟨h.config_eq, h.visible, h.writer, hlanguages h.languages⟩
  counted := fun _ h => ⟨h.config_eq, h.visible, h.writer, h.languages⟩
  added := fun hwriter _ hquad h =>
    ⟨h.config_eq, h.visible, fun _ hnew => Option.some.inj hnew ▸ (h.writer _ hwriter).add hquad,
      h.languages⟩
  erased := fun hwriter _ h =>
    ⟨h.config_eq, h.visible, fun _ hnew => Option.some.inj hnew ▸ (h.writer _ hwriter).erase _,
      h.languages⟩
  cleared := fun hwriter h =>
    ⟨h.config_eq, h.visible, fun _ hnew => Option.some.inj hnew ▸ (h.writer _ hwriter).clearAll,
      h.languages⟩
  committed := fun hwriter h =>
    ⟨h.config_eq, (h.writer _ hwriter).committed,
      fun _ hnew => Option.some.inj hnew ▸ .on (h.writer _ hwriter).committed, h.languages⟩

/-- A new store on a sound index is sound, read-only or not. -/
lemma sound_create {config : StoreConfig} {index : Index} (h : index.Sound) {locked : Bool}
    {store : Store} (hstore : create config index locked = .ok store) : store.Sound config := by
  obtain rfl := create_eq hstore
  refine ⟨rfl, h, fun writer hwriter => ?_, LanguageCache.sound_empty⟩
  cases locked with
  | true => cases hwriter
  | false => exact Option.some.inj hwriter ▸ .on h

/-! ## Read-only stores -/

/-- A read-only store that shows an index. -/
structure Fixed (index : Index) (store : Store) : Prop where
  visible : store.visible = index
  writer : store.writer = none
  languages : store.languages.Sound

lemma fixed_create {config : StoreConfig} {index : Index} {store : Store}
    (hstore : create config index true = .ok store) : store.Fixed index := by
  cases hstore
  exact ⟨rfl, rfl, LanguageCache.sound_empty⟩

/-- No command changes what a read-only store shows. -/
lemma invariant_fixed (known : Set Quad) (index : Index) : Invariant known (Fixed index) where
  asked := fun _ hlanguages h => ⟨h.visible, h.writer, hlanguages h.languages⟩
  counted := fun _ h => ⟨h.visible, h.writer, h.languages⟩
  added := fun hwriter _ _ h => absurd (h.writer.symm.trans hwriter) nofun
  erased := fun hwriter _ h => absurd (h.writer.symm.trans hwriter) nofun
  cleared := fun hwriter h => absurd (h.writer.symm.trans hwriter) nofun
  committed := fun hwriter h => absurd (h.writer.symm.trans hwriter) nofun

/-! ## The outcome of questions -/

section

variable {store : Store} {graph : GraphName} {pattern : TriplePattern}

lemma predicatesOf_ok (hlanguages : store.languages.Sound) {filters : List Predicate}
    (h : built (patternPredicates graph pattern fun _ => none) = .ok filters) :
    ∃ languages, predicatesOf graph pattern store = (.ok filters, { store with languages }) := by
  obtain ⟨languages, -, hrun⟩ := building_outcome (transparent_patternPredicates graph pattern _)
    hlanguages
  rw [h] at hrun
  exact ⟨languages, hrun⟩

lemma predicatesOf_error (hlanguages : store.languages.Sound) {fault : FilterError}
    (h : built (patternPredicates graph pattern fun _ => none) = .error fault) :
    ∃ languages, languages.Sound ∧
      predicatesOf graph pattern store = (.error (.query (.filter fault)), { store with languages }) := by
  obtain ⟨languages, hsound, hrun⟩ :=
    building_outcome (transparent_patternPredicates graph pattern _) hlanguages
  rw [h] at hrun
  exact ⟨languages, hsound, hrun⟩

/-- Counting what matches a pattern counts the records that satisfy its predicates. -/
lemma count_ok (hlanguages : store.languages.Sound) {filters : List Predicate}
    (h : built (patternPredicates graph pattern fun _ => none) = .ok filters) :
    (count graph pattern store).1 = .ok (store.visible.count filters) := by
  obtain ⟨languages, hrun⟩ := predicatesOf_ok hlanguages h
  unfold count
  rw [bind_ok hrun]
  rfl

lemma count_error (hlanguages : store.languages.Sound) {fault : FilterError}
    (h : built (patternPredicates graph pattern fun _ => none) = .error fault) :
    (count graph pattern store).1 = .error (.query (.filter fault)) := by
  obtain ⟨languages, -, hrun⟩ := predicatesOf_error hlanguages h
  unfold count
  rw [bind_error hrun]

/-- Finding what matches a pattern starts a scan for its predicates. -/
lemma find_ok (hlanguages : store.languages.Sound) {filters : List Predicate}
    (h : built (patternPredicates graph pattern fun _ => none) = .ok filters) :
    (find graph pattern store).1 =
      .ok (Scan.start filters store.config.fetchSize store.config.order true) := by
  obtain ⟨languages, hrun⟩ := predicatesOf_ok hlanguages h
  unfold find
  rw [bind_ok hrun]
  rfl

lemma find_error (hlanguages : store.languages.Sound) {fault : FilterError}
    (h : built (patternPredicates graph pattern fun _ => none) = .error fault) :
    (find graph pattern store).1 = .error (.query (.filter fault)) := by
  obtain ⟨languages, -, hrun⟩ := predicatesOf_error hlanguages h
  unfold find
  rw [bind_error hrun]

/-- Asking for a statement is counting it. -/
lemma contains_eq (triple : Triple) : (contains graph triple store).1 =
    (count graph triple.toPattern store).1.map fun n => decide (0 < n) := by
  unfold contains
  rcases hrun : count graph triple.toPattern store with ⟨fault | n, store'⟩
  · rw [bind_error hrun]
    rfl
  · rw [bind_ok hrun]
    rfl

end

end Store

end QuadStore
