import Mathlib
import QuadStore.Load
import QuadStore.Proofs.StoreInvariants

/-!
# Loads that fail

A load that comes to a bad line commits nothing, but it takes nothing back either: the statements before
the bad line stay added, and the next commit shows them (`failed_load_keeps_statements`).  So a failed load
is just as if these statements had been added one by one.

How far this reaches in what comes later is said by comparing two stores, one with the failed load and one
without.  They are alike up to the identifiers of the added statements (`Store.Alike`), and every operation
respects that: it has the same outcome on both and leaves them alike (`Store.Respects`).  So whatever is
done afterwards, the records with other identifiers are the same in both; and until something is committed
both show what was shown before.
-/

namespace QuadStore

/-! ## Commands and loads -/

/-- A step in the life of a store: a command, or loading a file. -/
inductive StoreStep where
  | command (command : StoreCommand)
  | load (file : Option Content) (defaultGraph : GraphName)

namespace StoreStep

/-- The store that a step leaves, whether it succeeds or not. -/
def perform : StoreStep → Store → Store
  | command change, store => store.after change.perform
  | load file defaultGraph, store => (store.load file defaultGraph).2.2

/-- A step may commit: it is a commit, or it loads a file without a bad line. -/
def MayCommit : StoreStep → Prop
  | command change => change = .commit
  | load none _ => False
  | load (some content) defaultGraph => ∀ fault, .error fault ∉ content.quads defaultGraph

end StoreStep

namespace Store

/-- The store that steps leave, each of which may fail. -/
def afterSteps (store : Store) (steps : List StoreStep) : Store :=
  steps.foldl (fun store step => step.perform store) store

/-! ## What a failed load has done -/

/-- **A load that comes to a bad line** has added the statements before it, and nothing else. -/
theorem addWhileSound_line {items : List (Except ReadError Quad)} {added total : Nat}
    {fault : ReadError} {store store' : Store}
    (h : addWhileSound items added store = (total, some (.line fault), store')) :
    ∃ (before : List Quad) (rest : List (Except ReadError Quad)),
      items = before.map .ok ++ .error fault :: rest ∧ total = added + before.length ∧
        store' = store.afterAll (before.map .addQuad) := by
  induction items generalizing added store with
  | nil => simp [addWhileSound] at h
  | cons item rest ih =>
    cases item with
    | error other =>
      obtain ⟨rfl, hfault, rfl⟩ : added = total ∧ some (LoadError.line other) = some (.line fault) ∧
        store = store' := by simpa [addWhileSound] using h
      obtain rfl : other = fault := by simpa using hfault
      exact ⟨[], rest, rfl, rfl, rfl⟩
    | ok quad =>
      rcases hrun : (addQuad quad).run store with ⟨other | ⟨⟩, next⟩
      · simp [addWhileSound, hrun] at h
      · have hnext : store.after (StoreCommand.addQuad quad).perform = next := congrArg Prod.snd hrun
        rw [addWhileSound, hrun] at h
        obtain ⟨before, after, hitems, htotal, hstore⟩ := ih h
        refine ⟨quad :: before, after, by rw [hitems]; rfl, ?_, ?_⟩
        · rw [htotal, List.length_cons]
          omega
        · rw [hstore, ← hnext]
          rfl

section

variable {content : Content} {defaultGraph : GraphName} {added : Nat} {store next : Store}

/-- A load that comes to a fault ends there. -/
lemma load_of_fault {fault : LoadError}
    (h : addWhileSound (content.quads defaultGraph) 0 store = (added, some fault, next)) :
    store.load (some content) defaultGraph = (added, .error fault, next) := by
  unfold load
  simp only [h]

/-- A load that comes to no fault commits. -/
lemma load_of_sound (h : addWhileSound (content.quads defaultGraph) 0 store = (added, none, next)) :
    store.load (some content) defaultGraph =
      (added,
        (commit next).1.mapError LoadError.store |>.map fun _ => ⟨added, (commit next).2.size⟩,
        (commit next).2) := by
  have hrun : commit.run next = commit next := rfl
  unfold load
  simp only [h, hrun]
  rcases commit next with ⟨fault | ⟨⟩, committed⟩ <;> rfl

/-- If the fault of a load is a bad line, it came to it before it would have committed. -/
lemma addWhileSound_of_load {fault : ReadError}
    (h : store.load (some content) defaultGraph = (added, .error (.line fault), next)) :
    addWhileSound (content.quads defaultGraph) 0 store = (added, some (.line fault), next) := by
  rcases hrun : addWhileSound (content.quads defaultGraph) 0 store with ⟨total, _ | other, last⟩
  · rw [load_of_sound hrun] at h
    rcases hcommit : commit last with ⟨_ | ⟨⟩, committed⟩ <;> rw [hcommit] at h <;>
      simp [Except.mapError, Except.map] at h
  · rw [load_of_fault hrun] at h
    cases h
    rfl

end

end Store

/-! ## Stores that are alike -/

/-- The records that have none of some identifiers. -/
def others (ids : List String) (records : List Record) : List Record :=
  records.filter fun record => record.id ∉ ids

section

variable {ids : List String} {left right : List Record}

lemma others_append (ids : List String) (left right : List Record) :
    others ids (left ++ right) = others ids left ++ others ids right :=
  List.filter_append ..

/-- Records that are alike up to some identifiers stay so if some are taken out. -/
lemma others_filter (h : others ids left = others ids right) (condition : Record → Bool) :
    others ids (left.filter condition) = others ids (right.filter condition) := by
  unfold others at h ⊢
  rw [List.filter_comm, h, List.filter_comm]

/-- Taking out the records with one of the identifiers is not noticed. -/
lemma others_erase {id : String} (hid : id ∈ ids) (records : List Record) :
    others ids (records.filter fun record => !(record.id == id)) = others ids records := by
  unfold others
  rw [List.filter_filter]
  apply List.filter_congr
  intro record _
  by_cases h : record.id = id
  · simp [h, hid]
  · simp [h]

end

namespace Writer

lemma pending_add (writer : Writer) (record : Record) :
    (writer.add record).pending.records.map Prod.snd =
      (writer.erase fun old => old.id == record.id).pending.records.map Prod.snd ++ [record] := by
  simp [add]

/-- Two writers have the same records, committed and pending, up to some identifiers. -/
structure Alike (ids : List String) (left right : Writer) : Prop where
  image : others ids left.image.records = others ids right.image.records
  pending : others ids (left.pending.records.map Prod.snd) =
    others ids (right.pending.records.map Prod.snd)

namespace Alike

variable {ids : List String} {left right : Writer}

lemma refl (writer : Writer) : writer.Alike ids writer := ⟨rfl, rfl⟩

lemma erase (h : left.Alike ids right) (condition : Record → Bool) :
    (left.erase condition).Alike ids (right.erase condition) where
  image := by
    simp only [Writer.erase, Index.records_erase]
    exact others_filter h.image _
  pending := by
    simp only [Writer.erase, Segment.records_erase]
    exact others_filter h.pending _

lemma add (h : left.Alike ids right) (record : Record) :
    (left.add record).Alike ids (right.add record) where
  image := (h.erase fun old => old.id == record.id).image
  pending := by
    rw [pending_add, pending_add, others_append, others_append,
      (h.erase fun old => old.id == record.id).pending]

/-- Adding a record with one of the identifiers is not noticed. -/
lemma add_right (h : left.Alike ids right) {record : Record} (hid : record.id ∈ ids) :
    left.Alike ids (right.add record) where
  image := by
    show _ = others ids (right.image.erase fun old => old.id == record.id).records
    rw [Index.records_erase, others_erase hid, h.image]
  pending := by
    have hnone : others ids [record] = [] := by simp [others, hid]
    rw [pending_add, others_append, hnone, List.append_nil]
    show _ = others ids ((right.pending.erase fun old => old.id == record.id).records.map Prod.snd)
    rw [Segment.records_erase, others_erase hid, h.pending]

lemma clearAll (h : left.Alike ids right) : left.clearAll.Alike ids right.clearAll := ⟨rfl, h.pending⟩

lemma committed (h : left.Alike ids right) :
    others ids left.committed.records = others ids right.committed.records := by
  rw [records_committed, records_committed, others_append, others_append, h.image, h.pending]

end Alike

end Writer

namespace Store

/-- Two stores, which show the same records and have the same changes pending up to some identifiers. -/
structure Alike (ids : List String) (left right : Store) : Prop where
  visible : others ids left.visible.records = others ids right.visible.records
  writer : Option.Rel (Writer.Alike ids) left.writer right.writer
  languages : left.languages = right.languages

/-- An operation does not tell apart stores that are alike: it has the same outcome and leaves them
alike. -/
def Respects (ids : List String) {α : Type} (operation : StoreM α) : Prop :=
  ∀ left right, left.Alike ids right →
    (operation left).1 = (operation right).1 ∧ (operation left).2.Alike ids (operation right).2

section

variable {ids : List String} {α β : Type}

lemma Alike.refl (store : Store) : store.Alike ids store := by
  refine ⟨rfl, ?_, rfl⟩
  cases store.writer with
  | none => exact .none
  | some writer => exact .some (.refl writer)

lemma respects_pure (a : α) : Respects ids (pure a : StoreM α) := fun _ _ h => ⟨rfl, h⟩

lemma respects_count (count : Statistics → Statistics) :
    Respects ids (modify fun store => { store with stats := count store.stats } : StoreM Unit) :=
  fun _ _ h => ⟨rfl, h.visible, h.writer, h.languages⟩

lemma Respects.bind {x : StoreM α} {f : α → StoreM β} (hx : Respects ids x)
    (hf : ∀ a, Respects ids (f a)) : Respects ids (x >>= f) := by
  intro left right h
  obtain ⟨houtcome, halike⟩ := hx left right h
  rcases hleft : x left with ⟨fault | a, left'⟩ <;> rcases hright : x right with ⟨fault' | a', right'⟩ <;>
    rw [hleft, hright] at houtcome halike <;> cases houtcome
  · rw [bind_error hleft, bind_error hright]
    exact ⟨rfl, halike⟩
  · rw [bind_ok hleft, bind_ok hright]
    exact hf a left' right' halike

lemma Respects.forM {f : α → StoreM Unit} (h : ∀ a, Respects ids (f a)) (list : List α) :
    Respects ids (list.forM f) := by
  induction list with
  | nil => exact respects_pure ()
  | cons a list ih => exact (h a).bind fun _ => ih

lemma respects_change {edit : Writer → Writer}
    (h : ∀ left right : Writer, left.Alike ids right → (edit left).Alike ids (edit right)) :
    Respects ids (change edit) := by
  rintro ⟨_, _, left, _, _⟩ ⟨_, _, right, _, _⟩ ⟨hvisible, hwriter, hlanguages⟩
  cases hwriter with
  | none => exact ⟨rfl, hvisible, .none, hlanguages⟩
  | some halike => exact ⟨rfl, hvisible, .some (h _ _ halike), hlanguages⟩

lemma respects_building (computation : Building α) : Respects ids (building computation) := by
  rintro ⟨_, _, _, languages, _⟩ ⟨_, _, _, _, _⟩ ⟨hvisible, hwriter, hlanguages⟩
  obtain rfl : languages = _ := hlanguages
  unfold building
  rcases computation languages with ⟨fault | value, languages'⟩ <;>
    exact ⟨rfl, hvisible, hwriter, rfl⟩

lemma respects_add (graph : GraphName) (triple : Triple) : Respects ids (Store.add graph triple) :=
  (respects_change fun _ _ h => h.add _).bind fun _ => respects_count _

lemma respects_eraseMatching (filters : List Predicate) : Respects ids (eraseMatching filters) :=
  (respects_change fun _ _ h => h.erase _).bind fun _ => respects_count _

lemma respects_commit : Respects ids Store.commit := by
  rintro ⟨_, _, left, _, _⟩ ⟨_, _, right, _, _⟩ ⟨hvisible, hwriter, hlanguages⟩
  cases hwriter with
  | none => exact ⟨rfl, hvisible, .none, hlanguages⟩
  | some halike => exact ⟨rfl, halike.committed, .some ⟨halike.committed, rfl⟩, hlanguages⟩

end

/-! ## Every step respects it -/

section

variable {ids : List String} {left right : Store}

/-- **No command** tells apart stores that are alike. -/
theorem respects_perform (command : StoreCommand) : Respects ids command.perform := by
  cases command with
  | add graph triple => exact respects_add graph triple
  | addQuad quad => exact respects_add quad.graph quad.triple
  | addAll graph triples =>
    exact ((Respects.forM (respects_add graph) triples).bind fun _ => respects_pure _).bind fun _ =>
      respects_pure _
  | delete graph pattern =>
    exact (respects_building _).bind fun filters => respects_eraseMatching filters
  | clear graph => exact respects_eraseMatching _
  | clearAll => exact (respects_change fun _ _ h => h.clearAll).bind fun _ => respects_count _
  | commit => exact respects_commit

lemma Alike.addWhileSound (h : left.Alike ids right) (items : List (Except ReadError Quad))
    (added : Nat) :
    (addWhileSound items added left).2.1 = (addWhileSound items added right).2.1 ∧
      (addWhileSound items added left).2.2.Alike ids (addWhileSound items added right).2.2 := by
  induction items generalizing added left right with
  | nil => exact ⟨rfl, h⟩
  | cons item rest ih =>
    cases item with
    | error fault => exact ⟨rfl, h⟩
    | ok quad =>
      obtain ⟨houtcome, halike⟩ := respects_add quad.graph quad.triple left right h
      have hrun (store : Store) : (addQuad quad).run store = Store.add quad.graph quad.triple store := rfl
      simp only [Store.addWhileSound, hrun]
      rcases hleft : Store.add quad.graph quad.triple left with ⟨fault | ⟨⟩, left'⟩ <;>
        rcases hright : Store.add quad.graph quad.triple right with ⟨fault' | ⟨⟩, right'⟩ <;>
        rw [hleft, hright] at houtcome halike <;> cases houtcome
      · exact ⟨rfl, halike⟩
      · exact ih halike (added + 1)

lemma Alike.load (h : left.Alike ids right) (file : Option Content) (defaultGraph : GraphName) :
    (left.load file defaultGraph).2.2.Alike ids (right.load file defaultGraph).2.2 := by
  cases file with
  | none => exact h
  | some content =>
    obtain ⟨hfault, halike⟩ := h.addWhileSound (content.quads defaultGraph) 0
    rcases hleft : Store.addWhileSound (content.quads defaultGraph) 0 left with ⟨_, fault, left'⟩
    rcases hright : Store.addWhileSound (content.quads defaultGraph) 0 right with ⟨_, fault', right'⟩
    rw [hleft, hright] at hfault halike
    obtain rfl : fault = fault' := hfault
    cases fault with
    | some fault =>
      rw [load_of_fault hleft, load_of_fault hright]
      exact halike
    | none =>
      rw [load_of_sound hleft, load_of_sound hright]
      exact (respects_commit left' right' halike).2

/-- **No step** leaves stores apart that were alike. -/
theorem Alike.perform (h : left.Alike ids right) (step : StoreStep) :
    (step.perform left).Alike ids (step.perform right) := by
  cases step with
  | command command => exact (respects_perform command left right h).2
  | load file defaultGraph => exact h.load file defaultGraph

/-- **No run of steps** leaves stores apart that were alike. -/
theorem Alike.afterSteps (h : left.Alike ids right) (steps : List StoreStep) :
    (left.afterSteps steps).Alike ids (right.afterSteps steps) := by
  induction steps generalizing left right with
  | nil => exact h
  | cons step rest ih => exact ih (h.perform step)

/-- Adding statements whose records have some of the identifiers is not noticed. -/
lemma Alike.afterAll_addQuad (h : left.Alike ids right) {quads : List Quad}
    (hids : ∀ quad ∈ quads, quad.record.id ∈ ids) :
    left.Alike ids (right.afterAll (quads.map .addQuad)) := by
  induction quads generalizing right with
  | nil => exact h
  | cons quad rest ih =>
    refine ih ?_ fun other hother => hids other (List.mem_cons_of_mem quad hother)
    have hid : quad.record.id ∈ ids := hids quad List.mem_cons_self
    obtain ⟨_, _, leftWriter, _, _⟩ := left
    obtain ⟨_, _, rightWriter, _, _⟩ := right
    obtain ⟨hvisible, hwriter, hlanguages⟩ := h
    cases hwriter with
    | none => exact ⟨hvisible, .none, hlanguages⟩
    | some halike => exact ⟨hvisible, .some (halike.add_right hid), hlanguages⟩

end

/-! ## Until something is committed -/

section

variable {index : Index}

/-- Only a commit changes what is shown. -/
lemma keeps_visible {command : StoreCommand} (h : command ≠ .commit) :
    Keeps (fun store => store.visible = index) command.perform := by
  have hchange (edit : Writer → Writer) : Keeps (fun store => store.visible = index) (change edit) :=
    keeps_change fun _ _ _ hvisible => hvisible
  have hcount (count : Statistics → Statistics) : Keeps (fun store => store.visible = index)
      (modify fun store => { store with stats := count store.stats }) :=
    keeps_modify fun _ hvisible => hvisible
  have hadd (graph : GraphName) (triple : Triple) :
      Keeps (fun store => store.visible = index) (Store.add graph triple) :=
    (hchange _).bind fun _ => hcount _
  have herase (filters : List Predicate) :
      Keeps (fun store => store.visible = index) (eraseMatching filters) :=
    (hchange _).bind fun _ => hcount _
  cases command with
  | add graph triple => exact hadd graph triple
  | addQuad quad => exact hadd quad.graph quad.triple
  | addAll graph triples =>
    exact ((Keeps.forM fun triple _ => hadd graph triple).bind fun _ => keeps_pure _).bind fun _ =>
      keeps_pure _
  | delete graph pattern =>
    refine Keeps.bind ?_ herase
    intro store hvisible
    show (building _ store).2.visible = index
    unfold building
    rcases patternPredicates graph pattern (fun _ => none) store.languages with ⟨_ | _, languages⟩ <;>
      exact hvisible
  | clear graph => exact herase _
  | clearAll => exact (hchange _).bind fun _ => hcount _
  | commit => exact absurd rfl h

lemma visible_addWhileSound (items : List (Except ReadError Quad)) (added : Nat) (store : Store) :
    (addWhileSound items added store).2.2.visible = store.visible := by
  induction items generalizing added store with
  | nil => rfl
  | cons item rest ih =>
    cases item with
    | error fault => rfl
    | ok quad =>
      have hcommand : StoreCommand.addQuad quad ≠ .commit := nofun
      have hkeeps : ((addQuad quad).run store).2.visible = store.visible :=
        keeps_visible hcommand store rfl
      rcases hrun : (addQuad quad).run store with ⟨fault | ⟨⟩, next⟩ <;> rw [hrun] at hkeeps <;>
        simp only [addWhileSound, hrun]
      · exact hkeeps
      · rw [ih, hkeeps]

/-- If there is a bad line, loading ends with a fault. -/
lemma exists_fault_addWhileSound {items : List (Except ReadError Quad)} {fault : ReadError}
    (h : .error fault ∈ items) (added : Nat) (store : Store) :
    ∃ found, (addWhileSound items added store).2.1 = some found := by
  induction items generalizing added store with
  | nil => cases h
  | cons item rest ih =>
    cases item with
    | error other => exact ⟨.line other, rfl⟩
    | ok quad =>
      have hrest : .error fault ∈ rest := by simpa using h
      rcases hrun : (addQuad quad).run store with ⟨other | ⟨⟩, next⟩ <;>
        simp only [addWhileSound, hrun]
      · exact ⟨.store other, rfl⟩
      · exact ih hrest (added + 1) next

/-- **A step that cannot commit** leaves what is shown. -/
theorem visible_perform {step : StoreStep} (h : ¬ step.MayCommit) (store : Store) :
    (step.perform store).visible = store.visible := by
  cases step with
  | command command => exact keeps_visible h store rfl
  | load file defaultGraph =>
    cases file with
    | none => rfl
    | some content =>
      have hexists : ∃ fault, .error fault ∈ content.quads defaultGraph := by
        simpa [StoreStep.MayCommit] using h
      obtain ⟨fault, hfault⟩ := hexists
      obtain ⟨found, hfound⟩ := exists_fault_addWhileSound hfault 0 store
      have hvisible := visible_addWhileSound (content.quads defaultGraph) 0 store
      rcases hrun : addWhileSound (content.quads defaultGraph) 0 store with ⟨_, other, next⟩
      rw [hrun] at hfound hvisible
      obtain rfl : other = some found := hfound
      rw [StoreStep.perform, load_of_fault hrun]
      exact hvisible

/-- **Steps that cannot commit** leave what is shown. -/
theorem visible_afterSteps {steps : List StoreStep} (h : ∀ step ∈ steps, ¬ step.MayCommit)
    (store : Store) : (store.afterSteps steps).visible = store.visible := by
  induction steps generalizing store with
  | nil => rfl
  | cons step rest ih =>
    obtain ⟨hstep, hrest⟩ := List.forall_mem_cons.mp h
    rw [← visible_perform hstep store]
    exact ih hrest (step.perform store)

end

end Store

/-- **What a failed load leaves behind.**  If a load ends at a bad line, the statements before that line
were added as if one by one, as many as were reported, and nothing else was done; what is shown is
unchanged.  So if the bad line comes first there is no trace.  Otherwise, whatever steps follow, what is
shown then is what it would be without the load except for the records that have identifiers of these
statements, and it is no different at all as long as no step may commit. -/
theorem failed_load_keeps_statements {content : Content} {defaultGraph : GraphName}
    {store store' : Store} {added : Nat} {fault : ReadError}
    (h : store.load (some content) defaultGraph = (added, .error (.line fault), store')) :
    ∃ (before : List Quad) (rest : List (Except ReadError Quad)),
      content.quads defaultGraph = before.map .ok ++ .error fault :: rest ∧
      added = before.length ∧
      store' = store.afterAll (before.map .addQuad) ∧
      store'.visible = store.visible ∧
      ∀ steps : List StoreStep,
        others (before.map (·.record.id)) (store'.afterSteps steps).visible.records =
          others (before.map (·.record.id)) (store.afterSteps steps).visible.records ∧
        ((∀ step ∈ steps, ¬ step.MayCommit) →
          (store'.afterSteps steps).visible = (store.afterSteps steps).visible) := by
  have hrun := Store.addWhileSound_of_load h
  obtain ⟨before, rest, hquads, hadded, hstore⟩ := Store.addWhileSound_line hrun
  have hvisible : store'.visible = store.visible := by
    have hkept := Store.visible_addWhileSound (content.quads defaultGraph) 0 store
    rwa [hrun] at hkept
  refine ⟨before, rest, hquads, by rw [hadded, Nat.zero_add], hstore, hvisible, fun steps => ⟨?_, ?_⟩⟩
  · have halike : store.Alike (before.map (·.record.id)) store' := by
      rw [hstore]
      exact (Store.Alike.refl store).afterAll_addQuad fun quad hquad => List.mem_map_of_mem hquad
    exact (halike.afterSteps steps).visible.symm
  · intro hnone
    rw [Store.visible_afterSteps hnone, Store.visible_afterSteps hnone, hvisible]

/-- A file with a statement and then a line that is none. -/
def statementThenBad : Content := .plain "<s> <p> <o> .\nbad\n".toUTF8.toList

lemma quads_statementThenBad : statementThenBad.quads .default =
    [.ok ⟨⟨.iri ⟨"s"⟩, ⟨"p"⟩, .iri ⟨"o"⟩⟩, .default⟩, .error ⟨2, .invalid .notInGrammar⟩] := by
  have hlines : statementThenBad.lines = [some "<s> <p> <o> .".toList, some "bad".toList] := by
    decide +kernel
  rw [Content.quads, hlines]
  cbv

/-- The statement before the bad line is shown by the next commit, together with one that was added
since; that one is shown without the load as well. -/
theorem failed_load_keeps_statements_then_commit :
    let kept : Quad := ⟨⟨.iri ⟨"s"⟩, ⟨"p"⟩, .iri ⟨"o"⟩⟩, .default⟩
    let other : Quad := ⟨⟨.iri ⟨"t"⟩, ⟨"p"⟩, .iri ⟨"o"⟩⟩, .default⟩
    let steps : List StoreStep := [.command (.addQuad other), .command .commit]
    ∃ store store', Store.create {} .empty false = .ok store ∧
      store.load (some statementThenBad) .default =
        (1, .error (.line ⟨2, .invalid .notInGrammar⟩), store') ∧
      store'.visible = store.visible ∧
      (store'.afterSteps steps).visible.records = [kept.record, other.record] ∧
      others [kept.record.id] (store.afterSteps steps).visible.records = [other.record] := by
  intro kept other steps
  let store : Store := ⟨{}, .empty, some (.on .empty), .empty, .zero⟩
  let store' : Store := store.afterAll [.addQuad kept]
  have hload : store.load (some statementThenBad) .default =
      (1, .error (.line ⟨2, .invalid .notInGrammar⟩), store') := by
    apply Store.load_of_fault
    rw [quads_statementThenBad]
    rfl
  obtain ⟨before, rest, hquads, -, -, hvisible, hsteps⟩ := failed_load_keeps_statements hload
  have hbefore : before = [kept] := by
    rw [quads_statementThenBad] at hquads
    rcases before with _ | ⟨quad, _ | ⟨more, before⟩⟩
    · cases hquads
    · have hquad : kept = quad := Except.ok.inj (List.cons.inj hquads).1
      rw [hquad]
    · cases (List.cons.inj hquads).2
  have hrecords : (store'.afterSteps steps).visible.records = [kept.record, other.record] := by
    decide +kernel
  refine ⟨store, store', rfl, hload, hvisible, hrecords, ?_⟩
  have hothers := (hsteps steps).1
  rw [hbefore, hrecords, List.map_singleton] at hothers
  rw [← hothers]
  decide +kernel

/-- **A failed load does leave a trace**: the next commit shows a statement that it would not have shown
without the load. -/
theorem failed_load_leaves_trace :
    ∃ store store', Store.create {} .empty false = .ok store ∧
      store.load (some statementThenBad) .default =
        (1, .error (.line ⟨2, .invalid .notInGrammar⟩), store') ∧
      (store'.afterSteps [.command .commit]).visible.records.length = 1 ∧
      (store.afterSteps [.command .commit]).visible.records = [] := by
  let store : Store := ⟨{}, .empty, some (.on .empty), .empty, .zero⟩
  refine ⟨store, store.afterAll [.addQuad ⟨⟨.iri ⟨"s"⟩, ⟨"p"⟩, .iri ⟨"o"⟩⟩, .default⟩], rfl, ?_, rfl, rfl⟩
  apply Store.load_of_fault
  rw [quads_statementThenBad]
  rfl

end QuadStore
