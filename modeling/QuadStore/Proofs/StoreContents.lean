import QuadStore.Store
import Mathlib.Data.List.Basic
import Mathlib.Tactic.Lemma

/-!
# What a writer keeps

A writer's changes are seen through the records that a commit would show, `Writer.committed`.
Erasing takes out the records that satisfy a condition, wherever they stand, and adding takes out
those with the identifier of the new record and puts that one in.  The segments, their places and
their dictionaries do not matter for this, and neither does the dropping of empty segments.

For a store this is said of the records that are staged, those that a commit would show.  A
read-only store changes nothing, so that it shows them already.
-/

namespace QuadStore

namespace Segment

lemma records_erase (segment : Segment) (condition : Record → Bool) :
    (segment.erase condition).records.map Prod.snd =
      (segment.records.map Prod.snd).filter fun record => !condition record := by
  rw [List.filter_map]
  rfl

end Segment

namespace Index

lemma records_compact (index : Index) : index.compact.records = index.records := by
  obtain ⟨segments⟩ := index
  simp only [records, compact]
  induction segments with
  | nil => rfl
  | cons segment segments ih =>
    rw [List.filter_cons]
    split
    · rw [List.flatMap_cons, List.flatMap_cons, ih]
    · rename_i hempty
      have hnone : segment.records = [] := by simpa using hempty
      rw [List.flatMap_cons, ih, hnone]
      rfl

lemma records_erase (index : Index) (condition : Record → Bool) :
    (index.erase condition).records = index.records.filter fun record => !condition record := by
  simp only [records, erase, List.flatMap_map, List.filter_flatMap]
  exact List.flatMap_congr fun segment _ => segment.records_erase condition

end Index

namespace Writer

lemma records_committed (writer : Writer) : writer.committed.records =
    writer.image.records ++ writer.pending.records.map Prod.snd := by
  rw [committed, Index.records_compact]
  simp [Index.records]

/-- Without changes an index is committed as it is. -/
lemma records_committed_on (index : Index) : (on index).committed.records = index.records := by
  rw [records_committed]
  simp [on]

lemma records_committed_erase (writer : Writer) (condition : Record → Bool) :
    (writer.erase condition).committed.records =
      writer.committed.records.filter fun record => !condition record := by
  rw [records_committed, records_committed, List.filter_append]
  simp only [erase, Index.records_erase, Segment.records_erase]

/-- **Adding a record** takes out those with its identifier and puts it at the end. -/
theorem records_committed_add (writer : Writer) (record : Record) :
    (writer.add record).committed.records =
      (writer.committed.records.filter fun old => !(old.id == record.id)) ++ [record] := by
  rw [← records_committed_erase, records_committed, records_committed]
  simp [add]

end Writer

namespace Store

/-- The store that an operation leaves, whether it succeeds or not. -/
def after {α : Type} (store : Store) (operation : StoreM α) : Store := (operation.run.run store).2

/-- The records that a commit would show. -/
def staged (store : Store) : List Record :=
  match store.writer with
  | some writer => writer.committed.records
  | none => store.visible.records

/-- **A commit shows what was staged.** -/
theorem visible_commit (store : Store) :
    (store.after commit).visible.records = store.staged := by
  obtain ⟨config, visible, writer, languages, stats⟩ := store
  cases writer <;> rfl

/-- **Adding a statement** to a store that can be changed takes out the records with its identifier
and puts its record at the end. -/
theorem staged_add (store : Store) (graph : GraphName) (triple : Triple)
    (h : store.isReadOnly = false) : (store.after (add graph triple)).staged =
      (store.staged.filter fun old => !(old.id == (Record.ofTriple graph triple).id)) ++
        [Record.ofTriple graph triple] := by
  obtain ⟨config, visible, writer, languages, stats⟩ := store
  cases writer with
  | none => cases h
  | some writer => exact writer.records_committed_add (Record.ofTriple graph triple)

lemma after_add_of_readOnly {store : Store} (h : store.isReadOnly = true) (graph : GraphName)
    (triple : Triple) : store.after (add graph triple) = store := by
  obtain ⟨config, visible, writer, languages, stats⟩ := store
  cases writer with
  | none => rfl
  | some writer => cases h

lemma isReadOnly_after_add (store : Store) (graph : GraphName) (triple : Triple) :
    (store.after (add graph triple)).isReadOnly = store.isReadOnly := by
  obtain ⟨config, visible, writer, languages, stats⟩ := store
  cases writer <;> rfl

end Store

end QuadStore
