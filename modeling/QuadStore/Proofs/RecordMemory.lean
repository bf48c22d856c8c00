import Mathlib
import QuadStore.CandidateSet.Sharing

/-!
# Record lists in memory

A leaf does not have its records in itself.  They stand in memory, where any number of leaves may hold
the same list, and memory counts the holders of each.  Everything rests on this number.  A holder that
is to add a record may write into the list only if there is no other, and has to go on with a copy
otherwise; and a list whose last holder is gone makes way for another, so that one place in memory may
hold one list after the other.

If memory counts right (`RecordMemory.Counts`), adding a record for one holder changes nothing for the
others (`RecordMemory.Counts.insert`).  Which places memory gives to new lists is left open: any place
that is free.
-/

namespace QuadStore

/-- A place for a record list. -/
abbrev Address := Nat

/-- The record lists, each with the number of its holders.  Where there is no holder there is no list,
whatever may be left of an earlier one. -/
structure RecordMemory where
  records : Address → List RecordId
  holders : Address → Nat

namespace RecordMemory

/-- Memory without any list. -/
def empty : RecordMemory := ⟨fun _ => [], fun _ => 0⟩

variable (memory : RecordMemory) (list free : Address)

/-- A new list for one holder. -/
def allocate (records : List RecordId) : RecordMemory where
  records := Function.update memory.records free records
  holders := Function.update memory.holders free 1

/-- One holder more. -/
def retain : RecordMemory :=
  { memory with holders := Function.update memory.holders list (memory.holders list + 1) }

/-- One holder less. -/
def release : RecordMemory :=
  { memory with holders := Function.update memory.holders list (memory.holders list - 1) }

/-- The list that a holder may write into: the one it holds if no other does, or else a copy that it
holds instead. -/
def own : Address × RecordMemory :=
  if memory.holders list = 1 then (list, memory)
  else (free, (memory.allocate free (memory.records list)).release list)

/-- One record more at the end of a list. -/
def push (record : RecordId) : RecordMemory :=
  { memory with records := Function.update memory.records list (memory.records list ++ [record]) }

/-- One record more for a holder, and the list that it holds then. -/
def insert (record : RecordId) : Address × RecordMemory :=
  ((memory.own list free).1, (memory.own list free).2.push (memory.own list free).1 record)

/-- Memory counts right: these are the lists that are held, each as often as it is held. -/
def Counts (held : List Address) : Prop := ∀ address, memory.holders address = held.count address

namespace Counts

variable {memory : RecordMemory} {list free : Address} {held : List Address}

lemma empty : RecordMemory.empty.Counts [] := fun _ => rfl

lemma perm (h : memory.Counts held) {held' : List Address} (hperm : held.Perm held') :
    memory.Counts held' := fun address => (h address).trans (hperm.count_eq address)

/-- Nobody holds a place that is free. -/
lemma not_mem (h : memory.Counts held) (hfree : memory.holders free = 0) : free ∉ held := by
  rw [h free] at hfree
  exact List.count_eq_zero.mp hfree

lemma allocate (h : memory.Counts held) (hfree : memory.holders free = 0) (records : List RecordId) :
    (memory.allocate free records).Counts (free :: held) := by
  intro address
  by_cases haddress : address = free
  · subst haddress
    simp [RecordMemory.allocate, List.count_eq_zero.mpr (h.not_mem hfree)]
  · simp [RecordMemory.allocate, haddress, List.count_cons_of_ne (Ne.symm haddress), h address]

lemma retain (h : memory.Counts held) (list : Address) :
    (memory.retain list).Counts (list :: held) := by
  intro address
  by_cases haddress : address = list
  · subst haddress
    simp [RecordMemory.retain, h address]
  · simp [RecordMemory.retain, haddress, List.count_cons_of_ne (Ne.symm haddress), h address]

lemma release (h : memory.Counts (list :: held)) : (memory.release list).Counts held := by
  intro address
  by_cases haddress : address = list
  · subst haddress
    simp [RecordMemory.release, h address]
  · simp [RecordMemory.release, haddress, List.count_cons_of_ne (Ne.symm haddress), h address]

/-- A list that is its holder's own, or a copy of it, is no other's. -/
lemma own (h : memory.Counts (list :: held)) (hfree : memory.holders free = 0) :
    (memory.own list free).2.Counts ((memory.own list free).1 :: held) ∧
      (memory.own list free).1 ∉ held ∧
      (memory.own list free).2.records (memory.own list free).1 = memory.records list ∧
      ∀ other ∈ held, (memory.own list free).2.records other = memory.records other := by
  have hholders := h list
  rw [List.count_cons_self] at hholders
  unfold RecordMemory.own
  split
  · have hnone : held.count list = 0 := by omega
    exact ⟨h, List.count_eq_zero.mp hnone, rfl, fun _ _ => rfl⟩
  · have hfresh : free ∉ list :: held := h.not_mem hfree
    have hcopied := ((h.allocate hfree (memory.records list)).perm (.swap list free held)).release
    refine ⟨hcopied, List.not_mem_of_not_mem_cons hfresh, Function.update_self .., ?_⟩
    intro other hother
    have hne : other ≠ free := by
      rintro rfl
      exact hfresh (List.mem_cons_of_mem list hother)
    exact Function.update_of_ne hne ..

/-- **One holder gets a record** at the end of its list, and no other holder does. -/
theorem insert (h : memory.Counts (list :: held)) (hfree : memory.holders free = 0)
    (record : RecordId) :
    (memory.insert list free record).2.Counts ((memory.insert list free record).1 :: held) ∧
      (memory.insert list free record).1 ∉ held ∧
      (memory.insert list free record).2.records (memory.insert list free record).1 =
        memory.records list ++ [record] ∧
      ∀ other ∈ held, (memory.insert list free record).2.records other = memory.records other := by
  obtain ⟨hcounts, hnew, hrecords, hothers⟩ := h.own hfree
  refine ⟨hcounts, hnew, ?_, fun other hother => ?_⟩
  · rw [← hrecords]
    exact Function.update_self ..
  · have hne : other ≠ (memory.own list free).1 := by
      rintro rfl
      exact hnew hother
    rw [← hothers other hother]
    exact Function.update_of_ne hne ..

/-- A holder that is alone keeps its list. -/
lemma insert_fst (h : memory.Counts (list :: held)) (free : Address) (hlist : list ∉ held)
    (record : RecordId) : (memory.insert list free record).1 = list := by
  have hholders : memory.holders list = 1 := by
    rw [h list, List.count_cons_self, List.count_eq_zero.mpr hlist]
  rw [RecordMemory.insert, RecordMemory.own, if_pos hholders]

/-- There is always a free place. -/
lemma exists_free (h : memory.Counts held) : ∃ free, memory.holders free = 0 := by
  obtain ⟨free, hfree⟩ := Infinite.exists_notMem_finset held.toFinset
  refine ⟨free, ?_⟩
  rw [h free]
  exact List.count_eq_zero.mpr fun hmem => hfree (List.mem_toFinset.mpr hmem)

/-! ### Several holders at once -/

lemma retainAll (h : memory.Counts held) (lists : List Address) :
    (lists.foldl RecordMemory.retain memory).Counts (lists ++ held) ∧
      (lists.foldl RecordMemory.retain memory).records = memory.records := by
  induction lists generalizing memory held with
  | nil => exact ⟨h, rfl⟩
  | cons first rest ih =>
    obtain ⟨hcounts, hrecords⟩ := ih (h.retain first)
    exact ⟨hcounts.perm List.perm_middle, hrecords⟩

lemma releaseAll {lists : List Address} (h : memory.Counts (lists ++ held)) :
    (lists.foldl RecordMemory.release memory).Counts held ∧
      (lists.foldl RecordMemory.release memory).records = memory.records := by
  induction lists generalizing memory with
  | nil => exact ⟨h, rfl⟩
  | cons first rest ih => exact ih h.release

end Counts

end RecordMemory

end QuadStore
