import QuadStore.Page
import Mathlib.Data.List.Basic
import Mathlib.Tactic.Lemma

/-!
# Cursors in a sorted list

In either direction the records of an index are ordered, and a cursor after a record has those to
come that are strictly beyond it.  So a cursor that was set behind the first `n` records of a sorted
list has just the others to come (`Cursor.filter_past`), and the exact answer to a request at that
cursor is the next stretch of the list (`Page.exact_past`).
-/

namespace QuadStore

/-! ## The two directions -/

namespace SortOrder

/-- A record comes before another: a cursor after the first has the second to come. -/
def Before (order : SortOrder) (a b : RecordId) : Prop := (Cursor.after a).precedes b order = true

variable (order : SortOrder) {a b c : RecordId}

lemma before_irrefl (a : RecordId) : ¬ order.Before a a := by
  intro h
  cases order <;> simp only [Before, Cursor.precedes, decide_eq_true_eq] at h
  all_goals
    have hlt : a.segment < a.segment ∨ a.segment = a.segment ∧ a.doc < a.doc := h
    omega

lemma before_asymm (hab : order.Before a b) : ¬ order.Before b a := by
  intro hba
  cases order <;> simp only [Before, Cursor.precedes, decide_eq_true_eq] at hab hba
  · have h : a.segment < b.segment ∨ a.segment = b.segment ∧ a.doc < b.doc := hab
    have h' : b.segment < a.segment ∨ b.segment = a.segment ∧ b.doc < a.doc := hba
    omega
  · have h : b.segment < a.segment ∨ b.segment = a.segment ∧ b.doc < a.doc := hab
    have h' : a.segment < b.segment ∨ a.segment = b.segment ∧ a.doc < b.doc := hba
    omega

lemma inOrder_trans (hab : order.inOrder a b) (hbc : order.inOrder b c) : order.inOrder a c := by
  have htrans : ∀ a b c : RecordId, a ≤ b → b ≤ c → a ≤ c := by
    intro a b c hab hbc
    have h : a.segment < b.segment ∨ a.segment = b.segment ∧ a.doc ≤ b.doc := hab
    have h' : b.segment < c.segment ∨ b.segment = c.segment ∧ b.doc ≤ c.doc := hbc
    show a.segment < c.segment ∨ a.segment = c.segment ∧ a.doc ≤ c.doc
    omega
  cases order <;> simp only [inOrder, decide_eq_true_eq] at hab hbc ⊢
  · exact htrans a b c hab hbc
  · exact htrans c b a hbc hab

lemma inOrder_total (a b : RecordId) : order.inOrder a b || order.inOrder b a := by
  have htotal : a ≤ b ∨ b ≤ a := by
    show (a.segment < b.segment ∨ a.segment = b.segment ∧ a.doc ≤ b.doc) ∨
      (b.segment < a.segment ∨ b.segment = a.segment ∧ b.doc ≤ a.doc)
    omega
  cases order <;> simp only [inOrder, Bool.or_eq_true, decide_eq_true_eq]
  · exact htotal
  · exact htotal.symm

lemma before_of_inOrder (h : order.inOrder a b) (hne : a ≠ b) : order.Before a b := by
  have hlt : ∀ a b : RecordId, a ≤ b → a ≠ b → a < b := by
    intro a b hab hne
    have h : a.segment < b.segment ∨ a.segment = b.segment ∧ a.doc ≤ b.doc := hab
    have hparts : ¬ (a.segment = b.segment ∧ a.doc = b.doc) := fun heq => by
      obtain ⟨hsegment, hdoc⟩ := heq
      cases a; cases b
      exact hne (by simp_all)
    show a.segment < b.segment ∨ a.segment = b.segment ∧ a.doc < b.doc
    omega
  cases order <;> simp only [inOrder, Before, Cursor.precedes, decide_eq_true_eq] at h ⊢
  · exact hlt a b h hne
  · exact hlt b a h hne.symm

variable {found : List RecordId}

/-- Sorting moves records only. -/
lemma sorted_perm (found : List RecordId) : (order.sorted found).Perm found :=
  List.mergeSort_perm found order.inOrder

lemma length_sorted (found : List RecordId) : (order.sorted found).length = found.length :=
  (order.sorted_perm found).length_eq

lemma nodup_sorted (h : found.Nodup) : (order.sorted found).Nodup :=
  (order.sorted_perm found).nodup_iff.mpr h

/-- **Sorted records come strictly one before the other** unless one is repeated. -/
lemma pairwise_sorted (h : found.Nodup) : (order.sorted found).Pairwise order.Before := by
  have hle : (order.sorted found).Pairwise fun a b => order.inOrder a b = true :=
    @List.pairwise_mergeSort _ order.inOrder (fun _ _ _ => order.inOrder_trans)
      order.inOrder_total found
  have hne : (order.sorted found).Pairwise (· ≠ ·) := order.nodup_sorted h
  exact (hle.and hne).imp fun ⟨hab, hne⟩ => order.before_of_inOrder hab hne

end SortOrder

/-! ## Cursors behind a stretch -/

namespace Cursor

/-- The cursor behind some records: after the last of them, or at the start if there is none. -/
def past (records : List RecordId) : Cursor := (records.getLast?.map after).getD start

lemma past_nil : past [] = start := rfl

lemma past_concat (records : List RecordId) (last : RecordId) :
    past (records ++ [last]) = after last := by simp [past]

lemma past_append (records : List RecordId) {more : List RecordId} (h : more ≠ []) :
    past (records ++ more) = past more := by
  rw [past, past, List.getLast?_append_of_ne_nil _ h]

/-- A cursor moves when it passes more records, if none comes twice. -/
lemma past_append_ne {records more : List RecordId} (hnodup : (records ++ more).Nodup)
    (h : more ≠ []) : past (records ++ more) ≠ past records := by
  rw [past_append records h]
  rcases List.eq_nil_or_concat more with rfl | ⟨init, last, rfl⟩
  · exact absurd rfl h
  rw [List.concat_eq_append] at hnodup ⊢
  rw [past_concat]
  intro hpast
  rcases List.eq_nil_or_concat records with rfl | ⟨front, record, rfl⟩
  · cases hpast
  · rw [List.concat_eq_append, past_concat, after.injEq] at hpast
    have hdistinct := (List.nodup_append.mp hnodup).2.2
    exact hdistinct record (by simp) last (by simp) hpast.symm

/-- **The records past a cursor** behind the first part of a sorted list are the second part. -/
theorem filter_past {order : SortOrder} {front rest : List RecordId}
    (h : (front ++ rest).Pairwise order.Before) :
    (front ++ rest).filter ((past front).precedes · order) = rest := by
  obtain ⟨hfront, hrest, hacross⟩ := List.pairwise_append.mp h
  rcases List.eq_nil_or_concat front with rfl | ⟨init, last, rfl⟩
  · have hall : ∀ record ∈ rest, (past []).precedes record order = true := fun _ _ => rfl
    rw [List.nil_append, List.filter_eq_self.mpr hall]
  · rw [List.concat_eq_append] at hfront hacross ⊢
    rw [past_concat, List.filter_append]
    have hnone : (init ++ [last]).filter ((after last).precedes · order) = [] := by
      rw [List.filter_eq_nil_iff]
      intro record hmem hprecedes
      rcases List.mem_append.mp hmem with hinit | hlast
      · have hbefore := (List.pairwise_append.mp hfront).2.2 record hinit last List.mem_cons_self
        exact order.before_asymm hbefore hprecedes
      · rw [List.mem_singleton.mp hlast] at hprecedes
        exact order.before_irrefl last hprecedes
    have hall : ∀ record ∈ rest, (after last).precedes record order = true := fun record hmem =>
      hacross last (by simp) record hmem
    rw [hnone, List.filter_eq_self.mpr hall, List.nil_append]

end Cursor

/-- The exact answer to a request behind the first part of the records it asks for is the next
stretch of them, and goes on behind that. -/
theorem Page.exact_past {order : SortOrder} {found front rest : List RecordId}
    (hfound : found.Nodup) (hsplit : order.sorted found = front ++ rest)
    (filters : List Predicate) (length : Nat) :
    Page.exact found ⟨filters, order, length, Cursor.past front⟩ =
      ⟨rest.take length, Cursor.past (front ++ rest.take length), found.length⟩ := by
  have hsorted : (front ++ rest).Pairwise order.Before := hsplit ▸ order.pairwise_sorted hfound
  simp only [Page.exact, hsplit, Cursor.filter_past hsorted, Page.after, Page.mk.injEq, true_and,
    and_true]
  by_cases hempty : rest.take length = []
  · rw [hempty, List.append_nil]
    rfl
  · rw [Cursor.past_append _ hempty]
    simp only [Cursor.past, List.getLast?_eq_some_getLast hempty]
    rfl

end QuadStore
