import Mathlib
import QuadStore.Proofs.CursorOrder

/-!
# Pages put together from segments

An index collects a page segment by segment and keeps no more records of a segment than the page may
have.  The drafts are then united, put in order and cut to the length of the page.  What comes of it is
the exact answer to the request (`PageCollector.page_eq_exact`).

In a segment the matches come in ascending order, so that an ascending page has the first of them past
the cursor, and a descending one the last (`PageCollector.segment_eq`).  Nothing is lost by this, since
a record that is among the first of all is among the first of its segment (`mem_take_of_sublist`).

Since the page is put in order at the end, the drafts may be united in any order, and what the page holds
can be said without it: the first matches past the cursor, and how many matches there are
(`PageCollector.merge_holds_first`).
-/

namespace QuadStore

/-! ## The first elements of a list -/

section

variable {α : Type}

/-- An element among the first of a list is among the first of any part of it. -/
lemma mem_take_of_sublist {part list : List α} (h : part.Sublist list) (hnodup : list.Nodup) {a : α}
    {count : Nat} (hlist : a ∈ list.take count) (hpart : a ∈ part) : a ∈ part.take count := by
  induction h generalizing count with
  | slnil => exact absurd hpart List.not_mem_nil
  | @cons part list b h ih =>
    obtain ⟨hb, hnodup⟩ := List.nodup_cons.mp hnodup
    cases count with
    | zero => exact absurd hlist List.not_mem_nil
    | succ count =>
      rcases List.mem_cons.mp hlist with rfl | hlist
      · exact absurd (h.subset hpart) hb
      · exact (List.take_sublist_take_left (Nat.le_succ count)).subset (ih hnodup hlist hpart)
  | @cons_cons part list b h ih =>
    obtain ⟨hb, hnodup⟩ := List.nodup_cons.mp hnodup
    cases count with
    | zero => exact absurd hlist List.not_mem_nil
    | succ count =>
      rcases List.mem_cons.mp hlist with rfl | hlist
      · exact List.mem_cons_self
      · rcases List.mem_cons.mp hpart with rfl | hpart
        · exact List.mem_cons_self
        · exact List.mem_cons_of_mem _ (ih hnodup hlist hpart)

/-- Taking out none of the first elements leaves them the first. -/
lemma take_filter_of_forall {p : α → Bool} {list : List α} {count : Nat}
    (h : ∀ a ∈ list.take count, p a = true) : (list.filter p).take count = list.take count := by
  induction list generalizing count with
  | nil => rfl
  | cons a list ih =>
    cases count with
    | zero => rfl
    | succ count =>
      rw [List.take_succ_cons] at h ⊢
      have ha : p a = true := h a List.mem_cons_self
      rw [List.filter_cons_of_pos ha, List.take_succ_cons,
        ih fun b hb => h b (List.mem_cons_of_mem a hb)]

end

namespace SortOrder

variable {order : SortOrder}

/-- Lists in order with the same elements are the same. -/
lemma eq_of_perm {list list' : List RecordId} (h : list.Perm list') (hlist : list.Pairwise order.Before)
    (hlist' : list'.Pairwise order.Before) : list = list' :=
  h.eq_of_pairwise (fun _ _ _ _ hab hba => absurd hba (order.before_asymm hab)) hlist hlist'

lemma nodup_of_pairwise {list : List RecordId} (h : list.Pairwise order.Before) : list.Nodup := by
  apply h.imp
  intro a b hab heq
  exact order.before_irrefl b (heq ▸ hab)

/-- The order in which records were found does not matter once they are sorted. -/
lemma sorted_eq_of_perm {found list : List RecordId} (h : found.Perm list)
    (hlist : list.Pairwise order.Before) : order.sorted found = list := by
  have hnodup : found.Nodup := h.nodup_iff.mpr (nodup_of_pairwise hlist)
  exact eq_of_perm ((order.sorted_perm found).trans h) (order.pairwise_sorted hnodup) hlist

/-- What is not among the first of a list in order comes after them. -/
lemma before_of_notMem_take {list : List RecordId} (h : list.Pairwise order.Before) {count : Nat}
    {first other : RecordId} (hfirst : first ∈ list.take count) (hother : other ∈ list)
    (hnot : other ∉ list.take count) : order.Before first other := by
  rw [← List.take_append_drop count list] at h hother
  exact (List.pairwise_append.mp h).2.2 first hfirst other
    ((List.mem_append.mp hother).resolve_left hnot)

end SortOrder

namespace PageCollector

variable (collector : PageCollector)

/-! ## One segment -/

/-- The matches that are to come. -/
def toCome (found : List RecordId) : List RecordId :=
  found.filter (collector.after.precedes · collector.order)

lemma toCome_cons (record : RecordId) (found : List RecordId) :
    collector.toCome (record :: found) =
      if collector.after.precedes record collector.order then record :: collector.toCome found
      else collector.toCome found :=
  List.filter_cons

/-- A match that lies before the cursor is counted only. -/
lemma collect_of_not {record : RecordId}
    (h : ¬ collector.after.precedes record collector.order = true) (draft : PageDraft) :
    collector.collect draft record = { draft with total := draft.total + 1 } := by
  unfold collect
  rw [if_neg h]

lemma total_foldl_collect (found : List RecordId) (draft : PageDraft) :
    (found.foldl collector.collect draft).total = draft.total + found.length := by
  induction found generalizing draft with
  | nil => rfl
  | cons record found ih =>
    have hone : (collector.collect draft record).total = draft.total + 1 := by
      unfold collect
      repeat' split
      all_goals rfl
    rw [List.foldl_cons, ih, hone, List.length_cons]
    omega

/-- Ascending, what is kept is never taken back. -/
lemma records_foldl_ascending (h : collector.order = .ascending) (found : List RecordId)
    (draft : PageDraft) : (found.foldl collector.collect draft).records =
      draft.records ++ (collector.toCome found).take (collector.limit - draft.records.length) := by
  induction found generalizing draft with
  | nil => simp [toCome]
  | cons record found ih =>
    rw [List.foldl_cons, ih, toCome_cons]
    by_cases hprecedes : collector.after.precedes record collector.order = true
    · have hkept : (collector.collect draft record).records =
          draft.records ++ [record].take (collector.limit - draft.records.length) := by
        unfold collect
        rw [if_pos hprecedes, h]
        by_cases hroom : draft.records.length < collector.limit
        · have htake : [record].take (collector.limit - draft.records.length) = [record] :=
            List.take_of_length_le (by rw [List.length_singleton]; omega)
          simp only [if_pos hroom, htake]
        · have hnone : collector.limit - draft.records.length = 0 := by omega
          simp only [if_neg hroom, hnone, List.take_zero, List.append_nil]
      have hleft : collector.limit -
          (draft.records ++ [record].take (collector.limit - draft.records.length)).length =
            collector.limit - draft.records.length - [record].length := by
        rw [List.length_append, List.length_take, List.length_singleton]
        omega
      rw [if_pos hprecedes, hkept, hleft, List.append_assoc, ← List.take_append,
        List.singleton_append]
    · rw [if_neg hprecedes, collect_of_not collector hprecedes]

lemma take_append_take {α : Type} (front back : List α) (count : Nat) :
    (front ++ back.take count).take count = (front ++ back).take count := by
  rw [List.take_append, List.take_append, List.take_take]
  congr 2
  omega

/-- Descending, the last ones are kept: read backwards, the first. -/
lemma records_foldl_descending (h : collector.order = .descending) (found : List RecordId)
    (draft : PageDraft) (hroom : draft.records.length ≤ collector.limit) :
    (found.foldl collector.collect draft).records.reverse =
      ((collector.toCome found).reverse ++ draft.records.reverse).take collector.limit := by
  induction found generalizing draft with
  | nil => simp [toCome, hroom]
  | cons record found ih =>
    rw [toCome_cons, List.foldl_cons]
    by_cases hprecedes : collector.after.precedes record collector.order = true
    · have hkept : (collector.collect draft record).records.reverse =
          (record :: draft.records.reverse).take collector.limit := by
        unfold collect
        rw [if_pos hprecedes, h]
        simp only
        rw [List.length_append, List.length_singleton]
        by_cases hfull : collector.limit < draft.records.length + 1
        · have hlimit : draft.records.length + 1 - 1 = collector.limit := by omega
          rw [if_pos hfull, List.reverse_drop, List.length_append, List.length_singleton, hlimit,
            List.reverse_append, List.reverse_singleton, List.singleton_append]
        · have hlimit : (record :: draft.records.reverse).length ≤ collector.limit := by
            rw [List.length_cons, List.length_reverse]
            omega
          rw [if_neg hfull, List.take_of_length_le hlimit, List.reverse_append,
            List.reverse_singleton, List.singleton_append]
      have hlength : (collector.collect draft record).records.length ≤ collector.limit := by
        rw [← List.length_reverse, hkept, List.length_take]
        omega
      rw [ih _ hlength, hkept, take_append_take, if_pos hprecedes, List.reverse_cons,
        List.append_assoc, List.singleton_append]
    · rw [if_neg hprecedes, collect_of_not collector hprecedes]
      exact ih { draft with total := draft.total + 1 } hroom

/-- **The draft of a segment** has the first of its matches in the direction of the page. -/
theorem segment_eq {found : List RecordId} (h : found.Pairwise SortOrder.ascending.Before) :
    collector.segment found =
      ⟨(collector.toCome (collector.order.sorted found)).take collector.limit, found.length⟩ := by
  have htotal : (found.foldl collector.collect ⟨[], 0⟩).total = found.length := by
    rw [total_foldl_collect, Nat.zero_add]
  unfold segment
  cases horder : collector.order with
  | ascending =>
    have hrecords : (found.foldl collector.collect ⟨[], 0⟩).records =
        (collector.toCome found).take collector.limit :=
      collector.records_foldl_ascending horder found ⟨[], 0⟩
    rw [SortOrder.sorted_eq_of_perm (.refl found) h, ← hrecords, ← htotal]
  | descending =>
    have hrecords := collector.records_foldl_descending horder found ⟨[], 0⟩ (Nat.zero_le _)
    rw [List.reverse_nil, List.append_nil] at hrecords
    have hreverse : SortOrder.descending.sorted found = found.reverse :=
      SortOrder.sorted_eq_of_perm (List.reverse_perm found).symm (List.pairwise_reverse.mpr h)
    have htoCome : collector.toCome found.reverse = (collector.toCome found).reverse :=
      List.filter_reverse
    simp only [hreverse, htoCome, hrecords, htotal]

/-! ## All segments -/

/-- The matches of a segment that are to come stand in order among all that are to come. -/
lemma toCome_sublist {segments : List (List RecordId)} (hnodup : segments.flatten.Nodup)
    {found : List RecordId} (hfound : found ∈ segments) :
    (collector.toCome (collector.order.sorted found)).Sublist
      (collector.toCome (collector.order.sorted segments.flatten)) := by
  have hperm : (segments.flatten.filter (· ∈ found)).Perm found := by
    rw [List.perm_ext_iff_of_nodup (hnodup.filter _) ((List.nodup_flatten.mp hnodup).1 found hfound)]
    intro record
    rw [List.mem_filter, decide_eq_true_eq, and_iff_right_iff_imp]
    exact fun hrecord => List.mem_flatten_of_mem hfound hrecord
  have hsorted : (collector.order.sorted segments.flatten).filter (· ∈ found) =
      collector.order.sorted found := by
    symm
    apply SortOrder.sorted_eq_of_perm
    · exact hperm.symm.trans ((collector.order.sorted_perm _).filter _).symm
    · exact (collector.order.pairwise_sorted hnodup).filter _
  rw [← hsorted]
  exact List.filter_sublist.filter _

/-- **The first of the first are the first of all.**  It is enough to have as many records of each
segment as the page may have. -/
theorem take_sorted_flatMap {segments : List (List RecordId)} (hnodup : segments.flatten.Nodup) :
    (collector.order.sorted (segments.flatMap fun found =>
        (collector.toCome (collector.order.sorted found)).take collector.limit)).take collector.limit =
      (collector.toCome (collector.order.sorted segments.flatten)).take collector.limit := by
  let first := fun found => (collector.toCome (collector.order.sorted found)).take collector.limit
  let all := collector.toCome (collector.order.sorted segments.flatten)
  have hall : all.Pairwise collector.order.Before :=
    (collector.order.pairwise_sorted hnodup).filter _
  have hfound : ∀ found, first found ⊆ found := by
    intro found record hrecord
    have hsorted := List.mem_of_mem_filter (List.mem_of_mem_take hrecord)
    exact (collector.order.sorted_perm found).mem_iff.mp hsorted
  have hkept : (segments.flatMap first).Nodup := by
    obtain ⟨heach, hapart⟩ := List.nodup_flatten.mp hnodup
    rw [List.nodup_flatMap]
    constructor
    · intro found hmem
      have hsorted := (collector.order.nodup_sorted (heach found hmem)).filter
        (collector.after.precedes · collector.order)
      exact hsorted.sublist (List.take_sublist _ _)
    · apply hapart.imp
      intro found other hdisjoint record hrecord hother
      exact hdisjoint (hfound found hrecord) (hfound other hother)
  have hperm : (segments.flatMap first).Perm (all.filter (· ∈ segments.flatMap first)) := by
    rw [List.perm_ext_iff_of_nodup hkept ((SortOrder.nodup_of_pairwise hall).filter _)]
    intro record
    rw [List.mem_filter, decide_eq_true_eq, iff_and_self]
    intro hrecord
    obtain ⟨found, hmem, hfirst⟩ := List.mem_flatMap.mp hrecord
    exact (collector.toCome_sublist hnodup hmem).subset (List.mem_of_mem_take hfirst)
  have hsorted : collector.order.sorted (segments.flatMap first) =
      all.filter (· ∈ segments.flatMap first) := SortOrder.sorted_eq_of_perm hperm (hall.filter _)
  show (collector.order.sorted (segments.flatMap first)).take collector.limit = all.take collector.limit
  rw [hsorted]
  apply take_filter_of_forall
  -- One of the first of all is one of the first of its segment.
  intro record hrecord
  have htoCome : record ∈ all := List.mem_of_mem_take hrecord
  obtain ⟨hin, hprecedes⟩ := List.mem_filter.mp htoCome
  obtain ⟨found, hmem, hsegment⟩ :=
    List.mem_flatten.mp ((collector.order.sorted_perm _).mem_iff.mp hin)
  have hown : record ∈ collector.toCome (collector.order.sorted found) :=
    List.mem_filter.mpr ⟨(collector.order.sorted_perm found).mem_iff.mpr hsegment, hprecedes⟩
  rw [decide_eq_true_eq]
  exact List.mem_flatMap.mpr ⟨found, hmem, mem_take_of_sublist (collector.toCome_sublist hnodup hmem)
    (SortOrder.nodup_of_pairwise hall) hrecord hown⟩

/-- **The drafts of all segments together** have the first of all matches that are to come, if the
matches of each segment come in ascending order and none comes in two segments. -/
theorem merge_segments {segments : List (List RecordId)}
    (hascending : ∀ found ∈ segments, found.Pairwise SortOrder.ascending.Before)
    (hnodup : segments.flatten.Nodup) :
    collector.merge (segments.map collector.segment) =
      ⟨(collector.toCome (collector.order.sorted segments.flatten)).take collector.limit,
        segments.flatten.length⟩ := by
  have hdrafts : segments.map collector.segment = segments.map fun found =>
      ⟨(collector.toCome (collector.order.sorted found)).take collector.limit, found.length⟩ :=
    List.map_congr_left fun found hfound => collector.segment_eq (hascending found hfound)
  have htotal : (segments.map collector.segment).foldr (fun draft total => draft.total + total) 0 =
      segments.flatten.length := by
    rw [hdrafts, List.foldr_map, List.length_flatten, List.sum_eq_foldr, List.foldr_map]
  have hrecords : (segments.map collector.segment).flatMap PageDraft.records =
      segments.flatMap fun found =>
        (collector.toCome (collector.order.sorted found)).take collector.limit := by
    rw [hdrafts, List.flatMap_map]
  unfold merge
  rw [hrecords, htotal, collector.take_sorted_flatMap hnodup]

/-- **Pages put together from segments are exact**, if the matches of each segment come in ascending
order and none comes in two segments. -/
theorem page_eq_exact (request : PageRequest) {segments : List (List RecordId)}
    (hascending : ∀ found ∈ segments, found.Pairwise SortOrder.ascending.Before)
    (hnodup : segments.flatten.Nodup) :
    page request segments = Page.exact segments.flatten request := by
  let collector : PageCollector := ⟨request.length, request.cursor, request.order⟩
  show Page.after (collector.merge (segments.map collector.segment)).records request.cursor
    (collector.merge (segments.map collector.segment)).total = _
  rw [collector.merge_segments hascending hnodup]
  rfl

/-! ## Segments in any order -/

/-- The matches of a segment with an ordinal, whose places are given. -/
def matchesOf (segment : Nat × List Nat) : List RecordId := segment.2.map (RecordId.mk segment.1)

lemma pairwise_matchesOf {segment : Nat × List Nat} (h : segment.2.Pairwise (· < ·)) :
    (matchesOf segment).Pairwise SortOrder.ascending.Before := by
  unfold matchesOf
  rw [List.pairwise_map]
  refine h.imp fun {a b} hab => ?_
  have hlt : (⟨segment.1, a⟩ : RecordId) < ⟨segment.1, b⟩ := .inr ⟨rfl, hab⟩
  exact decide_eq_true hlt

/-- No record is a match of two segments with different ordinals. -/
lemma nodup_matchesOf {segments : List (Nat × List Nat)} (hordinals : (segments.map Prod.fst).Nodup)
    (hdocs : ∀ segment ∈ segments, segment.2.Pairwise (· < ·)) :
    (segments.map matchesOf).flatten.Nodup := by
  rw [← List.flatMap_def, List.nodup_flatMap]
  constructor
  · intro segment hsegment
    exact SortOrder.nodup_of_pairwise (pairwise_matchesOf (hdocs segment hsegment))
  · refine (List.pairwise_map.mp hordinals).imp fun {a b} hne id hid hother => ?_
    obtain ⟨doc, -, rfl⟩ := List.mem_map.mp hid
    obtain ⟨doc', -, hid'⟩ := List.mem_map.mp hother
    exact hne (congrArg RecordId.segment hid').symm

/-- **A page holds the first matches past its cursor.**  The segments have different ordinals, the
matches of each are collected in ascending order, and their drafts are united in any order.  The records
of the page are then matches past the cursor, strictly in the direction of the page; there are as many
of them as the page may have and as there are at all; every other match past the cursor comes after
them; and the total counts the matches of all segments, whatever the cursor. -/
theorem merge_holds_first (collector : PageCollector) {segments arrived : List (Nat × List Nat)}
    (hordinals : (segments.map Prod.fst).Nodup)
    (hdocs : ∀ segment ∈ segments, segment.2.Pairwise (· < ·)) (harrived : arrived.Perm segments) :
    let found := segments.flatMap matchesOf
    let toCome := found.filter (collector.after.precedes · collector.order)
    let draft := collector.merge (arrived.map fun segment => collector.segment (matchesOf segment))
    draft.records.Pairwise collector.order.Before ∧ draft.records ⊆ toCome ∧
      draft.records.length = min collector.limit toCome.length ∧
      (∀ kept ∈ draft.records, ∀ other ∈ toCome, other ∉ draft.records →
        collector.order.Before kept other) ∧
      draft.total = found.length := by
  intro found toCome draft
  let all := collector.toCome (collector.order.sorted (arrived.map matchesOf).flatten)
  have hnodup : (arrived.map matchesOf).flatten.Nodup :=
    nodup_matchesOf ((harrived.map Prod.fst).nodup_iff.mpr hordinals)
      fun segment hsegment => hdocs segment (harrived.mem_iff.mp hsegment)
  have hascending : ∀ ids ∈ arrived.map matchesOf, ids.Pairwise SortOrder.ascending.Before := by
    intro ids hids
    obtain ⟨segment, hsegment, rfl⟩ := List.mem_map.mp hids
    exact pairwise_matchesOf (hdocs segment (harrived.mem_iff.mp hsegment))
  have hdraft : draft = ⟨all.take collector.limit, (arrived.map matchesOf).flatten.length⟩ := by
    rw [← collector.merge_segments hascending hnodup, List.map_map]
    rfl
  have hfound : (arrived.map matchesOf).flatten.Perm found := by
    rw [← List.flatMap_def]
    exact harrived.flatMap_right matchesOf
  have hall : all.Pairwise collector.order.Before :=
    (collector.order.pairwise_sorted hnodup).filter _
  have htoCome : all.Perm toCome := ((collector.order.sorted_perm _).trans hfound).filter _
  rw [hdraft]
  refine ⟨hall.sublist (List.take_sublist _ _), ?_, ?_, ?_, hfound.length_eq⟩
  · intro record hrecord
    exact htoCome.mem_iff.mp (List.mem_of_mem_take hrecord)
  · rw [List.length_take, htoCome.length_eq]
  · intro kept hkept other hother hnot
    exact SortOrder.before_of_notMem_take hall hkept (htoCome.mem_iff.mpr hother) hnot

/-- Three segments, united in another order than that of their ordinals.  Backwards from a record of
the last one, the page has that segment's first record and the only one of the segment before; all six
matches are counted. -/
theorem merge_holds_first_backwards :
    let collector : PageCollector := ⟨2, .after ⟨2, 4⟩, .descending⟩
    let draft := collector.merge ([(0, [1, 3, 5]), (2, [0, 4]), (1, [2])].map fun segment =>
      collector.segment (PageCollector.matchesOf segment))
    draft = ⟨[⟨2, 0⟩, ⟨1, 2⟩], 6⟩ ∧ draft.records.Pairwise SortOrder.descending.Before := by
  intro collector draft
  have harrived : [(0, [1, 3, 5]), (2, [0, 4]), (1, [2])].Perm [(0, [1, 3, 5]), (1, [2]), (2, [0, 4])] :=
    .cons _ (.swap _ _ _)
  have hfirst := collector.merge_holds_first (by decide) (by decide) harrived
  have hdraft : PageCollector.merge ⟨2, .after ⟨2, 4⟩, .descending⟩
      ([(0, [1, 3, 5]), (2, [0, 4]), (1, [2])].map fun segment =>
        PageCollector.segment ⟨2, .after ⟨2, 4⟩, .descending⟩ (PageCollector.matchesOf segment)) =
      ⟨[⟨2, 0⟩, ⟨1, 2⟩], 6⟩ := by
    cbv
  exact ⟨hdraft, hfirst.1⟩

end PageCollector

end QuadStore
