import Mathlib
import QuadStore.Proofs.CursorOrder
import QuadStore.Scan
import QuadStore.Source

/-!
# A scan delivers everything once

Over a source that answers exactly, a scan is determined by the number of records it has delivered.
`Scan.standing` writes that down: which page the scan is at, which records are left of it, and at
which cursor the page was asked for.  One step takes a scan that has delivered `n` records to one
that has delivered `n + 1` (`Scan.next_standing`), or to its end if there are no more
(`Scan.next_standing_end`), and the run follows by induction on the number of steps
(`Scan.take_standing`).

The step has two cases, whatever the direction.  Inside a page a record is delivered, or the page is
short and the scan ends without asking again.  At the end of a full page another one is asked for
behind it, and it may be empty: that is the last of `found.length / length + 1` requests when the
page length divides the number of records, and the only one when there are none.

Requests are counted by a source that notes them (`RecordSource.noting`).  It answers like the source it
wraps, and so the scan delivers the same (`Scan.next_answersLike`, `Scan.take_noting`).
-/

namespace QuadStore

variable {σ : Type}

namespace RecordSource

/-- Requests with these predicates are answered exactly, in whatever state the source is. -/
def Answers (source : RecordSource σ) (filters : List Predicate) (found : List RecordId) : Prop :=
  ∀ request state, request.filters = filters →
    (source.resolve request state).1 = .ok (Page.exact found request)

/-- The statements of these records can be read, in whatever state the source is. -/
def Reads (source : RecordSource σ) (records : List RecordId) (triple : RecordId → Triple) : Prop :=
  ∀ id ∈ records, ∀ state, (source.readTriple id state).1 = .ok (triple id)

lemma Reads.run {source : RecordSource σ} {records : List RecordId} {triple : RecordId → Triple}
    (h : source.Reads records triple) {id : RecordId} (hid : id ∈ records) (state : σ) :
    ∃ state', source.readTriple id state = (.ok (triple id), state') :=
  ⟨_, Prod.ext (h id hid state) rfl⟩

/-- A source that notes the requests it is sent. -/
def noting (source : RecordSource σ) : RecordSource (σ × List PageRequest) where
  resolve request state :=
    let (answer, inner) := source.resolve request state.1
    (answer, inner, state.2 ++ [request])
  read id state :=
    let (answer, inner) := source.read id state.1
    (answer, inner, state.2)

lemma readTriple_noting (source : RecordSource σ) (id : RecordId) (state : σ)
    (log : List PageRequest) : source.noting.readTriple id (state, log) =
      ((source.readTriple id state).1, (source.readTriple id state).2, log) := by
  rcases hread : source.read id state with ⟨fault | stored, state'⟩
  · simp [readTriple, noting, hread]
  · cases hdecode : stored.decode <;> simp [readTriple, noting, hread, hdecode]

/-- One source answers like another whose state is a part of its own. -/
structure AnswersLike {σ' : Type} (fuller : RecordSource σ') (source : RecordSource σ)
    (part : σ' → σ) : Prop where
  resolve : ∀ request state, source.resolve request (part state) =
    ((fuller.resolve request state).1, part (fuller.resolve request state).2)
  read : ∀ id state, source.read id (part state) =
    ((fuller.read id state).1, part (fuller.read id state).2)

lemma answersLike_noting (source : RecordSource σ) : source.noting.AnswersLike source Prod.fst :=
  ⟨fun _ _ => rfl, fun _ _ => rfl⟩

lemma AnswersLike.readTriple {σ' : Type} {fuller : RecordSource σ'} {source : RecordSource σ}
    {part : σ' → σ} (h : fuller.AnswersLike source part) (id : RecordId) (state : σ') :
    source.readTriple id (part state) =
      ((fuller.readTriple id state).1, part (fuller.readTriple id state).2) := by
  rw [RecordSource.readTriple, h.read]
  unfold RecordSource.readTriple
  rcases fuller.read id state with ⟨fault | stored, state'⟩
  · rfl
  · cases hdecode : stored.decode <;> simp only [hdecode]

end RecordSource

namespace Scan

/-! ## Noting changes nothing -/

lemma deliver_noting (source : RecordSource σ) (scan : Scan) (state : σ) (log : List PageRequest)
    (record : RecordId) (stage : Stage) :
    scan.deliver source.noting record stage (state, log) =
      ((scan.deliver source record stage state).1, (scan.deliver source record stage state).2.1,
        (scan.deliver source record stage state).2.2, log) := by
  unfold deliver
  split
  · rw [RecordSource.readTriple_noting]
    rcases source.readTriple record state with ⟨fault | triple, state'⟩ <;> rfl
  · rfl

section

variable {σ' : Type} {fuller : RecordSource σ'} {source : RecordSource σ} {part : σ' → σ}

lemma deliver_answersLike (h : fuller.AnswersLike source part) (scan : Scan) (record : RecordId)
    (stage : Stage) (state : σ') :
    scan.deliver source record stage (part state) =
      ((scan.deliver fuller record stage state).1, (scan.deliver fuller record stage state).2.1,
        part (scan.deliver fuller record stage state).2.2) := by
  unfold deliver
  split
  · rw [h.readTriple]
    rcases fuller.readTriple record state with ⟨fault | triple, state'⟩ <;> rfl
  · rfl

lemma request_answersLike (h : fuller.AnswersLike source part) (scan : Scan) (state : σ') :
    scan.request source (part state) =
      ((scan.request fuller state).1, (scan.request fuller state).2.1,
        part (scan.request fuller state).2.2) := by
  unfold request
  rw [h.resolve]
  rcases fuller.resolve scan.pageRequest state with ⟨fault | page, state'⟩
  · rfl
  · cases hpage : page.records with
    | nil => simp only [hpage]
    | cons record left =>
      simp only [hpage]
      exact deliver_answersLike h _ _ _ _

/-- **A scan sees of a source only its answers**, one step at a time. -/
lemma next_answersLike (h : fuller.AnswersLike source part) (scan : Scan) (state : σ') :
    scan.next source (part state) =
      ((scan.next fuller state).1, (scan.next fuller state).2.1, part (scan.next fuller state).2.2) := by
  unfold next
  split
  · rfl
  · exact request_answersLike h _ _
  · exact deliver_answersLike h _ _ _ _
  · split
    · exact request_answersLike h _ _
    · rfl

lemma take_answersLike (h : fuller.AnswersLike source part) (count : Nat) (scan : Scan) (state : σ') :
    take source count scan (part state) =
      ((take fuller count scan state).1, (take fuller count scan state).2.1,
        part (take fuller count scan state).2.2) := by
  induction count generalizing scan state with
  | zero => rfl
  | succ count ih =>
    unfold take
    rw [next_answersLike h]
    rcases scan.next fuller state with ⟨_ | item, scan', state'⟩
    · rfl
    · simp only [ih]

end

/-- **A source that notes its requests** is scanned with the same outcome as the source itself. -/
theorem take_noting (source : RecordSource σ) (scan : Scan) (state : σ) (log : List PageRequest)
    (count : Nat) : ∃ log', take source.noting count scan (state, log) =
      ((take source count scan state).1, (take source count scan state).2.1,
        (take source count scan state).2.2, log') := by
  have htake := take_answersLike source.answersLike_noting count scan (state, log)
  exact ⟨_, by rw [show state = Prod.fst (state, log) from rfl, htake]⟩

/-! ## Where a scan stands -/

section

variable (filters : List Predicate) (length : Nat) (order : SortOrder) (materialize : Bool)
  (found : List RecordId) (triple : RecordId → Triple)

/-- A record as the scan delivers it. -/
def delivered (id : RecordId) : ScannedRecord := ⟨id, if materialize then some (triple id) else none⟩

/-- The cursor behind the records of the first `page` pages. -/
def pageCursor (page : Nat) : Cursor := Cursor.past ((order.sorted found).take (page * length))

/-- The request for a page, counted from 0. -/
def pageRequestAt (page : Nat) : PageRequest :=
  ⟨filters, order, length, pageCursor length order found page⟩

/-- The number of requests sent when `count` records were delivered. -/
def sentFor : Nat → Nat
  | 0 => 0
  | count + 1 => count / length + 1

/-- The first requests of a scan. -/
def requests (sent : Nat) : List PageRequest :=
  (List.range sent).map (pageRequestAt filters length order found)

/-- A scan after at least one request: at a page, counted from 0, and at a stage of it. -/
def atPage (page : Nat) (stage : Stage) : Scan :=
  { filters, order, pageLength := length, materialize, cursor := pageCursor length order found page,
    total := some found.length, pages := page + 1, stage }

/-- A scan that is about to ask for a page, counted from 0. -/
def asking (page : Nat) (total : Option Nat) (stage : Stage) : Scan :=
  { filters, order, pageLength := length, materialize, cursor := pageCursor length order found page,
    total, pages := page, stage }

/-- The scan that has delivered so many records.  It is at the page of the last of them. -/
def standing : Nat → Scan
  | 0 => start filters length order materialize
  | count + 1 =>
    let page := count / length
    atPage filters length order materialize found page
      (.deliver (((order.sorted found).drop (count + 1)).take ((page + 1) * length - (count + 1)))
        (min length (found.length - page * length))
        (pageCursor length order found page) (pageCursor length order found (page + 1)))

/-- The scan that has delivered everything and has ended. -/
def ended : Scan :=
  atPage filters length order materialize found (found.length / length) .done

/-! ## One step -/

variable {filters length order materialize found triple}

lemma pageCursor_zero : pageCursor length order found 0 = .start := by
  rw [pageCursor, Nat.zero_mul, List.take_zero, Cursor.past_nil]

/-- The records behind the next page are those behind this one and on it. -/
lemma take_succ_mul (records : List RecordId) (page : Nat) :
    records.take ((page + 1) * length) =
      records.take (page * length) ++ (records.drop (page * length)).take length := by
  rw [Nat.succ_mul, List.take_add]

variable (order) in
lemma pageCursor_succ_ne (hfound : found.Nodup) (hlength : 0 < length) {page : Nat}
    (hpage : (page + 1) * length ≤ found.length) :
    pageCursor length order found (page + 1) ≠ pageCursor length order found page := by
  rw [Nat.succ_mul] at hpage
  have hnodup : ((order.sorted found).take ((page + 1) * length)).Nodup :=
    (order.nodup_sorted hfound).sublist (List.take_sublist _ _)
  rw [pageCursor, pageCursor, take_succ_mul] at *
  refine Cursor.past_append_ne hnodup fun hempty => ?_
  have hcount := congrArg List.length hempty
  simp only [List.length_take, List.length_drop, order.length_sorted, List.length_nil] at hcount
  omega

/-- The exact answer to the request for a page. -/
lemma exact_pageRequestAt (hfound : found.Nodup) (page : Nat) :
    Page.exact found (pageRequestAt filters length order found page) =
      ⟨((order.sorted found).drop (page * length)).take length,
        pageCursor length order found (page + 1), found.length⟩ := by
  have hsplit := (List.take_append_drop (page * length) (order.sorted found)).symm
  rw [pageRequestAt, pageCursor, Page.exact_past hfound hsplit, pageCursor, take_succ_mul]

lemma requests_succ (page : Nat) : requests filters length order found (page + 1) =
    requests filters length order found page ++
      [pageRequestAt filters length order found page] := by
  rw [requests, requests, List.range_succ, List.map_append]
  rfl

variable {source : RecordSource σ}

/-- A record that can be read is delivered. -/
lemma deliver_of_reads (hread : materialize = true → source.Reads found triple) (scan : Scan)
    (hscan : scan.materialize = materialize) {record : RecordId} (hrecord : record ∈ found)
    (stage : Stage) (state : σ) (log : List PageRequest) :
    ∃ state', scan.deliver source.noting record stage (state, log) =
      (some (.ok (delivered materialize triple record)), { scan with stage }, (state', log)) := by
  subst hscan
  rw [deliver_noting]
  unfold deliver delivered
  by_cases hmaterialize : scan.materialize = true
  · have htriple := hread hmaterialize record hrecord state
    rcases h : source.readTriple record state with ⟨answer, state'⟩
    rw [h] at htriple
    cases htriple
    exact ⟨state', by simp [hmaterialize]⟩
  · exact ⟨state, by simp [hmaterialize]⟩

/-- The source answers the request for a page, and notes it. -/
lemma resolve_pageRequestAt (hfound : found.Nodup) (hsource : source.Answers filters found)
    (page : Nat) (state : σ) :
    ∃ state', source.noting.resolve (pageRequestAt filters length order found page)
        (state, requests filters length order found page) =
      (.ok ⟨((order.sorted found).drop (page * length)).take length,
        pageCursor length order found (page + 1), found.length⟩,
        state', requests filters length order found (page + 1)) := by
  have hanswer := hsource (pageRequestAt filters length order found page) state rfl
  rw [exact_pageRequestAt hfound] at hanswer
  refine ⟨(source.resolve (pageRequestAt filters length order found page) state).2, ?_⟩
  rw [requests_succ, ← hanswer]
  rfl

variable (length order) in
/-- **Asking for a page** behind the records delivered so far brings the next of them, or the end of
the scan if there are none. -/
lemma request_asking (hfound : found.Nodup) (hsource : source.Answers filters found)
    (hread : materialize = true → source.Reads found triple) (page : Nat) (total : Option Nat)
    (htotal : total.getD found.length = found.length) (stage : Stage) (state : σ) :
    ∃ state', (asking filters length order materialize found page total stage).request source.noting
        (state, requests filters length order found page) =
      match ((order.sorted found).drop (page * length)).take length with
      | [] => (none, atPage filters length order materialize found page .done,
          (state', requests filters length order found (page + 1)))
      | record :: left => (some (.ok (delivered materialize triple record)),
          atPage filters length order materialize found page
            (.deliver left (left.length + 1) (pageCursor length order found page)
              (pageCursor length order found (page + 1))),
          (state', requests filters length order found (page + 1))) := by
  obtain ⟨state', hresolve⟩ := resolve_pageRequestAt hfound hsource page state
  have hrequest : (asking filters length order materialize found page total stage).pageRequest =
      pageRequestAt filters length order found page := rfl
  have hreceived : ∀ answer : Page, answer.total = found.length → ∀ stage',
      { (asking filters length order materialize found page total stage).received answer with
        stage := stage' } = atPage filters length order materialize found page stage' := by
    intro answer hanswer stage'
    simp only [received, asking, atPage, hanswer, htotal]
  rw [request, hrequest, hresolve]
  rcases hpage : ((order.sorted found).drop (page * length)).take length with _ | ⟨record, left⟩
  · exact ⟨state', by simp only [hreceived]⟩
  · have hrecord : record ∈ found := by
      have hmem : record ∈ ((order.sorted found).drop (page * length)).take length := by
        rw [hpage]
        exact List.mem_cons_self
      exact (order.sorted_perm found).mem_iff.mp (List.mem_of_mem_drop (List.mem_of_mem_take hmem))
    obtain ⟨state'', hdeliver⟩ := deliver_of_reads hread
      ((asking filters length order materialize found page total stage).received
        ⟨record :: left, pageCursor length order found (page + 1), found.length⟩)
      rfl hrecord (.deliver left (left.length + 1) (pageCursor length order found page)
        (pageCursor length order found (page + 1))) state'
      (requests filters length order found (page + 1))
    refine ⟨state'', ?_⟩
    rw [hreceived _ rfl] at hdeliver
    exact hdeliver

variable (filters order materialize) in
/-- A scan at the end of a full page, or at its start, asks for the next page. -/
lemma next_standing_of_full (hfound : found.Nodup) (hlength : 0 < length) (page : Nat)
    (hpage : page * length ≤ found.length) (source : RecordSource σ) (state : σ) :
    ∃ total stage, total.getD found.length = found.length ∧
      (standing filters length order materialize found (page * length)).next source state =
        (asking filters length order materialize found page total stage).request source state := by
  cases page with
  | zero =>
    refine ⟨none, .request, rfl, ?_⟩
    rw [Nat.zero_mul, asking, pageCursor_zero]
    rfl
  | succ page =>
    obtain ⟨last, hlast⟩ : ∃ last, (page + 1) * length = last + 1 :=
      Nat.exists_eq_add_one.mpr (Nat.mul_pos (Nat.succ_pos page) hlength)
    have hdiv : last / length = page := by
      rw [Nat.succ_mul] at hlast
      rw [Nat.div_eq_iff hlength]
      omega
    have hmoved := pageCursor_succ_ne order hfound hlength hpage
    have hfetched : min length (found.length - page * length) = length := by
      rw [Nat.succ_mul] at hpage
      omega
    refine ⟨some found.length, .deliver [] length (pageCursor length order found page)
      (pageCursor length order found (page + 1)), rfl, ?_⟩
    rw [hlast, standing, hdiv, hlast, Nat.sub_self, List.take_zero, hfetched]
    unfold next atPage
    simp only [ne_eq, hmoved, not_false_eq_true, and_self, if_true]
    rfl

lemma sentFor_mul (hlength : 0 < length) (page : Nat) : sentFor length (page * length) = page := by
  cases page with
  | zero => rw [Nat.zero_mul, sentFor]
  | succ page =>
    obtain ⟨last, hlast⟩ : ∃ last, (page + 1) * length = last + 1 :=
      Nat.exists_eq_add_one.mpr (Nat.mul_pos (Nat.succ_pos page) hlength)
    have hdiv : last / length = page := by
      rw [Nat.succ_mul] at hlast
      rw [Nat.div_eq_iff hlength]
      omega
    rw [hlast, sentFor, hdiv]

/-- Inside a page one more record does not change the page. -/
lemma succ_div_eq {count : Nat} (h : (count + 1) % length ≠ 0) :
    (count + 1) / length = count / length := by
  rw [Nat.succ_div, if_neg fun hdvd => h (Nat.mod_eq_zero_of_dvd hdvd), Nat.add_zero]

/-- **A step with a record to come** delivers it. -/
theorem next_standing (hfound : found.Nodup) (hsource : source.Answers filters found)
    (hread : materialize = true → source.Reads found triple) (hlength : 0 < length) {count : Nat}
    {record : RecordId} {rest : List RecordId}
    (hrest : (order.sorted found).drop count = record :: rest) (state : σ) :
    ∃ state', (standing filters length order materialize found count).next source.noting
        (state, requests filters length order found (sentFor length count)) =
      (some (.ok (delivered materialize triple record)),
        standing filters length order materialize found (count + 1),
        (state', requests filters length order found (sentFor length (count + 1)))) := by
  have hcount : count + rest.length + 1 = found.length := by
    have h := congrArg List.length hrest
    rw [List.length_drop, order.length_sorted, List.length_cons] at h
    omega
  have hdrop : (order.sorted found).drop (count + 1) = rest := by
    rw [← List.drop_drop, hrest, List.drop_one, List.tail_cons]
  by_cases hfull : count % length = 0
  · obtain ⟨page, rfl⟩ : ∃ page, count = page * length :=
      ⟨count / length, (Nat.div_mul_cancel (Nat.dvd_of_mod_eq_zero hfull)).symm⟩
    obtain ⟨total, stage, htotal, hnext⟩ := next_standing_of_full filters order materialize hfound
      hlength page (by omega) source.noting
      (state, requests filters length order found (sentFor length (page * length)))
    obtain ⟨state', hrequest⟩ := request_asking length order hfound hsource hread page total htotal
      stage state
    refine ⟨state', ?_⟩
    have hdiv : page * length / length = page := Nat.mul_div_cancel page hlength
    have hleft : (page + 1) * length - (page * length + 1) = length - 1 := by
      rw [Nat.succ_mul]
      omega
    have hfetched : min length (found.length - page * length) =
        (rest.take (length - 1)).length + 1 := by
      rw [List.length_take]
      omega
    rw [hnext, sentFor_mul hlength, hrequest, hrest, List.take_cons hlength, standing, hdrop,
      sentFor, hdiv, hleft, hfetched]
  · obtain ⟨last, rfl⟩ : ∃ last, count = last + 1 :=
      Nat.exists_eq_add_one.mpr (Nat.pos_of_ne_zero fun hzero => hfull (by rw [hzero, Nat.zero_mod]))
    have hdiv : (last + 1) / length = last / length := succ_div_eq hfull
    have hinside : last + 1 < (last / length + 1) * length := by
      rw [← hdiv, Nat.succ_mul]
      exact Nat.lt_div_mul_add hlength
    have hleft : (last / length + 1) * length - (last + 1) - 1 =
        (last / length + 1) * length - (last + 1 + 1) := by omega
    have hrecord : record ∈ found := by
      have hmem : record ∈ (order.sorted found).drop (last + 1) := hrest ▸ List.mem_cons_self
      exact (order.sorted_perm found).mem_iff.mp (List.mem_of_mem_drop hmem)
    rw [standing, hrest, List.take_cons (by omega), hleft, sentFor, standing, hdrop, sentFor, hdiv]
    exact deliver_of_reads hread _ rfl hrecord _ state _

variable (order) in
/-- **A step with no record to come** ends the scan, which asks for an empty page if the last one
was full. -/
theorem next_standing_end (hfound : found.Nodup) (hsource : source.Answers filters found)
    (hread : materialize = true → source.Reads found triple) (hlength : 0 < length) {count : Nat}
    (hcount : count = found.length) (state : σ) :
    ∃ state', (standing filters length order materialize found count).next source.noting
        (state, requests filters length order found (sentFor length count)) =
      (none, ended filters length order materialize found,
        (state', requests filters length order found (sentFor length (count + 1)))) := by
  have hdrop : (order.sorted found).drop count = [] :=
    List.drop_eq_nil_of_le (by rw [order.length_sorted, hcount])
  by_cases hfull : count % length = 0
  · obtain ⟨page, rfl⟩ : ∃ page, count = page * length :=
      ⟨count / length, (Nat.div_mul_cancel (Nat.dvd_of_mod_eq_zero hfull)).symm⟩
    obtain ⟨total, stage, htotal, hnext⟩ := next_standing_of_full filters order materialize hfound
      hlength page hcount.le source.noting
      (state, requests filters length order found (sentFor length (page * length)))
    obtain ⟨state', hrequest⟩ := request_asking length order hfound hsource hread page total htotal
      stage state
    have hdiv : page * length / length = page := Nat.mul_div_cancel page hlength
    exact ⟨state', by rw [hnext, sentFor_mul hlength, hrequest, hdrop, List.take_nil, ended,
      ← hcount, sentFor, hdiv]⟩
  · -- The last page is short, so no other one is asked for.
    obtain ⟨last, rfl⟩ : ∃ last, count = last + 1 :=
      Nat.exists_eq_add_one.mpr (Nat.pos_of_ne_zero fun hzero => hfull (by rw [hzero, Nat.zero_mod]))
    have hdiv : (last + 1) / length = last / length := succ_div_eq hfull
    have hshort : min length (found.length - last / length * length) ≠ length := by
      have hinside : last + 1 < (last + 1) / length * length + length := Nat.lt_div_mul_add hlength
      rw [hdiv] at hinside
      omega
    refine ⟨state, ?_⟩
    rw [standing, hdrop, List.take_nil, ended, ← hcount, sentFor, sentFor, hdiv]
    unfold next atPage
    simp only [hcount, hshort, false_and, if_false]

/-! ## The run -/

variable (order) in
/-- **The run from where a scan stands**: the records that are left, as far as the steps go, and
then the end. -/
theorem take_standing (hfound : found.Nodup) (hsource : source.Answers filters found)
    (hread : materialize = true → source.Reads found triple) (hlength : 0 < length) (steps : Nat)
    {count : Nat} (hcount : count ≤ found.length) (state : σ) :
    ∃ state', take source.noting steps (standing filters length order materialize found count)
        (state, requests filters length order found (sentFor length count)) =
      ((((order.sorted found).drop count).take steps).map fun id =>
          .ok (delivered materialize triple id),
        if count + steps ≤ found.length then
          standing filters length order materialize found (count + steps)
        else ended filters length order materialize found,
        (state', requests filters length order found
          (sentFor length (min (count + steps) (found.length + 1))))) := by
  induction steps generalizing count state with
  | zero =>
    refine ⟨state, ?_⟩
    rw [take, List.take_zero, List.map_nil, Nat.add_zero, if_pos hcount,
      Nat.min_eq_left (by omega)]
  | succ steps ih =>
    rcases hrest : (order.sorted found).drop count with _ | ⟨record, rest⟩
    · have hend : count = found.length := by
        have h := List.drop_eq_nil_iff.mp hrest
        rw [order.length_sorted] at h
        omega
      obtain ⟨state', hnext⟩ := next_standing_end order hfound hsource hread hlength hend state
      refine ⟨state', ?_⟩
      rw [take, hnext, List.take_nil, List.map_nil, if_neg (by omega),
        Nat.min_eq_right (by omega), hend]
    · have hlt : count < found.length := by
        have h := congrArg List.length hrest
        rw [List.length_drop, order.length_sorted, List.length_cons] at h
        omega
      obtain ⟨state₁, hnext⟩ := next_standing hfound hsource hread hlength hrest state
      obtain ⟨state', htake⟩ := ih (Nat.succ_le_of_lt hlt) state₁
      have hdrop : (order.sorted found).drop (count + 1) = rest := by
        rw [← List.drop_drop, hrest, List.drop_one, List.tail_cons]
      refine ⟨state', ?_⟩
      rw [take, hnext]
      simp only [htake, hdrop, List.take_succ_cons, List.map_cons, Nat.add_right_comm count 1,
        Nat.add_assoc]

lemma total_standing (count : Nat) :
    (standing filters length order materialize found count).total =
      if count = 0 then none else some found.length := by
  cases count <;> rfl

lemma pages_standing (count : Nat) :
    (standing filters length order materialize found count).pages = sentFor length count := by
  cases count <;> rfl

variable (order) in
/-- A whole run: how many requests were sent and whether the end was reached. -/
lemma take_start (hfound : found.Nodup) (hsource : source.Answers filters found)
    (hread : materialize = true → source.Reads found triple) (hlength : 0 < length) (steps : Nat)
    (state : σ) :
    ∃ last state', take source.noting steps (start filters length order materialize) (state, []) =
        (((order.sorted found).take steps).map fun id => .ok (delivered materialize triple id), last,
          (state', requests filters length order found last.pages)) ∧
      last.total = (if steps = 0 then none else some found.length) ∧
      (found.length < steps → last.stage = .done ∧ last.pages = found.length / length + 1) := by
  obtain ⟨state', htake⟩ := take_standing order hfound hsource hread hlength steps (Nat.zero_le _)
    state
  rw [List.drop_zero, Nat.zero_add] at htake
  by_cases hsteps : steps ≤ found.length
  · have hpages : (standing filters length order materialize found steps).pages =
        sentFor length steps := pages_standing steps
    rw [if_pos hsteps, Nat.min_eq_left (by omega), ← hpages] at htake
    exact ⟨_, state', htake, total_standing steps, fun h => absurd h (by omega)⟩
  · rw [if_neg hsteps, Nat.min_eq_right (by omega)] at htake
    exact ⟨_, state', htake, (if_neg (by omega)).symm, fun _ => ⟨rfl, rfl⟩⟩

variable (order) in
/-- With pages of no records a scan asks once and ends. -/
lemma take_start_zero (hfound : found.Nodup) (hsource : source.Answers filters found)
    (hread : materialize = true → source.Reads found triple) (steps : Nat) (state : σ) :
    ∃ state', take source.noting (steps + 1) (start filters 0 order materialize) (state, []) =
      ([], atPage filters 0 order materialize found 0 .done,
        (state', requests filters 0 order found 1)) := by
  obtain ⟨state', hrequest⟩ := request_asking 0 order hfound hsource hread 0 none rfl
    .request state
  rw [List.take_zero] at hrequest
  refine ⟨state', ?_⟩
  have hnext : (start filters 0 order materialize).next source.noting (state, []) =
      (none, atPage filters 0 order materialize found 0 .done,
        (state', requests filters 0 order found 1)) := hrequest
  rw [take, hnext]

end

/-! ## Statements of all records -/

/-- A scan that is not cut off gives every record with its statement, in the direction of the scan. -/
lemma take_of_answers {source : RecordSource σ} {filters : List Predicate} {found : List RecordId}
    {triple : RecordId → Triple} {length count : Nat} (order : SortOrder) (hfound : found.Nodup)
    (hsource : source.Answers filters found) (hread : source.Reads found triple)
    (hlength : 0 < length) (hcount : found.length < count) (state : σ) :
    (take source count (start filters length order true) state).1 =
      (order.sorted found).map fun id => .ok ⟨id, some (triple id)⟩ := by
  obtain ⟨last, state', hnoting, -, -⟩ :=
    take_start order hfound hsource (fun _ => hread) hlength count state
  obtain ⟨log, hplain⟩ := take_noting source (start filters length order true) state [] count
  have hitems := congrArg Prod.fst (hplain.symm.trans hnoting)
  rw [List.take_of_length_le (by rw [order.length_sorted]; omega)] at hitems
  exact hitems

/-- After its first step a scan knows how many records there are. -/
lemma total_next_of_answers {source : RecordSource σ} {filters : List Predicate}
    {found : List RecordId} {triple : RecordId → Triple} {length : Nat} (order : SortOrder)
    (hfound : found.Nodup) (hsource : source.Answers filters found)
    (hread : source.Reads found triple) (hlength : 0 < length) (state : σ) :
    ((start filters length order true).next source state).2.1.total = some found.length := by
  let scan := start filters length order true
  obtain ⟨last, state', hnoting, htotal, -⟩ :=
    take_start order hfound hsource (fun _ => hread) hlength 1 state
  obtain ⟨log, hplain⟩ := take_noting source scan state [] 1
  have hlast : (take source 1 scan state).2.1 = last :=
    congrArg (fun run => run.2.1) (hplain.symm.trans hnoting)
  have hstep : (take source 1 scan state).2.1 = (scan.next source state).2.1 := by
    unfold take
    rcases scan.next source state with ⟨_ | item, scan', state'⟩ <;> rfl
  rw [← hstep, hlast]
  exact htotal

/-! ## Record numbers only -/

/-- If the items of a run are the records of a list, and the run was not cut off, then the list is
what the scan collects. -/
lemma recordIds_of_take {source : RecordSource σ} {fuel : Nat} {ids : List RecordId}
    {scan last : Scan} {state state' : σ}
    (h : take source fuel scan state = (ids.map fun id => .ok ⟨id, none⟩, last, state'))
    (hfuel : ids.length < fuel) :
    recordIds source fuel scan state = (some (.ok ids), state') := by
  induction fuel generalizing ids scan state with
  | zero => omega
  | succ fuel ih =>
    rw [take] at h
    rw [recordIds]
    rcases hnext : scan.next source state with ⟨_ | item, scan', state₁⟩
    · rw [hnext] at h
      simp only [Prod.mk.injEq] at h
      obtain ⟨hitems, -, rfl⟩ := h
      rw [List.map_eq_nil_iff.mp hitems.symm]
    · rw [hnext] at h
      rcases hrest : take source fuel scan' state₁ with ⟨items, last', state₂⟩
      simp only [hrest, Prod.mk.injEq] at h
      obtain ⟨hitems, rfl, rfl⟩ := h
      cases ids with
      | nil => cases hitems
      | cons id ids =>
        obtain ⟨rfl, rfl⟩ := List.cons.inj hitems
        have hlength : ids.length < fuel := by
          rw [List.length_cons] at hfuel
          omega
        simp only [ih hrest hlength]
        rfl

/-- **The record numbers of a scan** of a source that answers exactly are those of the records, in
the direction of the scan. -/
theorem recordIds_of_answers {source : RecordSource σ} {filters : List Predicate}
    {found : List RecordId} {length fuel : Nat} (order : SortOrder) (hfound : found.Nodup)
    (hsource : source.Answers filters found) (hlength : 0 < length) (hfuel : found.length < fuel)
    (state : σ) :
    ∃ state', recordIds source fuel (start filters length order false) state =
      (some (.ok (order.sorted found)), state') := by
  have hread : false = true → source.Reads found fun _ => ⟨.iri default, default, .iri default⟩ := by
    intro h
    cases h
  obtain ⟨state', hnoting⟩ := take_standing order hfound hsource hread hlength fuel (Nat.zero_le _)
    state
  obtain ⟨log, hplain⟩ := take_noting source (start filters length order false) state [] fuel
  have htake : take source.noting fuel (start filters length order false) (state, []) = _ := hnoting
  rw [hplain, List.drop_zero, List.take_of_length_le (by rw [order.length_sorted]; omega)] at htake
  simp only [Prod.mk.injEq] at htake
  obtain ⟨hitems, hlast, hstate, -⟩ := htake
  refine ⟨state', recordIds_of_take (Prod.ext hitems (Prod.ext hlast hstate)) ?_⟩
  rw [order.length_sorted]
  exact hfuel

end Scan

/-- **A scan delivers everything once, page by page.**  Over a source that answers exactly, the
records come in the direction of the scan; each request is sent at the cursor behind the pages
before it; the number of matches is known from the first request on; and after the last record the
scan ends, having sent one request for each full page and one more.  With pages of no records it
sends one request and ends. -/
theorem scan_delivers_each_once (source : RecordSource σ) (filters : List Predicate)
    (found : List RecordId) (length : Nat) (order : SortOrder) (materialize : Bool)
    (triple : RecordId → Triple) (hfound : found.Nodup) (hsource : source.Answers filters found)
    (hread : materialize = true → source.Reads found triple) (steps : Nat) (state : σ) :
    let records := order.sorted found
    let scan := Scan.start filters length order materialize
    let items := if length = 0 then [] else (records.take steps).map fun id =>
      .ok ⟨id, if materialize then some (triple id) else none⟩
    records.Perm found ∧ records.Pairwise order.Before ∧
    ∃ last state',
      Scan.take source steps scan state = (items, last, state') ∧
      Scan.take source.noting steps scan (state, []) =
        (items, last, state', (List.range last.pages).map fun page =>
          ⟨filters, order, length, Cursor.past (records.take (page * length))⟩) ∧
      last.total = (if steps = 0 then none else some found.length) ∧
      (found.length < steps → last.stage = .done ∧ last.pages = found.length / length + 1) ∧
      (length = 0 → 0 < steps → last.stage = .done ∧ last.pages = 1) := by
  intro records scan items
  refine ⟨order.sorted_perm found, order.pairwise_sorted hfound, ?_⟩
  suffices hrun : ∃ last state',
      Scan.take source.noting steps scan (state, []) =
        (items, last, state', Scan.requests filters length order found last.pages) ∧
      last.total = (if steps = 0 then none else some found.length) ∧
      (found.length < steps → last.stage = .done ∧ last.pages = found.length / length + 1) ∧
      (length = 0 → 0 < steps → last.stage = .done ∧ last.pages = 1) by
    obtain ⟨last, state', htake, hlast⟩ := hrun
    obtain ⟨log, hplain⟩ := Scan.take_noting source scan state [] steps
    rw [htake] at hplain
    simp only [Prod.mk.injEq] at hplain
    obtain ⟨hitems, hscan, hstate, -⟩ := hplain
    exact ⟨last, state', by rw [hitems, hscan, hstate], htake, hlast⟩
  rcases Nat.eq_zero_or_pos length with rfl | hlength
  · cases steps with
    | zero => exact ⟨scan, state, by simp [Scan.take, items, Scan.requests, scan, Scan.start], rfl,
        fun h => absurd h (by omega), fun _ h => absurd h (by omega)⟩
    | succ steps =>
      obtain ⟨state', htake⟩ := Scan.take_start_zero order hfound hsource hread steps state
      exact ⟨_, state', htake, rfl, fun _ => ⟨rfl, by rw [Nat.div_zero]; rfl⟩, fun _ _ => ⟨rfl, rfl⟩⟩
  · obtain ⟨last, state', htake, htotal, hend⟩ :=
      Scan.take_start order hfound hsource hread hlength steps state
    have hitems : items = (records.take steps).map fun id =>
        .ok (Scan.delivered materialize triple id) := if_neg hlength.ne'
    rw [hitems]
    exact ⟨last, state', htake, htotal, hend, fun h => absurd h hlength.ne'⟩

/-- Two statements backwards, one to a page: the third request, behind the last record, is answered
with an empty page. -/
theorem scan_delivers_each_once_backwards :
    let source := (Table.generate 2).source
    let triple : RecordId → Triple := fun id =>
      ⟨.iri ⟨"http://x/s" ++ toString id.doc⟩, ⟨"http://x/p"⟩, .literal (.simple (toString id.doc))⟩
    ∃ last state',
      Scan.take source.noting 3 (Scan.start [] 1 .descending true) (.empty, []) =
        ([.ok ⟨⟨0, 1⟩, some (triple ⟨0, 1⟩)⟩, .ok ⟨⟨0, 0⟩, some (triple ⟨0, 0⟩)⟩], last, state',
          [⟨[], .descending, 1, .start⟩, ⟨[], .descending, 1, .after ⟨0, 1⟩⟩,
            ⟨[], .descending, 1, .after ⟨0, 0⟩⟩]) ∧
      last.stage = .done := by
  intro source triple
  let found : List RecordId := [⟨0, 0⟩, ⟨0, 1⟩]
  have hsource : source.Answers [] found := fun request state _ => rfl
  have hread : true = true → source.Reads found triple := by
    intro _ id hid state
    rcases List.mem_pair.mp hid with rfl | rfl <;> cbv
  obtain ⟨-, -, last, state', -, htake, -, hend, -⟩ := scan_delivers_each_once source [] found 1
    .descending true triple (by decide) hsource hread 3 .empty
  obtain ⟨hdone, hend⟩ := hend (by decide)
  have hpages : last.pages = 3 := by rw [hend]; decide
  refine ⟨last, state', ?_, hdone⟩
  have hsorted : SortOrder.sorted .descending found = [⟨0, 1⟩, ⟨0, 0⟩] := by cbv
  rw [htake, hpages, hsorted]
  rfl

end QuadStore
