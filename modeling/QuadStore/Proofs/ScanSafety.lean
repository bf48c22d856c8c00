import Mathlib
import QuadStore.Proofs.RepeatedCalls
import QuadStore.Proofs.ScanCoverage

/-!
# A scan of any source is safe

Nothing is assumed of the source here.  Its pages may be too short or too long, repeat themselves or point
anywhere, their totals may differ, and every question and every read may fail.

What is seen of a scan is written down in order: each question to the source with its answer, each read
with its answer, and what each call gave (`ScanEvent`, `Scan.watch`).  `Scan.Permitted` says which events may
come behind which others.  It is the whole protocol: a question is put only at the start or behind a page
that was full and is used up, a record is given only if it is the next of its page, it is read directly
before if it is read at all, and after a failure or the end calls give nothing.

A history is permitted if each of its events is, by those before it (`Scan.Always`).  This is what a call
preserves, together with where the scan stands in its history (`Scan.Sound`), and so the histories of all
runs are permitted (`Scan.sound_calls`).  What is seen of a run as a whole is read off from there
(`Scan.paging_is_safe`).
-/

namespace QuadStore

variable {σ : Type}

/-! ## What is seen of a scan -/

/-- A question to the source of a scan, a read from it, or what a call of the scan gave. -/
inductive ScanEvent where
  | asked (request : PageRequest) (answer : Except QueryError Page)
  | read (id : RecordId) (answer : Except QueryError StoredTriple)
  | gave (item : Option (Except QueryError ScannedRecord))

namespace ScanEvent

/-- The request that was sent. -/
def request? : ScanEvent → Option PageRequest
  | asked request _ => some request
  | _ => none

/-- The page that was answered. -/
def page? : ScanEvent → Option Page
  | asked _ (.ok page) => some page
  | _ => none

/-- The record that was read, or was to be. -/
def readId? : ScanEvent → Option RecordId
  | read id _ => some id
  | _ => none

/-- The record that was given. -/
def givenId? : ScanEvent → Option RecordId
  | gave (some (.ok record)) => some record.id
  | _ => none

/-- What a call gave. -/
def item? : ScanEvent → Option (Option (Except QueryError ScannedRecord))
  | gave item => some item
  | _ => none

/-- A call gave a failure, or nothing. -/
def Ends : ScanEvent → Prop
  | gave (some (.ok _)) => False
  | gave _ => True
  | _ => False

/-- A call has still to give what was read, or the failure of a question. -/
def Owes : ScanEvent → Prop
  | read _ _ => True
  | asked _ (.error _) => True
  | _ => False

end ScanEvent

/-- All pages that were answered. -/
def pagesIn (events : List ScanEvent) : List Page := events.filterMap ScanEvent.page?

/-- The records of all these pages. -/
def fetchedIn (events : List ScanEvent) : List RecordId := (pagesIn events).flatMap Page.records

/-- All records that were given. -/
def givenIn (events : List ScanEvent) : List RecordId := events.filterMap ScanEvent.givenId?

/-- All records that were read, or were to be. -/
def readIn (events : List ScanEvent) : List RecordId := events.filterMap ScanEvent.readId?

/-- All that calls gave. -/
def itemsIn (events : List ScanEvent) : List (Option (Except QueryError ScannedRecord)) :=
  events.filterMap ScanEvent.item?

section

variable (event : ScanEvent) (events more : List ScanEvent)

@[simp] lemma pagesIn_nil : pagesIn [] = [] := rfl

@[simp] lemma pagesIn_cons : pagesIn (event :: events) = event.page?.toList ++ pagesIn events := by
  cases h : event.page? <;> simp [pagesIn, h]

@[simp] lemma pagesIn_append : pagesIn (events ++ more) = pagesIn events ++ pagesIn more :=
  List.filterMap_append

@[simp] lemma fetchedIn_nil : fetchedIn [] = [] := rfl

@[simp] lemma fetchedIn_cons :
    fetchedIn (event :: events) = event.page?.toList.flatMap Page.records ++ fetchedIn events := by
  simp [fetchedIn]

@[simp] lemma fetchedIn_append : fetchedIn (events ++ more) = fetchedIn events ++ fetchedIn more := by
  simp [fetchedIn]

@[simp] lemma givenIn_nil : givenIn [] = [] := rfl

@[simp] lemma givenIn_cons : givenIn (event :: events) = event.givenId?.toList ++ givenIn events := by
  cases h : event.givenId? <;> simp [givenIn, h]

@[simp] lemma givenIn_append : givenIn (events ++ more) = givenIn events ++ givenIn more :=
  List.filterMap_append

@[simp] lemma readIn_nil : readIn [] = [] := rfl

@[simp] lemma readIn_cons : readIn (event :: events) = event.readId?.toList ++ readIn events := by
  cases h : event.readId? <;> simp [readIn, h]

@[simp] lemma readIn_append : readIn (events ++ more) = readIn events ++ readIn more :=
  List.filterMap_append

variable {event} in
lemma itemsIn_concat_of_none (h : event.item? = none) : itemsIn (events ++ [event]) = itemsIn events := by
  simp [itemsIn, h]

lemma itemsIn_concat_gave (item : Option (Except QueryError ScannedRecord)) :
    itemsIn (events ++ [.gave item]) = itemsIn events ++ [item] :=
  List.filterMap_append

end

/-- A source that writes down what it is asked and what it answers. -/
def RecordSource.tracing (source : RecordSource σ) : RecordSource (σ × List ScanEvent) where
  resolve request state :=
    let (answer, inner) := source.resolve request state.1
    (answer, inner, state.2 ++ [.asked request answer])
  read id state :=
    let (answer, inner) := source.read id state.1
    (answer, inner, state.2 ++ [.read id answer])

/-- One step of a scan, and what is seen of it. -/
def Scan.watch (source : RecordSource σ) (scan : Scan) (state : σ × List ScanEvent) :
    Option (Except QueryError ScannedRecord) × Scan × σ × List ScanEvent :=
  let (item, scan, state) := scan.next source.tracing state
  (item, scan, state.1, state.2 ++ [.gave item])

namespace Scan

/-! ## What may be seen -/

/-- A failure was given, or the end. -/
def Ended (events : List ScanEvent) : Prop := ∃ event ∈ events, event.Ends

/-- There was no failure and no end, and no call has to give what it was answered. -/
structure Ready (events : List ScanEvent) : Prop where
  live : ¬ Ended events
  settled : ∀ event, events.getLast? = some event → ¬ event.Owes

/-- The last request was answered with a page, of which these records were not given yet. -/
def AtPage (events : List ScanEvent) (sent : PageRequest) (page : Page) (left : List RecordId) : Prop :=
  ∃ earlier between, events = earlier ++ .asked sent (.ok page) :: between ∧
    between.filterMap ScanEvent.request? = [] ∧ page.records = givenIn between ++ left

/-- What a read comes to: a stored statement may be one that cannot be decoded. -/
def outcomeOf : Except QueryError StoredTriple → Except QueryError Triple
  | .ok stored => stored.decode.mapError .malformedTerm
  | .error fault => .error fault

section

variable (filters : List Predicate) (length : Nat) (order : SortOrder) (materialize : Bool)

/-- **What may be seen of a scan**, after what was seen before. -/
inductive Permitted (before : List ScanEvent) : ScanEvent → Prop
  /-- The first request asks for the first page. -/
  | first (answer : Except QueryError Page) (hbefore : before = []) :
    Permitted before (.asked ⟨filters, order, length, .start⟩ answer)
  /-- Another request asks for what is behind a page, if the page is used up and was full, and if this
  is not where it was asked for itself. -/
  | further {sent : PageRequest} {page : Page} (answer : Except QueryError Page)
    (hready : Ready before) (hpage : AtPage before sent page []) (hlength : 0 < length)
    (hfull : page.records.length = length) (hmoved : page.next ≠ sent.cursor) :
    Permitted before (.asked ⟨filters, order, length, page.next⟩ answer)
  /-- The next record of a page is read if the scan reads statements. -/
  | read {sent : PageRequest} {page : Page} {id : RecordId} {left : List RecordId}
    (answer : Except QueryError StoredTriple) (hready : Ready before)
    (hpage : AtPage before sent page (id :: left)) (hmaterialize : materialize = true) :
    Permitted before (.read id answer)
  /-- The next record of a page is given without being read if the scan does not read statements. -/
  | record {sent : PageRequest} {page : Page} {id : RecordId} {left : List RecordId}
    (hready : Ready before) (hpage : AtPage before sent page (id :: left))
    (hmaterialize : materialize = false) : Permitted before (.gave (some (.ok ⟨id, none⟩)))
  /-- What was read is given. -/
  | readout {earlier : List ScanEvent} {id : RecordId} {answer : Except QueryError StoredTriple}
    (hready : Ready earlier) (hmaterialize : materialize = true)
    (hbefore : before = earlier ++ [.read id answer]) :
    Permitted before (.gave (some ((outcomeOf answer).map fun triple => ⟨id, some triple⟩)))
  /-- A question that has failed is given as a failure. -/
  | unanswered {earlier : List ScanEvent} {request : PageRequest} {fault : QueryError}
    (hready : Ready earlier) (hbefore : before = earlier ++ [.asked request (.error fault)]) :
    Permitted before (.gave (some (.error fault)))
  /-- The end comes when a page is used up and no other is to be asked for. -/
  | finished {sent : PageRequest} {page : Page} (hready : Ready before)
    (hpage : AtPage before sent page [])
    (hlast : page.records = [] ∨ page.records.length ≠ length ∨ page.next = sent.cursor) :
    Permitted before (.gave none)
  /-- And then there is nothing. -/
  | ended (hended : Ended before) : Permitted before (.gave none)

end

/-- Each of these events holds to a law, given those before it. -/
def Always (law : List ScanEvent → ScanEvent → Prop) (events : List ScanEvent) : Prop :=
  ∀ before event after, events = before ++ event :: after → law before event

lemma always_nil (law : List ScanEvent → ScanEvent → Prop) : Always law [] := by
  intro before event after h
  simp at h

lemma Always.concat {law : List ScanEvent → ScanEvent → Prop} {events : List ScanEvent}
    {event : ScanEvent} (h : Always law events) (hevent : law events event) :
    Always law (events ++ [event]) := by
  intro before event' after hsplit
  rcases List.eq_nil_or_concat after with rfl | ⟨earlier, last, rfl⟩
  · obtain ⟨rfl, hlast⟩ := List.append_inj' hsplit rfl
    cases hlast
    exact hevent
  · rw [List.concat_eq_append, ← List.cons_append, ← List.append_assoc] at hsplit
    exact h before event' earlier (List.append_inj' hsplit rfl).1

/-! ### Histories that grow -/

section

variable {events : List ScanEvent}

lemma ended_concat (event : ScanEvent) : Ended (events ++ [event]) ↔ Ended events ∨ event.Ends := by
  simp [Ended, or_and_right, exists_or]

lemma ready_nil : Ready [] := ⟨by simp [Ended], by simp⟩

lemma Ready.concat (h : Ready events) {event : ScanEvent} (hends : ¬ event.Ends)
    (howes : ¬ event.Owes) : Ready (events ++ [event]) where
  live hended := ((ended_concat event).mp hended).elim h.live hends
  settled event' hlast := by
    rw [List.getLast?_concat] at hlast
    rw [← Option.some.inj hlast]
    exact howes

/-- A question that is answered, or a read, is followed by what a call gives. -/
lemma Ready.concat_concat (h : Ready events) {event event' : ScanEvent} (hends : ¬ event.Ends)
    (hends' : ¬ event'.Ends) (howes' : ¬ event'.Owes) : Ready (events ++ [event] ++ [event']) where
  live hended := by
    rcases (ended_concat event').mp hended with hended | hended
    · exact ((ended_concat event).mp hended).elim h.live hends
    · exact hends' hended
  settled event'' hlast := by
    rw [List.getLast?_concat] at hlast
    rw [← Option.some.inj hlast]
    exact howes'

lemma atPage_concat (events : List ScanEvent) (request : PageRequest) (page : Page) :
    AtPage (events ++ [.asked request (.ok page)]) request page page.records :=
  ⟨events, [], rfl, rfl, rfl⟩

lemma AtPage.concat {sent : PageRequest} {page : Page} {left left' : List RecordId}
    (h : AtPage events sent page left) {event : ScanEvent} (hrequest : event.request? = none)
    (hleft : left = event.givenId?.toList ++ left') : AtPage (events ++ [event]) sent page left' := by
  obtain ⟨earlier, between, rfl, hbetween, hrecords⟩ := h
  refine ⟨earlier, between ++ [event], by simp, ?_, ?_⟩
  · rw [List.filterMap_append, hbetween, List.nil_append, List.filterMap_cons_none hrequest]
    rfl
  · rw [hrecords, hleft, givenIn_append, givenIn_cons, givenIn_nil, List.append_nil, List.append_assoc]

end

/-! ## Writing down changes nothing -/

open ScanEvent (page? givenId? readId?)

variable (source : RecordSource σ)

lemma answersLike_tracing : source.tracing.AnswersLike source Prod.fst :=
  ⟨fun _ _ => rfl, fun _ _ => rfl⟩

/-- A scan that is watched does what it does. -/
lemma watch_project (scan : Scan) (state : σ × List ScanEvent) :
    scan.next source state.1 =
      ((scan.watch source state).1, (scan.watch source state).2.1, (scan.watch source state).2.2.1) :=
  next_answersLike (answersLike_tracing source) scan state

lemma resolve_tracing (request : PageRequest) (state : σ) (events : List ScanEvent) :
    source.tracing.resolve request (state, events) =
      ((source.resolve request state).1, (source.resolve request state).2,
        events ++ [.asked request (source.resolve request state).1]) := rfl

lemma readTriple_tracing (id : RecordId) (state : σ) (events : List ScanEvent) :
    source.tracing.readTriple id (state, events) =
      (outcomeOf (source.read id state).1, (source.read id state).2,
        events ++ [.read id (source.read id state).1]) := by
  rcases hread : source.read id state with ⟨fault | stored, state'⟩
  · simp [RecordSource.readTriple, RecordSource.tracing, hread, outcomeOf]
  · cases hdecode : stored.decode <;>
      simp [RecordSource.readTriple, RecordSource.tracing, hread, outcomeOf, hdecode, Except.mapError]

/-! ## Where a scan stands in its history -/

section

variable (filters : List Predicate) (length : Nat) (order : SortOrder) (materialize : Bool)

/-- Where a scan stands after what was seen of it, if its next request is for this cursor. -/
inductive Stands (events : List ScanEvent) (cursor : Cursor) : Stage → Prop
  /-- The records of all pages were given, and a request is due. -/
  | request (hready : Ready events)
    (hpermitted : ∀ answer, Permitted filters length order materialize events
      (.asked ⟨filters, order, length, cursor⟩ answer))
    (hgiven : fetchedIn events = givenIn events)
    (hread : readIn events = if materialize then givenIn events else []) :
    Stands events cursor .request
  /-- The records of the last page are given, up to these. -/
  | deliver {sent : Cursor} {left : List RecordId} (page : Page) (hready : Ready events)
    (hpage : AtPage events ⟨filters, order, length, sent⟩ page left) (hrecords : page.records ≠ [])
    (hgiven : fetchedIn events = givenIn events ++ left)
    (hread : readIn events = if materialize then givenIn events else []) :
    Stands events cursor (.deliver left page.records.length sent page.next)
  /-- There was a failure or the end. -/
  | done (hended : Ended events) (hgiven : givenIn events <+: fetchedIn events)
    (hread : readIn events <+: fetchedIn events) : Stands events cursor .done

/-- What a scan keeps of its history: it is permitted, and the scan knows how many pages there were and
the total of the first. -/
structure Kept (scan : Scan) (events : List ScanEvent) : Prop where
  filters_eq : scan.filters = filters
  length_eq : scan.pageLength = length
  order_eq : scan.order = order
  materialize_eq : scan.materialize = materialize
  permitted : Always (Permitted filters length order materialize) events
  total_eq : scan.total = (pagesIn events).head?.map Page.total
  pages_eq : scan.pages = (pagesIn events).length

/-- **What a scan keeps** from call to call: its history, and its place in it. -/
structure Sound (scan : Scan) (events : List ScanEvent) : Prop extends
    Kept filters length order materialize scan events where
  stands : Stands filters length order materialize events scan.cursor scan.stage

lemma sound_start :
    Sound filters length order materialize (start filters length order materialize) [] where
  filters_eq := rfl
  length_eq := rfl
  order_eq := rfl
  materialize_eq := rfl
  permitted := always_nil _
  total_eq := rfl
  pages_eq := rfl
  stands := .request ready_nil (fun answer => .first answer rfl) rfl (by simp [readIn, givenIn])

/-- A scan is sound after a call, what the call gave being written down. -/
def SoundAfter
    (outcome : Option (Except QueryError ScannedRecord) × Scan × σ × List ScanEvent) : Prop :=
  Sound filters length order materialize outcome.2.1 (outcome.2.2.2 ++ [.gave outcome.1])

end

/-! ## One call -/

section

variable {filters : List Predicate} {length : Nat} {order : SortOrder} {materialize : Bool}
  {scan : Scan} {events : List ScanEvent}

lemma Kept.pageRequest_eq (h : Kept filters length order materialize scan events) :
    scan.pageRequest = ⟨filters, order, length, scan.cursor⟩ := by
  rw [pageRequest, h.filters_eq, h.order_eq, h.length_eq]

lemma Kept.withStage (h : Kept filters length order materialize scan events) (stage : Stage) :
    Kept filters length order materialize { scan with stage } events := { h with }

lemma Kept.withCursor (h : Kept filters length order materialize scan events) (cursor : Cursor) :
    Kept filters length order materialize { scan with cursor } events := { h with }

lemma Kept.concat (h : Kept filters length order materialize scan events) {event : ScanEvent}
    (hpermitted : Permitted filters length order materialize events event)
    (hpage : event.page? = none) :
    Kept filters length order materialize scan (events ++ [event]) := by
  have hpages : pagesIn (events ++ [event]) = pagesIn events := by simp [hpage]
  exact
    { h with
      permitted := h.permitted.concat hpermitted
      total_eq := by rw [hpages]; exact h.total_eq
      pages_eq := by rw [hpages]; exact h.pages_eq }

lemma Kept.received (h : Kept filters length order materialize scan events) {request : PageRequest}
    {page : Page} (hpermitted : Permitted filters length order materialize events
      (.asked request (.ok page))) :
    Kept filters length order materialize (scan.received page)
      (events ++ [.asked request (.ok page)]) := by
  have hpages : pagesIn (events ++ [.asked request (.ok page)]) = pagesIn events ++ [page] :=
    pagesIn_append _ _
  refine
    { h with
      permitted := h.permitted.concat hpermitted
      total_eq := ?_
      pages_eq := ?_ }
  · rw [hpages, Scan.received, h.total_eq]
    cases pagesIn events <;> rfl
  · rw [hpages, List.length_append, Scan.received, h.pages_eq]
    rfl

/-- A call that ends a scan keeps it sound if it keeps the records given and read those fetched first. -/
lemma Kept.sound_done {event : ScanEvent}
    (h : Kept filters length order materialize scan (events ++ [event])) (hends : event.Ends)
    (hgiven : givenIn (events ++ [event]) <+: fetchedIn (events ++ [event]))
    (hread : readIn (events ++ [event]) <+: fetchedIn (events ++ [event])) :
    Sound filters length order materialize { scan with stage := .done } (events ++ [event]) :=
  ⟨h.withStage .done, .done ((ended_concat event).mpr (.inr hends)) hgiven hread⟩

variable (source : RecordSource σ)

lemma Sound.deliver {record : RecordId} {left : List RecordId} {fetched : Nat} {sent next : Cursor}
    (h : Sound filters length order materialize
      { scan with stage := .deliver (record :: left) fetched sent next } events) (state : σ) :
    SoundAfter filters length order materialize
      (scan.deliver source.tracing record (.deliver left fetched sent next) (state, events)) := by
  obtain ⟨hkept, hstands⟩ := h
  replace hkept : Kept filters length order materialize scan events := hkept.withStage scan.stage
  cases hstands with
  | deliver page hready hpage hrecords hgiven hread =>
  obtain rfl := hkept.materialize_eq
  unfold Scan.deliver SoundAfter
  split
  case isTrue hmaterialize =>
    rw [if_pos hmaterialize] at hread
    have hasked := hkept.concat (.read (source.read record state).1 hready hpage hmaterialize) rfl
    have hgave := hasked.concat (.readout hready hmaterialize rfl) rfl
    have hpage' : AtPage (events ++ [.read record (source.read record state).1])
        ⟨filters, order, length, sent⟩ _ (record :: left) := hpage.concat rfl rfl
    rw [readTriple_tracing]
    rcases houtcome : outcomeOf (source.read record state).1 with fault | triple <;> rw [houtcome] at hgave
    · refine hgave.sound_done trivial ?_ ?_
      · simp [hgiven, page?, givenId?, Except.map]
      · simp [hgiven, hread, page?, readId?]
    · refine ⟨hgave.withStage _, .deliver page (hready.concat_concat id id id) (hpage'.concat rfl rfl)
        hrecords ?_ ?_⟩
      · simp [hgiven, page?, givenId?]
      · simp [hread, hmaterialize, readId?, givenId?]
  case isFalse hmaterialize =>
    rw [if_neg hmaterialize] at hread
    have hgave := hkept.concat (.record hready hpage (Bool.eq_false_of_not_eq_true hmaterialize)) rfl
    refine ⟨hgave.withStage _, .deliver page (hready.concat id id) (hpage.concat rfl rfl) hrecords ?_ ?_⟩
    · simp [hgiven, page?, givenId?]
    · simp [hread, hmaterialize, readId?]

lemma Sound.request (h : Sound filters length order materialize { scan with stage := .request } events)
    (state : σ) :
    SoundAfter filters length order materialize (scan.request source.tracing (state, events)) := by
  obtain ⟨hkept, hstands⟩ := h
  replace hkept : Kept filters length order materialize scan events := hkept.withStage scan.stage
  cases hstands with
  | request hready hpermitted hgiven hread =>
  have hrequest := hkept.pageRequest_eq
  unfold Scan.request
  rw [resolve_tracing]
  rcases source.resolve scan.pageRequest state with ⟨fault | page, state'⟩
  · rw [hrequest]
    have hgave := (hkept.concat (hpermitted (.error fault)) rfl).concat (.unanswered hready rfl) rfl
    refine hgave.sound_done trivial ?_ ?_
    · simp [hgiven, page?, givenId?]
    · cases materialize <;> simp [hgiven, hread, page?, readId?]
  · rw [hrequest]
    have hasked := hkept.received (hpermitted (.ok page))
    have hready' : Ready (events ++ [.asked ⟨filters, order, length, scan.cursor⟩ (.ok page)]) :=
      hready.concat id id
    have hpage := atPage_concat events ⟨filters, order, length, scan.cursor⟩ page
    cases hrecords : page.records with
    | nil =>
      -- A page without records is used up as soon as it is answered.
      rw [hrecords] at hpage
      have hgave := hasked.concat (.finished hready' hpage (.inl hrecords)) rfl
      simp only [hrecords]
      refine hgave.sound_done trivial ?_ ?_
      · simp [hgiven, page?, givenId?]
      · cases materialize <;> simp [hgiven, hread, page?, readId?]
    | cons record left =>
      have hstands : Stands filters length order materialize
          (events ++ [.asked ⟨filters, order, length, scan.cursor⟩ (.ok page)]) scan.cursor
          (.deliver page.records page.records.length scan.cursor page.next) := by
        refine .deliver page hready' hpage (by simp [hrecords]) ?_ ?_
        · simp [hgiven, page?, givenId?]
        · simp [hread, readId?, givenId?]
      simp only [hrecords] at hstands ⊢
      exact Sound.deliver source ⟨hasked.withStage _, hstands⟩ state'

/-- **One call** keeps a scan sound, in each of its stages. -/
theorem Sound.next (h : Sound filters length order materialize scan events) (state : σ) :
    SoundAfter filters length order materialize (scan.next source.tracing (state, events)) := by
  obtain ⟨hkept, hstands⟩ := h
  unfold Scan.next
  cases hstage : scan.stage with
  | done =>
    rw [hstage] at hstands
    cases hstands with
    | done hended hgiven hread =>
    refine ⟨hkept.concat (.ended hended) rfl, ?_⟩
    rw [hstage]
    refine .done ((ended_concat _).mpr (.inl hended)) ?_ ?_
    · simpa [page?, givenId?] using hgiven
    · simpa [page?, readId?] using hread
  | request =>
    rw [hstage] at hstands
    exact Sound.request source ⟨hkept.withStage _, hstands⟩ state
  | deliver left fetched sent next =>
    rw [hstage] at hstands
    cases left with
    | cons record left => exact Sound.deliver source ⟨hkept.withStage _, hstands⟩ state
    | nil =>
    -- The page is used up: either another is asked for, as is then permitted, or this is the end.
    cases hstands with
    | deliver page hready hpage hrecords hgiven hread =>
    obtain rfl := hkept.length_eq
    dsimp only
    split
    case isTrue hfurther =>
      obtain ⟨hfull, hmoved⟩ := hfurther
      have hlength : 0 < scan.pageLength := hfull ▸ List.length_pos_iff.mpr hrecords
      refine Sound.request source ⟨(hkept.withCursor _).withStage _, .request hready ?_ ?_ hread⟩ state
      · exact fun answer => .further answer hready hpage hlength hfull hmoved
      · rw [hgiven, List.append_nil]
    case isFalse hlast =>
      have hfinished : page.records.length ≠ scan.pageLength ∨ page.next = sent := by
        by_cases hfull : page.records.length = scan.pageLength
        · exact .inr (not_not.mp fun hmoved => hlast ⟨hfull, hmoved⟩)
        · exact .inl hfull
      refine (hkept.concat (.finished hready hpage (.inr hfinished)) rfl).sound_done trivial ?_ ?_
      · simp [hgiven, page?, givenId?]
      · cases materialize <;> simp [hgiven, hread, page?, readId?]

/-- **All calls** keep a scan sound. -/
theorem sound_calls (filters : List Predicate) (length : Nat) (order : SortOrder) (materialize : Bool)
    (count : Nat) (state : σ) :
    Sound filters length order materialize
      (calls (watch source) count (start filters length order materialize) (state, [])).2.1
      (calls (watch source) count (start filters length order materialize) (state, [])).2.2.2 := by
  have hstep (scan : Scan) (state : σ × List ScanEvent)
      (h : Sound filters length order materialize scan state.2) :
      Sound filters length order materialize (scan.watch source state).2.1
        (scan.watch source state).2.2.2 := Sound.next source h state.1
  exact calls_invariant
    (I := fun scan (state : σ × List ScanEvent) =>
      Sound filters length order materialize scan state.2)
    hstep count (sound_start filters length order materialize)

end

/-! ## What a permitted history is like -/

section

variable {filters : List Predicate} {length : Nat} {order : SortOrder} {materialize : Bool}
  {before events : List ScanEvent} {event : ScanEvent}

lemma Ready.not_concat (howes : event.Owes) : ¬ Ready (before ++ [event]) := fun h =>
  h.settled event List.getLast?_concat howes

lemma Permitted.request {request : PageRequest} {answer : Except QueryError Page}
    (h : Permitted filters length order materialize before (.asked request answer)) :
    before = [] ∧ request = ⟨filters, order, length, .start⟩ ∨
    ∃ sent page, AtPage before sent page [] ∧ 0 < length ∧ page.records.length = length ∧
      page.next ≠ sent.cursor ∧ request = ⟨filters, order, length, page.next⟩ := by
  cases h with
  | first _ hbefore => exact .inl ⟨hbefore, rfl⟩
  | further _ _ hpage hlength hfull hmoved => exact .inr ⟨_, _, hpage, hlength, hfull, hmoved, rfl⟩

lemma Permitted.of_read {id : RecordId} {answer : Except QueryError StoredTriple}
    (h : Permitted filters length order materialize before (.read id answer)) :
    Ready before ∧ materialize = true := by
  cases h with
  | read _ hready _ hmaterialize => exact ⟨hready, hmaterialize⟩

/-- Behind a failure or the end there is nothing. -/
lemma Permitted.eq_of_ended (h : Permitted filters length order materialize before event)
    (hended : Ended before) : event = .gave none := by
  cases h with
  | first _ hbefore => simp [hbefore, Ended] at hended
  | further _ hready | read _ hready | record hready | finished hready => exact absurd hended hready.live
  | readout hready _ hbefore | unanswered hready hbefore =>
    rw [hbefore, ended_concat] at hended
    exact absurd (hended.resolve_right not_false) hready.live
  | ended => rfl

/-- Behind a read its outcome is given. -/
lemma Permitted.eq_of_read {id : RecordId} {answer : Except QueryError StoredTriple}
    (hready : Ready before)
    (h : Permitted filters length order materialize (before ++ [.read id answer]) event) :
    event = .gave (some ((outcomeOf answer).map fun triple => ⟨id, some triple⟩)) := by
  cases h with
  | first _ hbefore => simp at hbefore
  | further _ hready' | read _ hready' | record hready' | finished hready' =>
    exact absurd hready' (Ready.not_concat trivial)
  | readout _ _ hbefore =>
    cases List.append_inj_right' hbefore rfl
    rfl
  | unanswered _ hbefore => cases List.append_inj_right' hbefore rfl
  | ended hended => exact absurd (((ended_concat _).mp hended).resolve_right not_false) hready.live

/-- A record is given as it was read directly before, or without its statement if statements are not
read. -/
lemma Permitted.given {record : ScannedRecord}
    (h : Permitted filters length order materialize before (.gave (some (.ok record)))) :
    materialize = false ∧ record.triple = none ∨
    materialize = true ∧ ∃ earlier answer triple, before = earlier ++ [.read record.id answer] ∧
      outcomeOf answer = .ok triple ∧ record.triple = some triple := by
  generalize hevent : ScanEvent.gave (some (.ok record)) = event at h
  cases h with
  | first | further | read | unanswered | finished | ended => cases hevent
  | record _ _ hmaterialize =>
    cases hevent
    exact .inl ⟨hmaterialize, rfl⟩
  | @readout earlier id answer _ hmaterialize hbefore =>
    rcases houtcome : outcomeOf answer with fault | triple <;> rw [houtcome] at hevent <;> cases hevent
    exact .inr ⟨hmaterialize, earlier, answer, triple, hbefore, houtcome, rfl⟩

/-- Behind a failure or the end there is nothing, ever. -/
lemma Always.after_end (h : Always (Permitted filters length order materialize) events)
    {after : List ScanEvent} (hevents : events = before ++ event :: after) (hends : event.Ends) :
    ∀ later ∈ after, later = .gave none := by
  intro later hlater
  obtain ⟨between, rest, rfl⟩ := List.append_of_mem hlater
  have hlaw := h (before ++ event :: between) later rest (by simp [hevents])
  exact hlaw.eq_of_ended ⟨event, by simp, hends⟩

/-- If statements are not read, then nothing is. -/
lemma Always.readIn_eq_nil (h : Always (Permitted filters length order materialize) events)
    (hmaterialize : materialize = false) : readIn events = [] := by
  refine List.filterMap_eq_nil_iff.mpr fun event hevent => ?_
  obtain ⟨before, after, hsplit⟩ := List.append_of_mem hevent
  have hlaw := h before event after hsplit
  cases event with
  | asked | gave => rfl
  | read => exact absurd hlaw.of_read.2 (by simp [hmaterialize])

end

section

variable {filters : List Predicate} {length : Nat} {order : SortOrder} {materialize : Bool}
  {scan : Scan} {events : List ScanEvent}

lemma Stands.given_prefix {cursor : Cursor} {stage : Stage}
    (h : Stands filters length order materialize events cursor stage) :
    givenIn events <+: fetchedIn events := by
  cases h with
  | request _ _ hgiven => rw [hgiven]
  | deliver _ _ _ _ hgiven => rw [hgiven]; exact List.prefix_append _ _
  | done _ hgiven => exact hgiven

lemma Stands.read_prefix {cursor : Cursor} {stage : Stage}
    (h : Stands filters length order materialize events cursor stage) :
    readIn events <+: fetchedIn events := by
  have hgiven := h.given_prefix
  cases h with
  | request _ _ _ hread | deliver _ _ _ _ _ hread =>
    rw [hread]
    split
    · exact hgiven
    · exact List.nil_prefix
  | done _ _ hread => exact hread

lemma Stands.ready_or_ended {cursor : Cursor} {stage : Stage}
    (h : Stands filters length order materialize events cursor stage) :
    Ready events ∨ Ended events := by
  cases h with
  | request hready | deliver _ hready => exact .inl hready
  | done hended => exact .inr hended

/-- No read is left without its outcome. -/
lemma Sound.read_outcome (h : Sound filters length order materialize scan events)
    {before after : List ScanEvent} {id : RecordId} {answer : Except QueryError StoredTriple}
    (hevents : events = before ++ .read id answer :: after) :
    ∃ rest, after = .gave (some ((outcomeOf answer).map fun triple => ⟨id, some triple⟩)) :: rest := by
  have hready := (h.permitted _ _ _ hevents).of_read.1
  cases after with
  | nil =>
    have hstands := h.stands.ready_or_ended
    rw [hevents] at hstands
    rcases hstands with hready' | hended
    · exact absurd hready' (Ready.not_concat trivial)
    · exact absurd (((ended_concat _).mp hended).resolve_right not_false) hready.live
  | cons next rest =>
    have hnext := h.permitted (before ++ [.read id answer]) next rest (by simp [hevents])
    rw [hnext.eq_of_read hready]
    exact ⟨rest, rfl⟩

end

/-! ## What calls answer -/

/-- A call notes nothing but questions and reads on its way, it keeps the total once there is one, and it
is the last if it does not give a record. -/
structure Regular (scan : Scan) (events : List ScanEvent)
    (outcome : Option (Except QueryError ScannedRecord) × Scan × σ × List ScanEvent) : Prop where
  items : itemsIn outcome.2.2.2 = itemsIn events
  total : ∀ total, scan.total = some total → outcome.2.1.total = some total
  ends : (∀ record, outcome.1 ≠ some (.ok record)) → outcome.2.1.stage = .done

section

variable (source : RecordSource σ) (scan : Scan) (state : σ) (events : List ScanEvent)

lemma regular_deliver (record : RecordId) (stage : Stage) :
    Regular scan events (scan.deliver source.tracing record stage (state, events)) := by
  unfold Scan.deliver
  split
  · rw [readTriple_tracing]
    have hitems : itemsIn (events ++ [.read record (source.read record state).1]) = itemsIn events :=
      itemsIn_concat_of_none events rfl
    cases outcomeOf (source.read record state).1 with
    | error fault => exact ⟨hitems, fun _ h => h, fun _ => rfl⟩
    | ok triple => exact ⟨hitems, fun _ h => h, fun h => absurd rfl (h _)⟩
  · exact ⟨rfl, fun _ h => h, fun h => absurd rfl (h _)⟩

lemma regular_request : Regular scan events (scan.request source.tracing (state, events)) := by
  have hitems (answer : Except QueryError Page) :
      itemsIn (events ++ [.asked scan.pageRequest answer]) = itemsIn events :=
    itemsIn_concat_of_none events rfl
  have htotal (page : Page) (total : Nat) (h : scan.total = some total) :
      (scan.received page).total = some total := by
    rw [received, h]
    rfl
  unfold Scan.request
  rw [resolve_tracing]
  rcases source.resolve scan.pageRequest state with ⟨fault | page, state'⟩
  · exact ⟨hitems _, fun _ h => h, fun _ => rfl⟩
  · dsimp only
    split
    · exact ⟨hitems _, htotal page, fun _ => rfl⟩
    · rename_i record left hrecords
      have hdeliver := regular_deliver source (scan.received page) state'
        (events ++ [.asked scan.pageRequest (.ok page)]) record
        (.deliver left page.records.length scan.cursor page.next)
      exact ⟨hdeliver.items.trans (hitems _),
        fun total h => hdeliver.total total (htotal page total h), hdeliver.ends⟩

lemma regular_next : Regular scan events (scan.next source.tracing (state, events)) := by
  unfold Scan.next
  cases hstage : scan.stage with
  | done => exact ⟨rfl, fun _ h => h, fun _ => hstage⟩
  | request => exact regular_request source scan state events
  | deliver left fetched sent next =>
    cases left with
    | cons record left => exact regular_deliver source scan state events _ _
    | nil =>
      dsimp only
      split
      · have hrequest := regular_request source
          { scan with cursor := next, stage := .deliver [] fetched sent next } state events
        exact ⟨hrequest.items, hrequest.total, hrequest.ends⟩
      · exact ⟨rfl, fun _ h => h, fun _ => rfl⟩

lemma itemsIn_calls_watch (count : Nat) : itemsIn (calls (watch source) count scan (state, events)).2.2.2 =
    itemsIn events ++ (calls (watch source) count scan (state, events)).1 := by
  induction count generalizing scan state events with
  | zero => simp [calls]
  | succ count ih =>
    have hitems : itemsIn (scan.watch source (state, events)).2.2.2 =
        itemsIn events ++ [(scan.watch source (state, events)).1] := by
      rw [← (regular_next source scan state events).items]
      exact itemsIn_concat_gave _ _
    rw [calls_succ, ih, hitems, List.append_assoc]
    rfl

lemma next_total {total : Nat} (h : scan.total = some total) :
    (scan.next source state).2.1.total = some total := by
  rw [show state = (state, ([] : List ScanEvent)).1 from rfl,
    next_answersLike (answersLike_tracing source)]
  exact (regular_next source scan state []).total total h

lemma next_stage (h : ∀ record, (scan.next source state).1 ≠ some (.ok record)) :
    (scan.next source state).2.1.stage = .done := by
  rw [show state = (state, ([] : List ScanEvent)).1 from rfl,
    next_answersLike (answersLike_tracing source)] at h ⊢
  exact (regular_next source scan state []).ends h

end

/-! ## All in all -/

/-- **What is seen of a scan of any source**, in the order in which it is seen. -/
structure Safe (filters : List Predicate) (length : Nat) (order : SortOrder) (materialize : Bool)
    (events : List ScanEvent) : Prop where
  /-- A request is the first, or all records of the last page were given, it was full and has a cursor
  that is not the one it was asked for, and this is the cursor of the request. -/
  requests : ∀ before request answer after, events = before ++ .asked request answer :: after →
    before = [] ∧ request = ⟨filters, order, length, .start⟩ ∨
    ∃ sent page, AtPage before sent page [] ∧ 0 < length ∧ page.records.length = length ∧
      page.next ≠ sent.cursor ∧ request = ⟨filters, order, length, page.next⟩
  /-- The records given are the first of those fetched. -/
  given : givenIn events <+: fetchedIn events
  /-- After a failure or the end there are no questions and no reads, and nothing is given. -/
  ends : ∀ before event after, events = before ++ event :: after → event.Ends →
    ∀ later ∈ after, later = .gave none
  /-- Nothing is read if statements are not. -/
  unread : materialize = false → readIn events = [] ∧
    ∀ record, .gave (some (.ok record)) ∈ events → record.triple = none
  /-- Otherwise the records read are the first of those fetched, and no record is given that was not read
  directly before. -/
  read : materialize = true → readIn events <+: fetchedIn events ∧
    ∀ before record after, events = before ++ .gave (some (.ok record)) :: after →
      ∃ earlier answer triple, before = earlier ++ [.read record.id answer] ∧
        outcomeOf answer = .ok triple ∧ record.triple = some triple
  /-- A record that was read is given directly behind, or its failure is. -/
  outcome : ∀ before id answer after, events = before ++ .read id answer :: after →
    ∃ rest, after = .gave (some ((outcomeOf answer).map fun triple => ⟨id, some triple⟩)) :: rest

lemma Sound.safe {filters : List Predicate} {length : Nat} {order : SortOrder} {materialize : Bool}
    {scan : Scan} {events : List ScanEvent}
    (h : Sound filters length order materialize scan events) :
    Safe filters length order materialize events where
  requests before request answer after hevents := (h.permitted before _ after hevents).request
  given := h.stands.given_prefix
  ends before event after hevents hends := h.permitted.after_end hevents hends
  unread hmaterialize := by
    refine ⟨h.permitted.readIn_eq_nil hmaterialize, fun record hrecord => ?_⟩
    obtain ⟨before, after, hevents⟩ := List.append_of_mem hrecord
    rcases (h.permitted before _ after hevents).given with ⟨-, htriple⟩ | ⟨hother, -⟩
    · exact htriple
    · rw [hmaterialize] at hother
      cases hother
  read hmaterialize := by
    refine ⟨h.stands.read_prefix, fun before record after hevents => ?_⟩
    rcases (h.permitted before _ after hevents).given with ⟨hother, -⟩ | ⟨-, hread⟩
    · rw [hmaterialize] at hother
      cases hother
    · exact hread
  outcome before id answer after hevents := h.read_outcome hevents

/-- **Paging is safe over any source**, however it answers and however often the scan is called.

What is seen of a scan is as `Safe` says, where the calls answer what they answer when nobody watches.
The scan knows the total of the first page, which never changes, and how many pages were answered.  The
answers are records, perhaps a failure, and then nothing for good. -/
theorem paging_is_safe (source : RecordSource σ) (filters : List Predicate) (length : Nat)
    (order : SortOrder) (materialize : Bool) (count : Nat) (state : σ) :
    let scan := start filters length order materialize
    ∃ answers last state' events,
      calls (next source) count scan state = (answers, last, state') ∧
      calls (watch source) count scan (state, []) = (answers, last, state', events) ∧
      itemsIn events = answers ∧
      Safe filters length order materialize events ∧
      last.total = (pagesIn events).head?.map Page.total ∧
      last.pages = (pagesIn events).length ∧
      (∀ more total, last.total = some total →
        (calls (next source) (count + more) scan state).2.1.total = some total) ∧
      ∃ records failure? rest, answers =
        List.map (some ∘ .ok) records ++ (Option.map (some ∘ .error) failure?).toList ++
          List.replicate rest none := by
  intro scan
  have hplain : calls (next source) count scan state =
      ((calls (watch source) count scan (state, [])).1, (calls (watch source) count scan (state, [])).2.1,
        (calls (watch source) count scan (state, [])).2.2.1) :=
    calls_project (f := Prod.fst) (watch_project source) count scan (state, [])
  have hsound := sound_calls source filters length order materialize count state
  have hitems := itemsIn_calls_watch source scan state [] count
  refine ⟨_, _, _, _, hplain, rfl, hitems, hsound.safe, hsound.total_eq, hsound.pages_eq, ?_, ?_⟩
  · intro more total htotal
    rw [calls_add, hplain]
    exact calls_invariant (I := fun scan _ => scan.total = some total)
      (fun scan state h => next_total source scan state h) more htotal
  · have hended (scan : Scan) (state : σ) (h : scan.stage = .done) :
        (scan.next source state).1 = none ∧ (scan.next source state).2.1.stage = .done := by
      unfold next
      simp only [h, and_self]
    have hanswers := exists_answers_of_ends hended (next_stage source) count scan state
    rwa [hplain] at hanswers

/-- A page that claims more than there is, and then a failure: the full page is used up before the second
question, and behind the failure there is nothing. -/
example :
    let source := (Table.generate 1).scripted [some ⟨[⟨0, 0⟩], none, 7⟩, none]
    let triple : Triple := ⟨.iri ⟨"http://x/s0"⟩, ⟨"http://x/p"⟩, .literal (.simple "0")⟩
    (calls (watch source) 3 (start [] 1 .ascending true) (.empty, [])).2.2.2 =
      [.asked ⟨[], .ascending, 1, .start⟩ (.ok ⟨[⟨0, 0⟩], .after ⟨0, 0⟩, 7⟩),
        .read ⟨0, 0⟩ (.ok ⟨"<http://x/s0>", "<http://x/p>", "\"0\""⟩),
        .gave (some (.ok ⟨⟨0, 0⟩, some triple⟩)),
        .asked ⟨[], .ascending, 1, .after ⟨0, 0⟩⟩ (.error .search), .gave (some (.error .search)),
        .gave none] := by
  cbv

end Scan

end QuadStore
