import QuadStore.Page

/-!
# Scans

A scan delivers the records that satisfy some predicates one at a time and asks its source for the
next page only when a page is used up.  Another page is asked for only if the last one was full
and its cursor moved; the records may be delivered with their statements or without.

The scan is a value, and `Scan.next` is one step of it, so nothing is assumed of the source: it may
answer with pages that are too short, too long or repeated, and it may fail at any question.  After
a failure or the end the scan is over for good.

## Main definitions

* `Scan`, `Scan.start`, `Scan.next`.
* `Scan.take`: the items of the first steps.
* `Scan.recordIds`: all record numbers, for a source that ends within some number of steps.
-/

namespace QuadStore

/-- Where a scan stands. -/
inductive Stage where
  /-- A page is to be asked for at the scan's cursor. -/
  | request
  /-- A page with so many records was answered to the cursor `sent`; these are left of it. -/
  | deliver (left : List RecordId) (fetched : Nat) (sent next : Cursor)
  /-- Nothing more will come. -/
  | done
  deriving DecidableEq, Repr

/-- A scan. -/
structure Scan where
  filters : List Predicate
  order : SortOrder
  pageLength : Nat
  /-- Whether statements are read. -/
  materialize : Bool
  cursor : Cursor
  /-- How many records satisfy the predicates, as the first page said. -/
  total : Option Nat
  /-- The number of pages answered. -/
  pages : Nat
  stage : Stage
  deriving Repr

/-- A record, with its statement if the scan reads statements. -/
structure ScannedRecord where
  id : RecordId
  triple : Option Triple
  deriving DecidableEq, Repr

namespace Scan

variable {σ : Type}

/-- A scan before its first request. -/
def start (filters : List Predicate) (pageLength : Nat) (order : SortOrder) (materialize : Bool) :
    Scan :=
  { filters, order, pageLength, materialize, cursor := .start, total := none, pages := 0,
    stage := .request }

/-- The request that a scan sends at its cursor. -/
def pageRequest (scan : Scan) : PageRequest :=
  ⟨scan.filters, scan.order, scan.pageLength, scan.cursor⟩

/-- The scan after a page was answered. -/
def received (scan : Scan) (page : Page) : Scan :=
  { scan with pages := scan.pages + 1, total := some (scan.total.getD page.total) }

/-- Delivers a record of a page, the scan standing at `stage` afterwards. -/
def deliver (source : RecordSource σ) (scan : Scan) (record : RecordId) (stage : Stage)
    (state : σ) : Option (Except QueryError ScannedRecord) × Scan × σ :=
  if scan.materialize then
    match source.readTriple record state with
    | (.ok triple, state) => (some (.ok ⟨record, some triple⟩), { scan with stage }, state)
    | (.error fault, state) => (some (.error fault), { scan with stage := .done }, state)
  else (some (.ok ⟨record, none⟩), { scan with stage }, state)

/-- Asks for a page at the scan's cursor and delivers its first record. -/
def request (source : RecordSource σ) (scan : Scan) (state : σ) :
    Option (Except QueryError ScannedRecord) × Scan × σ :=
  match source.resolve scan.pageRequest state with
  | (.error fault, state) => (some (.error fault), { scan with stage := .done }, state)
  | (.ok page, state) =>
    match page.records with
    | [] => (none, { scan.received page with stage := .done }, state)
    | record :: left =>
      (scan.received page).deliver source record
        (.deliver left page.records.length scan.cursor page.next) state

/-- One step: the next record, a failure, or nothing at the end. -/
def next (source : RecordSource σ) (scan : Scan) (state : σ) :
    Option (Except QueryError ScannedRecord) × Scan × σ :=
  match scan.stage with
  | .done => (none, scan, state)
  | .request => scan.request source state
  | .deliver (record :: left) fetched sent next =>
    scan.deliver source record (.deliver left fetched sent next) state
  | .deliver [] fetched sent next =>
    if fetched = scan.pageLength ∧ next ≠ sent then
      { scan with cursor := next }.request source state
    else (none, { scan with stage := .done }, state)

/-- The items of at most `count` steps, and the scan after them; it stops early at the end. -/
def take (source : RecordSource σ) :
    Nat → Scan → σ → List (Except QueryError ScannedRecord) × Scan × σ
  | 0, scan, state => ([], scan, state)
  | count + 1, scan, state =>
    match scan.next source state with
    | (none, scan, state) => ([], scan, state)
    | (some item, scan, state) =>
      let (items, scan, state) := take source count scan state
      (item :: items, scan, state)

/-- All record numbers or the first failure, if the scan ends within `fuel` steps. -/
def recordIds (source : RecordSource σ) :
    Nat → Scan → σ → Option (Except QueryError (List RecordId)) × σ
  | 0, _, state => (none, state)
  | fuel + 1, scan, state =>
    match scan.next source state with
    | (none, _, state) => (some (.ok []), state)
    | (some (.error fault), _, state) => (some (.error fault), state)
    | (some (.ok record), scan, state) =>
      let (rest, state) := recordIds source fuel scan state
      (rest.map fun ids => ids.map (record.id :: ·), state)

end Scan

end QuadStore
