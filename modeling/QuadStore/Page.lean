import QuadStore.Filter

/-!
# Pages of records

A source of records answers two questions: which records satisfy some predicates, a page at a
time, and what the statement of a record is.  Both may fail, at any time, and both may change the
source, which is why a question takes the source's state and an answer gives it back.

## Main definitions

* `RecordId`, with its order.
* `SortOrder`, `SortOrder.sorted`, `Cursor`, `Cursor.precedes`: how far a scan has come.
* `QueryError`: why a question has no answer.
* `PageRequest`, `Page`, `Page.after`, `Page.exact`: what is asked and answered.
* `RecordSource`: the two questions.
* `PageDraft`, `PageCollector`: how a page is put together from the matches of several segments.
-/

namespace QuadStore

/-! ## Record numbers and cursors

A record's number says in which segment of the index it lies and where; the index order compares
segments first.  A cursor marks how far a scan has come: it is at the start, or after a record.
-/

/-- The place of a record in the index. -/
structure RecordId where
  segment : Nat
  doc : Nat
  deriving DecidableEq, Repr, Inhabited

namespace RecordId

/-- The text of a record number. -/
def display (id : RecordId) : String := toString id.segment ++ ":" ++ toString id.doc

/-- The record number that a text shows. -/
def read? (text : List Char) : Option RecordId := do
  let (segment, doc) ← Text.splitOnce ':' text
  return ⟨← Text.decimal? segment, ← Text.decimal? doc⟩

instance : LT RecordId := ⟨fun a b => a.segment < b.segment ∨ a.segment = b.segment ∧ a.doc < b.doc⟩
instance : LE RecordId := ⟨fun a b => a.segment < b.segment ∨ a.segment = b.segment ∧ a.doc ≤ b.doc⟩
instance (a b : RecordId) : Decidable (a < b) :=
  inferInstanceAs (Decidable (a.segment < b.segment ∨ a.segment = b.segment ∧ a.doc < b.doc))
instance (a b : RecordId) : Decidable (a ≤ b) :=
  inferInstanceAs (Decidable (a.segment < b.segment ∨ a.segment = b.segment ∧ a.doc ≤ b.doc))

end RecordId

/-- The direction of a scan. -/
inductive SortOrder where
  | ascending
  | descending
  deriving DecidableEq, Repr, Inhabited

/-- The word for a direction. -/
def SortOrder.name : SortOrder → String
  | ascending => "ascending"
  | descending => "descending"

/-- The direction with a name. -/
def SortOrder.ofName? (name : String) : Option SortOrder :=
  [ascending, descending].find? (·.name = name)

/-- Whether a record comes no later than another in a direction. -/
def SortOrder.inOrder (order : SortOrder) (a b : RecordId) : Bool :=
  match order with
  | .ascending => decide (a ≤ b)
  | .descending => decide (b ≤ a)

/-- Records in a direction. -/
def SortOrder.sorted (order : SortOrder) (records : List RecordId) : List RecordId :=
  records.mergeSort order.inOrder

/-- How far a scan has come. -/
inductive Cursor where
  | start
  | after (record : RecordId)
  deriving DecidableEq, Repr, Inhabited

namespace Cursor

/-- The text of a cursor. -/
def display : Cursor → String
  | start => "*"
  | after record => record.display

/-- The cursor that a text shows. -/
def read? (text : List Char) : Option Cursor :=
  if text = ['*'] then some start else (RecordId.read? text).map after

/-- Whether a record is still to come, in the direction of the scan. -/
def precedes (cursor : Cursor) (record : RecordId) (order : SortOrder) : Bool :=
  match cursor, order with
  | start, _ => true
  | after mark, .ascending => decide (mark < record)
  | after mark, .descending => decide (record < mark)

end Cursor

/-! ## Questions and answers -/

/-- Why a source cannot answer. -/
inductive QueryError where
  /-- A stored written form that cannot be read. -/
  | malformedTerm (fault : TermError)
  /-- Predicates that cannot be built. -/
  | filter (fault : FilterError)
  /-- A search that failed. -/
  | search
  /-- A record without one of its stored fields. -/
  | missingField (record : RecordId) (field : Field)
  deriving DecidableEq, Repr

/-- The wording of a fault. -/
def QueryError.message : QueryError → String
  | malformedTerm fault => fault.message
  | filter fault => fault.message
  | search => "Index search failed"
  | missingField record field =>
    "Record " ++ record.display ++ " has no stored '" ++ field.name ++ "' field"

/-- A question for the records that satisfy some predicates and are still to come. -/
structure PageRequest where
  filters : List Predicate
  order : SortOrder
  length : Nat
  cursor : Cursor
  deriving Repr

/-- Some of the records, where to go on, and how many records satisfy the predicates at all. -/
structure Page where
  records : List RecordId
  next : Cursor
  total : Nat
  deriving DecidableEq, Repr

/-- The page of these records: it goes on after the last of them, and where it was asked for if
there is none. -/
def Page.after (records : List RecordId) (sent : Cursor) (total : Nat) : Page :=
  ⟨records, (records.getLast?.map Cursor.after).getD sent, total⟩

/-- The exact answer to a request whose predicates are satisfied by these records: the first of them
past the cursor. -/
def Page.exact (found : List RecordId) (request : PageRequest) : Page :=
  let toCome := (request.order.sorted found).filter (request.cursor.precedes · request.order)
  Page.after (toCome.take request.length) request.cursor found.length

/-- A source of records, whose state may change with every question. -/
structure RecordSource (σ : Type) where
  /-- A page of records. -/
  resolve : PageRequest → σ → Except QueryError Page × σ
  /-- The written forms of a record's statement. -/
  read : RecordId → σ → Except QueryError StoredTriple × σ

/-- The statement of a record. -/
def RecordSource.readTriple {σ : Type} (source : RecordSource σ) (record : RecordId) (state : σ) :
    Except QueryError Triple × σ :=
  match source.read record state with
  | (.error fault, state) => (.error fault, state)
  | (.ok stored, state) =>
    match stored.decode with
    | .ok triple => (.ok triple, state)
    | .error fault => (.error (.malformedTerm fault), state)

/-! ## Putting a page together -/

/-- The records kept for a page, and how many records matched. -/
structure PageDraft where
  records : List RecordId
  total : Nat
  deriving DecidableEq, Repr

/-- A page is asked for by its greatest length, the cursor and the direction. -/
structure PageCollector where
  limit : Nat
  after : Cursor
  order : SortOrder
  deriving DecidableEq, Repr

namespace PageCollector

/-- The draft with one more match of a segment.  Matches come in ascending order: an ascending page
keeps the first ones past the cursor, a descending one the last. -/
def collect (collector : PageCollector) (draft : PageDraft) (record : RecordId) : PageDraft :=
  if collector.after.precedes record collector.order then
    match collector.order with
    | .ascending =>
      if draft.records.length < collector.limit then
        ⟨draft.records ++ [record], draft.total + 1⟩
      else { draft with total := draft.total + 1 }
    | .descending =>
      let window := draft.records ++ [record]
      ⟨if collector.limit < window.length then window.drop 1 else window, draft.total + 1⟩
  else { draft with total := draft.total + 1 }

/-- The draft of a segment whose matches are given in ascending order. -/
def segment (collector : PageCollector) (found : List RecordId) : PageDraft :=
  let draft := found.foldl collector.collect ⟨[], 0⟩
  match collector.order with
  | .ascending => draft
  | .descending => { draft with records := draft.records.reverse }

/-- The draft of several segments: their records in the direction of the scan, as many as the page
may have. -/
def merge (collector : PageCollector) (drafts : List PageDraft) : PageDraft :=
  { records := (collector.order.sorted (drafts.flatMap PageDraft.records)).take collector.limit
    total := drafts.foldr (fun draft total => draft.total + total) 0 }

/-- Collecting a page never needs the score of a match. -/
def requiresScoring (_ : PageCollector) : Bool := false

/-- The page for a request, from the matches of each segment in ascending order. -/
def page (request : PageRequest) (segments : List (List RecordId)) : Page :=
  let collector : PageCollector := ⟨request.length, request.cursor, request.order⟩
  let draft := collector.merge (segments.map collector.segment)
  Page.after draft.records request.cursor draft.total

end PageCollector

end QuadStore
