import QuadStore.Page

/-!
# Sources of records without an index

Three sources that show how a scan or a join behaves.  A *table* answers every request exactly: the
first records past the cursor, in the direction asked for.  A *script* answers with given pages in
turn, whatever it is asked.  *Faults* make another source fail at a chosen call.

Tables and scripts note what they are asked.

## Main definitions

* `SourceLog`: the requests and the number of reads.
* `Table`, `Table.source`: exact answers.
* `ScriptedPage`, `Table.scripted`: given answers.
* `Faults`, `Faults.source`: chosen failures.
-/

namespace QuadStore

/-- What a source was asked. -/
structure SourceLog where
  /-- The cursor and the length of each request. -/
  requests : List (Cursor × Nat)
  reads : Nat
  deriving DecidableEq, Repr

namespace SourceLog

/-- Nothing was asked. -/
def empty : SourceLog := ⟨[], 0⟩

/-- One more request. -/
def note (log : SourceLog) (request : PageRequest) : SourceLog :=
  { log with requests := log.requests ++ [(request.cursor, request.length)] }

/-- One more read. -/
def noteRead (log : SourceLog) : SourceLog := { log with reads := log.reads + 1 }

end SourceLog

/-- Statements by record number. -/
structure Table where
  rows : List (RecordId × StoredTriple)
  deriving DecidableEq, Repr

namespace Table

/-- The table of `count` different statements in one segment. -/
def generate (count : Nat) : Table :=
  ⟨(List.range count).map fun i =>
    (⟨0, i⟩, ⟨"<http://x/s" ++ toString i ++ ">", "<http://x/p>", "\"" ++ toString i ++ "\""⟩)⟩

/-- The exact answer to a request; the predicates are not looked at. -/
def page (table : Table) (request : PageRequest) : Page :=
  Page.exact (table.rows.map Prod.fst) request

/-- The statement with a number. -/
def read (table : Table) (id : RecordId) : Except QueryError StoredTriple :=
  match table.rows.lookup id with
  | some stored => .ok stored
  | none => .error (.missingField id .subject)

/-- The table as a source. -/
def source (table : Table) : RecordSource SourceLog where
  resolve request log := (.ok (table.page request), log.note request)
  read id log := (table.read id, log.noteRead)

end Table

/-- A page that is answered whatever was asked; it goes on after its last record if no cursor is
given. -/
structure ScriptedPage where
  records : List RecordId
  next : Option Cursor
  total : Nat
  deriving DecidableEq, Repr

/-- The answer of a scripted page to a request. -/
def ScriptedPage.answer (scripted : ScriptedPage) (request : PageRequest) : Page :=
  let page := Page.after scripted.records request.cursor scripted.total
  { page with next := scripted.next.getD page.next }

/-- A source that answers with given pages or failures in turn, and with empty pages after them.
Statements come from the table. -/
def Table.scripted (table : Table) (script : List (Option ScriptedPage)) :
    RecordSource SourceLog where
  resolve request log :=
    (match script[log.requests.length]? with
      | none => .ok (Page.after [] request.cursor 0)
      | some none => .error .search
      | some (some page) => .ok (page.answer request),
      log.note request)
  read id log := (table.read id, log.noteRead)

/-- The calls, counted from 1, at which a source fails. -/
structure Faults where
  resolve : Option Nat
  read : Option Nat
  /-- Whether the failing read answers with an object that cannot be read, and not with an
  error. -/
  malformed : Bool
  deriving DecidableEq, Repr

/-- The state of a source with faults: its own, and the calls so far. -/
structure FaultState (σ : Type) where
  inner : σ
  resolves : Nat
  reads : Nat
  deriving Repr

namespace Faults

variable {σ : Type}

/-- No faults. -/
def none : Faults := ⟨.none, .none, false⟩

/-- A source with faults. -/
def source (faults : Faults) (source : RecordSource σ) : RecordSource (FaultState σ) where
  resolve request state :=
    let state := { state with resolves := state.resolves + 1 }
    if faults.resolve = some state.resolves then (.error .search, state)
    else
      let (answer, inner) := source.resolve request state.inner
      (answer, { state with inner })
  read id state :=
    let state := { state with reads := state.reads + 1 }
    if faults.read = some state.reads && !faults.malformed then
      (.error (.missingField id .object), state)
    else
      let (answer, inner) := source.read id state.inner
      let answer := if faults.read = some state.reads then
          answer.map fun stored => { stored with object := "\"broken" }
        else answer
      (answer, { state with inner })

end Faults

end QuadStore
