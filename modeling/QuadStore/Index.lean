import QuadStore.Page

/-!
# The index

An index is a row of segments.  A segment holds records at fixed places and a dictionary of the
graphs that were ever written to it; a record that is taken out leaves its place empty and its
graph in the dictionary.  A segment without any record left is dropped.

The index answers the questions of a record source, and counts what it is asked.  It is kept in a file
as text.

## Main definitions

* `Segment`, `Index`, `Index.matching`, `Index.graphTerms`.
* `Statistics`: the questions asked and changes made.
* `Index.source`: the index as a source of records.
* `Index.toLines`, `Index.ofLines?`: the text of an index.
-/

namespace QuadStore

/-- Records written together, each at its place. -/
structure Segment where
  /-- The written forms of the graphs that records of this segment have or had. -/
  graphs : List String
  records : List (Nat × Record)
  deriving Repr

namespace Segment

/-- The segment without the records that satisfy a condition. -/
def erase (segment : Segment) (condition : Record → Bool) : Segment :=
  { segment with records := segment.records.filter fun (_, record) => !condition record }

/-- The dictionary with one more graph, unless it has it or its name is too long to be found. -/
def addGraph (graphs : List String) (graph : String) : List String :=
  if graph ∈ graphs ∨ isKey graph = false then graphs else graphs ++ [graph]

/-- The numbers of the records that satisfy some predicates, as of the `ordinal`-th segment. -/
def matching (segment : Segment) (ordinal : Nat) (filters : List Predicate) : List RecordId :=
  (segment.records.filter fun (_, record) => record.satisfies filters).map fun (doc, _) =>
    ⟨ordinal, doc⟩

end Segment

/-- A row of segments. -/
structure Index where
  segments : List Segment
  deriving Repr

namespace Index

/-- The index without records. -/
def empty : Index := ⟨[]⟩

/-- All records, in the order of the segments. -/
def records (index : Index) : List Record :=
  index.segments.flatMap fun segment => segment.records.map Prod.snd

/-- The number of records. -/
def size (index : Index) : Nat := index.records.length

/-- The index without the records that satisfy a condition. -/
def erase (index : Index) (condition : Record → Bool) : Index :=
  ⟨index.segments.map (·.erase condition)⟩

/-- The index without segments that have no record. -/
def compact (index : Index) : Index :=
  ⟨index.segments.filter fun segment => !segment.records.isEmpty⟩

/-- The numbers of the records that satisfy some predicates, segment by segment. -/
def matching (index : Index) (filters : List Predicate) : List (List RecordId) :=
  index.segments.zipIdx.map fun (segment, ordinal) => segment.matching ordinal filters

/-- How many records satisfy some predicates. -/
def count (index : Index) (filters : List Predicate) : Nat :=
  (index.records.filter (·.satisfies filters)).length

/-- The record with a number. -/
def find? (index : Index) (id : RecordId) : Option Record :=
  index.segments[id.segment]?.bind fun segment => segment.records.lookup id.doc

/-- The written forms in the dictionaries of all segments, each once, in order. -/
def graphTerms (index : Index) : List String :=
  ((index.segments.flatMap Segment.graphs).foldl Segment.addGraph []).mergeSort
    fun a b => !decide (b < a)

end Index

/-! ## Statistics -/

/-- How often each thing was done. -/
structure Statistics where
  searches : Nat
  counts : Nat
  recordsRead : Nat
  recordsWritten : Nat
  deletes : Nat
  deriving DecidableEq, Repr

namespace Statistics

/-- Nothing was done. -/
def zero : Statistics := ⟨0, 0, 0, 0, 0⟩

/-- One more search. -/
def countSearch (stats : Statistics) : Statistics := { stats with searches := stats.searches + 1 }

/-- One more count. -/
def countCount (stats : Statistics) : Statistics := { stats with counts := stats.counts + 1 }

/-- One more record read. -/
def countRead (stats : Statistics) : Statistics :=
  { stats with recordsRead := stats.recordsRead + 1 }

/-- One more record written. -/
def countWrite (stats : Statistics) : Statistics :=
  { stats with recordsWritten := stats.recordsWritten + 1 }

/-- One more deletion. -/
def countDelete (stats : Statistics) : Statistics := { stats with deletes := stats.deletes + 1 }

end Statistics

namespace Index

/-- The page for a request. -/
def resolve (index : Index) (request : PageRequest) : Page :=
  PageCollector.page request (index.matching request.filters)

/-- The index as a source of records, which counts the questions. -/
def source (index : Index) : RecordSource Statistics where
  resolve request stats := (.ok (index.resolve request), stats.countSearch)
  read id stats :=
    (match index.find? id with
      | some record => .ok record.stored
      | none => .error .search,
      stats.countRead)

/-- Enough steps for every scan of the index: one for each record and one for the end. -/
def scanFuel (index : Index) : Nat := index.size + 1

end Index

/-! ## Keeping an index in a file

The text of an index has a line for each segment, for each graph of its dictionary, and for each
record with its place.  Only the written forms are kept, since a record is made from them.  Fields
are escaped, so that neither a tab nor a line end stands in them.
-/

/-- A field of a line. -/
def archiveField (text : String) : String := String.ofList (Text.escape text.toList)

/-- The text of a field. -/
def readArchiveField (field : List Char) : Option String :=
  (Text.unescape field).toOption.map String.ofList

/-- A line from its fields. -/
def archiveLine (fields : List String) : String := String.intercalate "\t" fields

namespace Segment

/-- The lines of a segment. -/
def toLines (segment : Segment) : List String :=
  "segment" :: segment.graphs.map (fun graph => archiveLine ["graph", archiveField graph]) ++
    segment.records.map fun (doc, record) =>
      archiveLine ["record", toString doc, archiveField record.graph, archiveField record.subject,
        archiveField record.predicate, archiveField record.object]

end Segment

/-- The record with these written forms. -/
def Record.ofWritten? (graph subject predicate object : String) : Option Record := do
  let graph ← (GraphName.decode graph).toOption
  let triple ← (StoredTriple.decode ⟨subject, predicate, object⟩).toOption
  return Record.ofTriple graph triple

namespace Index

/-- The lines of an index. -/
def toLines (index : Index) : List String := index.segments.flatMap Segment.toLines

/-- The segments with one more line read; the last segment is the first of the list. -/
def readLine (segments : List Segment) (line : String) : Option (List Segment) :=
  match Text.splitAll '\t' line.toList, segments with
  | [word], _ => if String.ofList word = "segment" then some (⟨[], []⟩ :: segments) else none
  | [word, graph], segment :: rest => do
    if String.ofList word = "graph" then
      let graph ← readArchiveField graph
      return { segment with graphs := segment.graphs ++ [graph] } :: rest
    else none
  | [word, doc, graph, subject, predicate, object], segment :: rest => do
    if String.ofList word = "record" then
      let record ← Record.ofWritten? (← readArchiveField graph) (← readArchiveField subject)
        (← readArchiveField predicate) (← readArchiveField object)
      return { segment with records := segment.records ++ [(← Text.decimal? doc, record)] } :: rest
    else none
  | _, _ => none

/-- The index that lines keep. -/
def ofLines? (lines : List String) : Option Index :=
  (lines.foldlM readLine []).map fun segments => ⟨segments.reverse⟩

end Index

end QuadStore
