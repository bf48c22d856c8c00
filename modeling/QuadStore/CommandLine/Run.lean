import QuadStore.CommandLine.Arguments
import QuadStore.Config
import QuadStore.Load

/-!
# Running commands

A command runs in a directory with files and indexes.  It first reads the configuration, then opens
the index, which comes into being if there is none, and only then looks at its own arguments.  What
it prints before a failure stays printed.

## Main definitions

* `Json`, `Json.compact`, `Json.lines`: the JSON texts that commands print.
* `Directory`: the files and the indexes.
* `Outcome`: the exit code, the lines printed, and the wording of a failure.
* `run`: the outcome of a command line, and the directory afterwards.
-/

namespace QuadStore.CommandLine

/-! ## JSON output

An object stands on one line; a report stands over several lines, with two blanks for each level.  Fields
are put in the order of their names.
-/

/-- The JSON values that commands print. -/
inductive Json where
  | number (value : Nat)
  | boolean (value : Bool)
  | string (value : String)
  | object (fields : List (String × Json))
  deriving Repr, Inhabited

namespace Json

/-- A character of a string: quotes, backslashes and control characters below the blank are
escaped. -/
def escapeChar (c : Char) : List Char :=
  if c = '"' then ['\\', '"']
  else if c = '\\' then ['\\', '\\']
  else if c = '\n' then ['\\', 'n']
  else if c = '\r' then ['\\', 'r']
  else if c = '\t' then ['\\', 't']
  else if c = '\x08' then ['\\', 'b']
  else if c = '\x0c' then ['\\', 'f']
  else if c.toNat < 0x20 then
    '\\' :: 'u' :: Text.lowerHex 4 c.toNat
  else [c]

/-- A string in quotes. -/
def quote (text : String) : String :=
  "\"" ++ String.ofList (text.toList.flatMap escapeChar) ++ "\""

/-- The object with its fields in the order of their names. -/
def ofFields (fields : List (String × Json)) : Json :=
  .object (fields.mergeSort fun a b => !decide (b.1 < a.1))

mutual

/-- A value on one line. -/
def compact : Json → String
  | number value => toString value
  | boolean value => toString value
  | string value => quote value
  | object fields => "\x7b" ++ String.intercalate "," (compactFields fields) ++ "\x7d"

/-- The fields of an object on one line. -/
def compactFields : List (String × Json) → List String
  | [] => []
  | (name, value) :: rest => (quote name ++ ":" ++ value.compact) :: compactFields rest

end

/-- A comma after every line group but the last. -/
def separated : List (List String) → List String
  | [] => []
  | [last] => last
  | lines :: rest => lines.dropLast ++ (lines.getLast?.toList.map (· ++ ",")) ++ separated rest

mutual

/-- The lines of a value, the first without indentation. -/
def lines : Json → List String
  | number value => [toString value]
  | boolean value => [toString value]
  | string value => [quote value]
  | object [] => ["\x7b\x7d"]
  | object (field :: rest) =>
    "\x7b" :: (separated (fieldLines (field :: rest))).map ("  " ++ ·) ++ ["\x7d"]

/-- The lines of each field. -/
def fieldLines : List (String × Json) → List (List String)
  | [] => []
  | (name, value) :: rest =>
    (match value.lines with
      | [] => []
      | first :: more => (quote name ++ ": " ++ first) :: more) :: fieldLines rest

end

end Json

/-! ## Directories and outcomes -/

/-- Files and indexes by their paths. -/
structure Directory where
  files : List (String × List UInt8)
  indexes : List (String × Index)
  deriving Repr

/-- The parts of a path, without those that stay where they are. -/
def pathParts (path : String) : List (List Char) :=
  (Text.splitAll '/' path.toList).filter fun part => !part.isEmpty && part != ['.']

/-- The one path of a place, whatever way it is written. -/
def normalPath (path : String) : String :=
  let relative := String.intercalate "/" ((pathParts path).map String.ofList)
  if path.toList.head? = some '/' then "/" ++ relative else relative

namespace Directory

/-- The bytes of a file. -/
def file? (directory : Directory) (path : String) : Option (List UInt8) :=
  directory.files.lookup (normalPath path)

/-- Whether a path or a part of it is a file, so that no directory can be there. -/
def isBlocked (directory : Directory) (path : String) : Bool :=
  let parts := pathParts path
  directory.files.any fun (name, _) => (pathParts name).isPrefixOf parts

/-- Whether a path is a directory: that of an index, or one above an index or a file. -/
def isDirectory (directory : Directory) (path : String) : Bool :=
  let parts := pathParts path
  directory.indexes.any (fun (name, _) => parts.isPrefixOf (pathParts name)) ||
    directory.files.any fun (name, _) => parts.isPrefixOf (pathParts name) && parts != pathParts name

/-- The index at a path; where there is none it is empty. -/
def index (directory : Directory) (path : String) : Index :=
  (directory.indexes.lookup (normalPath path)).getD .empty

/-- The directory with an index at a path. -/
def withIndex (directory : Directory) (path : String) (index : Index) : Directory :=
  { directory with
    indexes := (normalPath path, index) ::
      directory.indexes.filter fun (name, _) => name != normalPath path }

end Directory

/-- How a command line ends. -/
structure Outcome where
  code : Nat
  lines : List String
  /-- The wording of the failure, if there was one. -/
  failure : Option String
  deriving DecidableEq, Repr

/-- What a command prints, and how it fails if it does. -/
structure Report where
  lines : List String
  failure : Option String
  deriving DecidableEq, Repr

namespace Report

/-- Some lines and no failure. -/
def printed (lines : List String) : Report := ⟨lines, none⟩

/-- A failure before anything was printed. -/
def failed (failure : String) : Report := ⟨[], some failure⟩

/-- The outcome of a report: its code says whether there was a failure. -/
def outcome (report : Report) : Outcome :=
  ⟨if report.failure.isSome then 1 else 0, report.lines, report.failure⟩

end Report

/-- The lines of items up to the first fault, and the fault. -/
def linesUntil {α ε : Type} (show? : α → Option String) (describe : ε → String) :
    List (Except ε α) → Report
  | [] => .printed []
  | .error fault :: _ => .failed (describe fault)
  | .ok item :: rest =>
    let report := linesUntil show? describe rest
    { report with lines := (show? item).toList ++ report.lines }

/-! ## The commands -/

/-- A command on a store: its report, and the store afterwards. -/
abbrev Action := Store → Report × Store

/-- Goes on with the result of an operation on the store, or reports its failure. -/
def andThen {α : Type} (operation : StoreM α) (next : α → Action) : Action := fun store =>
  match operation.run store with
  | (.ok value, store) => next value store
  | (.error fault, store) => (.failed fault.message, store)

/-- Prints lines. -/
def print (lines : List String) : Action := fun store => (.printed lines, store)

/-- Goes on with an argument, or reports what is wrong with it. -/
def withArgument {α : Type} (argument : Except RequestError α) (next : α → Action) : Action :=
  fun store =>
    match argument with
    | .ok value => next value store
    | .error fault => (.failed fault.message, store)

/-- Loads files one after the other, up to the first that fails. -/
def loadAll (directory : Directory) (graph : GraphName) : List String → Action
  | [], store => (.printed [], store)
  | path :: rest, store =>
    match store.load ((directory.file? path).map Content.ofFile) graph with
    | (_, .ok _, store) => loadAll directory graph rest store
    | (_, .error _, store) => (.failed ("Failed to load " ++ path), store)

/-- Prints the statements of a scan. -/
def printStatements (scan : Scan) : Action := fun store =>
  let (items, _, stats) := scan.take store.visible.source store.visible.scanFuel store.stats
  (linesUntil (fun item => item.triple.map Triple.line) QueryError.message items,
    { store with stats })

/-- A row as an object. -/
def rowJson (binding : Binding) : Json :=
  Json.ofFields (binding.toObject.map fun (name, term) => (name, .string term))

/-- Prints the rows of a query. -/
def printRows (solutions : Solutions) : Action := fun store =>
  let (items, _, stats) := solutions.drain store.visible.source store.stats
  (linesUntil (fun row => some (rowJson row).compact) PatternFailure.message items,
    { store with stats })

/-- The statements of a graph, counted, as a field of a report. -/
def sizeField (graph : GraphName) : StoreM (String × Json) :=
  return (graph.encode, .number (← Store.graphSize graph))

/-- What a store holds and did. -/
def statsReport : StoreM Json := do
  let sizes ← (← Store.graphNames).mapM sizeField
  let unnamed ← Store.graphSize .default
  let store ← get
  return Json.ofFields [
    ("records", .number store.size),
    ("default_graph", .number unnamed),
    ("graphs", Json.ofFields sizes),
    ("read_only", .boolean store.isReadOnly),
    ("operations", Json.ofFields [
      ("searches", .number store.stats.searches),
      ("counts", .number store.stats.counts),
      ("records_read", .number store.stats.recordsRead),
      ("records_written", .number store.stats.recordsWritten),
      ("deletes", .number store.stats.deletes)])]

/-- What a command does with a store. -/
def Command.action (directory : Directory) : Command → Action
  | .load files graph => withArgument (graphOf graph) fun graph => loadAll directory graph files
  | .find pattern graph =>
    withArgument (graphOf graph) fun graph =>
      withArgument (patternOf pattern) fun pattern =>
        andThen (Store.find graph pattern) printStatements
  | .query bgp graph constraints =>
    withArgument (graphOf graph) fun graph =>
      withArgument (queryOf bgp) fun patterns =>
        withArgument (constraints.mapM constraintOf) fun constraints =>
          andThen (Store.query graph patterns constraints) printRows
  | .graphs => andThen Store.graphNames fun graphs => print (graphs.map GraphName.encode)
  | .count pattern graph =>
    withArgument (graphOf graph) fun graph =>
      match pattern with
      | none => andThen (Store.graphSize graph) fun size => print [toString size]
      | some pattern =>
        withArgument (patternOf pattern) fun pattern =>
          andThen (Store.count graph pattern) fun size => print [toString size]
  | .clear graph =>
    withArgument (graphOf graph) fun graph =>
      andThen (do Store.clear graph; Store.commit) fun _ => print []
  | .clearAll => andThen (do Store.clearAll; Store.commit) fun _ => print []
  | .stats => andThen statsReport fun report => print report.lines

/-! ## The whole -/

/-- The configuration of an invocation, or why there is none. -/
def loadConfig (directory : Directory) : Option String → Except String StoreConfig
  | none => .ok {}
  | some path =>
    match directory.file? path with
    | none =>
      if directory.isDirectory path then
        .error ("Failed to read config file " ++ path ++ ": Is a directory (os error 21)")
      else .error ("Config file not found: " ++ path)
    | some bytes =>
      match String.fromUTF8? ⟨bytes.toArray⟩ with
      | none =>
        .error ("Failed to read config file " ++ path ++ ": stream did not contain valid UTF-8")
      | some text =>
        (StoreConfig.read text).mapError fun fault =>
          "Invalid YAML config in " ++ path ++ ": " ++ fault.message

/-- The store of an invocation, or why there is none. -/
def openStore (directory : Directory) (path : String) (config : StoreConfig) :
    Except String Store :=
  let refused := "Failed to open index at " ++ path
  if directory.isBlocked path then .error refused
  else (Store.create config (directory.index path) false).mapError fun _ => refused

/-- The report of an invocation, and the directory afterwards. -/
def Invocation.run (invocation : Invocation) (directory : Directory) : Report × Directory :=
  match loadConfig directory invocation.config with
  | .error failure => (.failed failure, directory)
  | .ok config =>
    match openStore directory invocation.index config with
    | .error failure => (.failed failure, directory)
    | .ok store =>
      let (report, store) := invocation.command.action directory store
      (report, directory.withIndex invocation.index store.visible)

/-- The outcome of a command line, and the directory afterwards.  A request for help succeeds and
does nothing; what is no command line has a code of its own. -/
def run (arguments : List String) (directory : Directory) : Outcome × Directory :=
  match Invocation.parse arguments with
  | .error .help => (⟨0, [], none⟩, directory)
  | .error .usage => (⟨2, [], none⟩, directory)
  | .ok invocation =>
    let (report, directory) := invocation.run directory
    (report.outcome, directory)

end QuadStore.CommandLine
