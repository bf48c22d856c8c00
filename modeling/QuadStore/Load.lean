import QuadStore.Grammar.Query
import QuadStore.Gzip
import QuadStore.Store

/-!
# Loading

A statement file has a statement, a comment or nothing on each line.  Lines end at a line feed, and
a carriage return before it is not part of the line.  Statements without a graph belong to the
default graph that the reader was given.

Loading a file adds its statements one after the other and then commits.  At the first fault loading
ends; the statements before it stay added, and the next commit makes them visible.

## Main definitions

* `Content`: the bytes of a file, and whether reading fails after them.
* `Content.quads`: the statements and faults of a file, in order.
* `readQuads`: all statements, or the first fault.
* `LoadError`, `LoadSummary`.
* `Store.load`: the summary of a load, with the number of statements added before any fault.
* `Store.loadReporting`: a load that reports after each statement how many have been added.
-/

namespace QuadStore

/-! ## Statement files

A line that is no statement does not keep the next ones from being read; which line it was is part
of the fault.  A line whose bytes are no text, or where reading the file fails, is unreadable.
-/

/-- The line at the front of a text without what ends it, and the text after it. -/
def cutLine {α : Type} [DecidableEq α] (feed ret : α) : List α → List α × List α
  | [] => ([], [])
  | c :: rest =>
    if c = feed then ([], rest)
    else if c = ret ∧ rest.head? = some feed then ([], rest.drop 1)
    else
      let (line, after) := cutLine feed ret rest
      (c :: line, after)

theorem cutLine_length_le {α : Type} [DecidableEq α] (feed ret : α) (text : List α) :
    (cutLine feed ret text).2.length ≤ text.length := by
  induction text with
  | nil => simp [cutLine]
  | cons c rest ih =>
    simp only [cutLine]
    split
    · simp
    · split
      · simp only [List.length_drop, List.length_cons]
        omega
      · simp only [List.length_cons]
        omega

/-- The lines of a text.  What follows the last line feed is a line unless it is empty. -/
def splitLines {α : Type} [DecidableEq α] (feed ret : α) : List α → List (List α)
  | [] => []
  | c :: rest =>
    if c = feed then [] :: splitLines feed ret rest
    else if c = ret ∧ rest.head? = some feed then [] :: splitLines feed ret (rest.drop 1)
    else
      let line := (cutLine feed ret rest).1
      (c :: line) :: splitLines feed ret (cutLine feed ret rest).2
  termination_by text => text.length
  decreasing_by
    · simp
    · simp only [List.length_drop, List.length_cons]
      omega
    · have := cutLine_length_le feed ret rest
      simp only [List.length_cons]
      omega

/-- Why a line gives no statement. -/
inductive LineFault where
  | unreadable
  | invalid (fault : ParseError)
  deriving DecidableEq, Repr

/-- A fault and the number of its line, counted from 1. -/
structure ReadError where
  line : Nat
  fault : LineFault
  deriving DecidableEq, Repr

/-- The wording of a fault. -/
def ReadError.message (error : ReadError) : String :=
  match error.fault with
  | .unreadable => "Unable to read line " ++ toString error.line
  | .invalid _ => "Invalid statement on line " ++ toString error.line

/-- What can be read of a file. -/
structure Content where
  bytes : List UInt8
  /-- Whether reading fails after these bytes, and not just ends. -/
  broken : Bool
  deriving DecidableEq, Repr

namespace Content

/-- A file as it is. -/
def plain (bytes : List UInt8) : Content := ⟨bytes, false⟩

/-- The content of a file that is compressed. -/
def ofGzip (file : List UInt8) : Content :=
  let (bytes, sound) := Gzip.read file
  ⟨bytes, !sound⟩

/-- The content of a file, which is compressed if it is marked so. -/
def ofFile (file : List UInt8) : Content :=
  if Gzip.isMarked file then ofGzip file else plain file

/-- The text that bytes encode, if they encode one. -/
def text? (bytes : List UInt8) : Option (List Char) :=
  (String.fromUTF8? ⟨bytes.toArray⟩).map String.toList

/-- The text of a compressed file, if the file is sound and holds one. -/
def gzipText? (file : List UInt8) : Option (List Char) :=
  let content := ofGzip file
  if content.broken then none else text? content.bytes

/-- The bytes up to and with the last line feed. -/
def wholeLines (bytes : List UInt8) : List UInt8 :=
  (bytes.reverse.dropWhile (· ≠ 10)).reverse

/-- The lines of a file; nothing stands for one that cannot be read.  Where reading fails, the line
it fails in is the last. -/
def lines (content : Content) : List (Option (List Char)) :=
  if content.broken then
    (splitLines 10 13 (wholeLines content.bytes)).map text? ++ [none]
  else (splitLines 10 13 content.bytes).map text?

end Content

/-- The statement with its graph, which is the given one if it has none. -/
def Quad.withDefault (defaultGraph : GraphName) (quad : Quad) : Quad :=
  if quad.graph = .default then { quad with graph := defaultGraph } else quad

/-- The statement of a line, if it has one. -/
def readLine (defaultGraph : GraphName) (line : Option (List Char)) :
    Except LineFault (Option Quad) :=
  match line with
  | none => .error .unreadable
  | some text =>
    match parseStatement text with
    | .error fault => .error (.invalid fault)
    | .ok quad => .ok (quad.map (Quad.withDefault defaultGraph))

/-- The statements and faults of lines, the first of which has number `first`. -/
def quadsFrom (defaultGraph : GraphName) (first : Nat) :
    List (Option (List Char)) → List (Except ReadError Quad)
  | [] => []
  | line :: rest =>
    match readLine defaultGraph line with
    | .error fault => .error ⟨first, fault⟩ :: quadsFrom defaultGraph (first + 1) rest
    | .ok none => quadsFrom defaultGraph (first + 1) rest
    | .ok (some quad) => .ok quad :: quadsFrom defaultGraph (first + 1) rest

/-- The statements and faults of a file. -/
def Content.quads (content : Content) (defaultGraph : GraphName) : List (Except ReadError Quad) :=
  quadsFrom defaultGraph 1 content.lines

/-- The statements and faults of a text. -/
def textQuads (text : List Char) (defaultGraph : GraphName) : List (Except ReadError Quad) :=
  quadsFrom defaultGraph 1 ((splitLines '\n' '\r' text).map some)

/-- All statements, or the first fault. -/
def readQuads : List (Except ReadError Quad) → Except ReadError (List Quad)
  | [] => .ok []
  | .error fault :: _ => .error fault
  | .ok quad :: rest => (readQuads rest).map (quad :: ·)

/-! ## Loads -/

/-- Why a load ends early. -/
inductive LoadError where
  /-- The file cannot be opened. -/
  | unopened
  | line (error : ReadError)
  | store (fault : StoreError)
  deriving DecidableEq, Repr

/-- What a load did. -/
structure LoadSummary where
  /-- The statements read, repeated ones included. -/
  statements : Nat
  /-- The records of the store afterwards. -/
  records : Nat
  deriving DecidableEq, Repr

namespace Store

/-- Adds statements until a fault, `added` having been added before. -/
def addWhileSound : List (Except ReadError Quad) → Nat → Store → Nat × Option LoadError × Store
  | [], added, store => (added, none, store)
  | .error fault :: _, added, store => (added, some (.line fault), store)
  | .ok quad :: rest, added, store =>
    match (addQuad quad).run store with
    | (.error fault, store) => (added, some (.store fault), store)
    | (.ok (), store) => addWhileSound rest (added + 1) store

/-- Loads a file: the number of statements added, the summary or the fault, and the store. -/
def load (file : Option Content) (defaultGraph : GraphName) (store : Store) :
    Nat × Except LoadError LoadSummary × Store :=
  match file with
  | none => (0, .error .unopened, store)
  | some content =>
    match addWhileSound (content.quads defaultGraph) 0 store with
    | (added, some fault, store) => (added, .error fault, store)
    | (added, none, store) =>
      match commit.run store with
      | (.error fault, store) => (added, .error (.store fault), store)
      | (.ok (), store) => (added, .ok ⟨added, store.size⟩, store)

/-- Adds statements until a fault and reports after each how many have been added; `seen` is what the
reports have made of the state of whoever receives them. -/
def addReporting {σ : Type} (report : Nat → σ → σ) :
    List (Except ReadError Quad) → Nat → σ → Store → Nat × σ × Option LoadError × Store
  | [], added, seen, store => (added, seen, none, store)
  | .error fault :: _, added, seen, store => (added, seen, some (.line fault), store)
  | .ok quad :: rest, added, seen, store =>
    match (addQuad quad).run store with
    | (.error fault, store) => (added, seen, some (.store fault), store)
    | (.ok (), store) => addReporting report rest (added + 1) (report (added + 1) seen) store

/-- Loads a file with reports: what they have made of a state, the summary or the fault, and the
store. -/
def loadReporting {σ : Type} (report : Nat → σ → σ) (file : Option Content)
    (defaultGraph : GraphName) (seen : σ) (store : Store) :
    σ × Except LoadError LoadSummary × Store :=
  match file with
  | none => (seen, .error .unopened, store)
  | some content =>
    match addReporting report (content.quads defaultGraph) 0 seen store with
    | (_, seen, some fault, store) => (seen, .error fault, store)
    | (added, seen, none, store) =>
      match commit.run store with
      | (.error fault, store) => (seen, .error (.store fault), store)
      | (.ok (), store) => (seen, .ok ⟨added, store.size⟩, store)

end Store

end QuadStore
