import QuadStore.Join
import QuadStore.Yaml.Document

/-!
# The configuration of a store

How a store reads and writes, with defaults for all of it, and the reader of configuration files.  A
file is a YAML document with a mapping.  Every entry is optional, unknown entries are passed over,
whatever they hold, and where nothing is written there are no entries.  An entry that is given twice, or
with a value of another type, is a fault.

A node may be written elsewhere and referred to.  A number is read from a plain scalar whatever its
tag is.  A word may also be given as a tag of a node that has no value.

## Main definitions

* `WriterConfig`, `StoreConfig`, with their defaults.
* `WriterConfig.isAdmissible`: whether a writer can be opened.
* `ConfigFault`, `ConfigError`: what can be wrong with a file, and where.
* `StoreConfig.read`: the configuration that a text gives.
-/

namespace QuadStore

/-- How a store writes. -/
structure WriterConfig where
  /-- The bytes that all writing threads together may use. -/
  memoryBudget : Nat := 50000000
  threads : Nat := 1
  deriving DecidableEq, Repr

namespace WriterConfig

/-- The bytes that each thread may use; there is at least one thread. -/
def threadBudget (config : WriterConfig) : Nat := config.memoryBudget / max config.threads 1

/-- A writer needs some memory in each thread, and cannot use more than it can address. -/
def isAdmissible (config : WriterConfig) : Bool :=
  decide (15000000 ≤ config.threadBudget ∧ config.threadBudget < 4293967295)

end WriterConfig

/-- How a store reads and writes. -/
structure StoreConfig where
  /-- The length of a page; one that is zero ends every scan at its first search. -/
  fetchSize : Nat := 1000
  order : SortOrder := .ascending
  policy : FailurePolicy := .failOpen
  writer : WriterConfig := {}
  deriving DecidableEq, Repr

/-! ## Configuration files -/

/-- What can be wrong with a configuration. -/
inductive ConfigFault where
  /-- The text is no document. -/
  | notYaml (fault : Yaml.Fault)
  /-- A value of another type than is expected, both described. -/
  | invalidType (found expected : String)
  /-- A text that is no value of the type that its tag asks for. -/
  | invalidValue (found expected : String)
  /-- A word that is none of those expected. -/
  | unknownWord (word : String) (expected : List String)
  | duplicate (name : String)
  deriving DecidableEq, Repr

/-- A fault, the path of names that leads to it, and its place. -/
structure ConfigError where
  fault : ConfigFault
  path : List String
  mark : Yaml.Mark
  deriving DecidableEq, Repr

namespace ConfigError

/-- The wording of a fault without its place. -/
def describe : ConfigFault → String
  | .notYaml fault => fault.message
  | .invalidType found expected => "invalid type: " ++ found ++ ", expected " ++ expected
  | .invalidValue found expected => "invalid value: " ++ found ++ ", expected " ++ expected
  | .unknownWord word expected =>
    "unknown variant `" ++ word ++ "`, expected " ++
      String.intercalate " or " (expected.map fun name => "`" ++ name ++ "`")
  | .duplicate name => "duplicate field `" ++ name ++ "`"

/-- The wording of a fault: the path to it, what is wrong, and its place unless it is the
beginning. -/
def message (error : ConfigError) : String :=
  let path := if error.path.isEmpty then "" else String.intercalate "." error.path ++ ": "
  path ++ describe error.fault ++ (if error.mark.isFirst then "" else error.mark.describe)

end ConfigError

/-- A part of a configuration, or a fault. -/
abbrev ConfigResult := Except ConfigError

/-! ### Values -/

namespace Yaml

/-- The numbers below which a natural number has two sizes of word. -/
def wordLimit : Nat := 0x10000000000000000

/-- The half of `wordLimit`, from which on a negative number does not fit into a word. -/
def halfLimit : Nat := 0x8000000000000000

/-- What a value is, in messages. -/
def Scalar.describe : Scalar → String
  | .null => "unit value"
  | .boolean value => "boolean `" ++ toString value ++ "`"
  | .integer value =>
    let size := if (wordLimit : Int) ≤ value then " as u128"
      else if value < -(halfLimit : Int) then " as i128" else ""
    "integer `" ++ toString value ++ "`" ++ size
  | .float text => "floating point `" ++ text ++ "`"
  | .string text => "string " ++ text.quote

namespace Node

/-- The fault of a node where something else is expected. -/
def unexpected (expected : String) : Node → ConfigFault
  | .sequence _ _ => .invalidType "sequence" expected
  | .mapping _ _ => .invalidType "map" expected
  | .scalar head style text =>
    match Scalar.resolve head.tag style text with
    | .ok value => .invalidType value.describe expected
    | .error wanted => .invalidValue (Scalar.string text).describe wanted
  | .reference _ _ => .invalidType "reference" expected

/-- Whether the text of a scalar may be a number: it is plain, or a literal block that is tagged as
one. -/
def mayBeNumber (head : Head) : Style → Bool
  | .plain => true
  | .literal => head.tag.bind schema? == some .integer
  | _ => false

/-- A natural number below `2 ^ 64`. -/
def natural (path : List String) (node : Node) : ConfigResult Nat :=
  let found := match node with
    | .scalar head style text =>
      if mayBeNumber head style then
        (Scalar.natural? text.toList).filter fun n => decide (n < wordLimit)
      else none
    | _ => none
  match found with
  | some value => .ok value
  | none => .error ⟨node.unexpected "usize", path, node.mark⟩

/-- Whether a node has no value: a plain scalar that is empty or a word for nothing. -/
def isVoid : Node → Bool
  | .scalar _ style text => style == .plain && (text.isEmpty || Scalar.isNull text)
  | _ => false

/-- The fault of a node that has a value where there may be none. -/
def notVoid : Node → ConfigFault
  | .scalar _ _ text => .invalidValue (Scalar.string text).describe "null"
  | node => node.unexpected "unit"

/-- One of some words, which is the tag of a node without value, or the text of a scalar, whatever
type it would have otherwise. -/
def word {α : Type} (path : List String) (words : List (String × α)) (node : Node) :
    ConfigResult α :=
  let known (name : String) : ConfigResult α :=
    match words.lookup name with
    | some value => .ok value
    | none => .error ⟨.unknownWord name (words.map Prod.fst), path, node.mark⟩
  match node.head.localTag?, node with
  | some name, _ => do
    let value ← known name
    if node.isVoid then return value else .error ⟨node.notVoid, path, node.mark⟩
  | none, .scalar _ _ text => known text
  | none, _ => .error ⟨node.unexpected "a YAML tag starting with '!'", path, node.mark⟩

end Node

end Yaml

/-! ### Entries -/

/-- An entry of a mapping: its name, how the name is told in messages, and its value. -/
structure ConfigEntry where
  name : String
  label : String
  value : Yaml.Node

/-- The entries of a mapping; an empty plain scalar has none. -/
def entriesOf (document : Yaml.Document) (path : List String) (expected : String)
    (node : Yaml.Node) : ConfigResult (List ConfigEntry) :=
  let entry : Yaml.Node × Yaml.Node → ConfigResult ConfigEntry := fun (key, value) =>
    match document.follow key with
    | .scalar _ _ text =>
      let label := match key with
        | .reference _ _ => "?"
        | _ => text
      .ok ⟨text, label, document.follow value⟩
    | key => .error ⟨key.unexpected "field identifier", path, key.mark⟩
  match node with
  | .mapping _ entries => entries.mapM entry
  | .scalar head style text =>
    if style = .plain && text.isEmpty then .ok []
    else .error ⟨node.unexpected expected, path, head.mark⟩
  | _ => .error ⟨node.unexpected expected, path, node.mark⟩

/-- Fills in a record from the entries of a mapping at a place: each known one may come once and
sets its part. -/
def fillIn {α : Type} (path known : List String) (mark : Yaml.Mark)
    (assign : ConfigEntry → α → ConfigResult α) :
    List ConfigEntry → List String → α → ConfigResult α
  | [], _, record => .ok record
  | entry :: rest, seen, record =>
    if entry.name ∉ known then fillIn path known mark assign rest seen record
    else if entry.name ∈ seen then .error ⟨.duplicate entry.name, path, mark⟩
    else match assign entry record with
      | .error fault => .error fault
      | .ok record => fillIn path known mark assign rest (entry.name :: seen) record

namespace WriterConfig

/-- Sets one part of a writer's configuration. -/
def assign (path : List String) (entry : ConfigEntry) (config : WriterConfig) :
    ConfigResult WriterConfig := do
  let value ← entry.value.natural (path ++ [entry.label])
  if entry.name = "memory_budget" then return { config with memoryBudget := value }
  else return { config with threads := value }

/-- The writer's configuration that a node gives. -/
def read (document : Yaml.Document) (path : List String) (node : Yaml.Node) :
    ConfigResult WriterConfig := do
  let entries ← entriesOf document path "struct WriterConfig" node
  fillIn path ["memory_budget", "threads"] node.mark (assign path) entries [] {}

end WriterConfig

namespace StoreConfig

/-- The words for the directions. -/
def orderWords : List (String × SortOrder) :=
  [SortOrder.ascending, .descending].map fun order => (order.name, order)

/-- The words for the policies. -/
def policyWords : List (String × FailurePolicy) :=
  [FailurePolicy.failOpen, .failClosed].map fun policy => (policy.name, policy)

/-- Sets one part of a configuration. -/
def assign (document : Yaml.Document) (entry : ConfigEntry) (config : StoreConfig) :
    ConfigResult StoreConfig := do
  let path := [entry.label]
  if entry.name = "fetch_size" then
    return { config with fetchSize := ← entry.value.natural path }
  else if entry.name = "sort" then
    return { config with order := ← entry.value.word path orderWords }
  else if entry.name = "failure_policy" then
    return { config with policy := ← entry.value.word path policyWords }
  else return { config with writer := ← WriterConfig.read document path entry.value }

/-- The configuration that a document gives. -/
def ofDocument (document : Yaml.Document) : ConfigResult StoreConfig := do
  let entries ← entriesOf document [] "struct EngineConfig" document.root
  fillIn [] ["fetch_size", "sort", "failure_policy", "writer"] document.root.mark
    (assign document) entries [] {}

/-- The configuration that a text gives; an empty text gives the defaults. -/
def read (text : String) : ConfigResult StoreConfig :=
  match Yaml.Document.read text.toList with
  | .error fault => .error ⟨.notYaml fault, [], default⟩
  | .ok none => .ok {}
  | .ok (some document) => ofDocument document

end StoreConfig

end QuadStore
