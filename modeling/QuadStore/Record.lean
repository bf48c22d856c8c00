import QuadStore.Calendar
import QuadStore.NameId
import QuadStore.Number.Binary64
import QuadStore.Term.Written

/-!
# Records

A record is what the index keeps of a statement in a graph: the four written forms, and the object
once more in the field by which it is found.  A literal is found by its language and by its value,
or by its lexical form if it has no value; any other object is found by its written form.

The identifier of a record is made from the four written forms, so that a statement added twice to
a graph has one record.

## Main definitions

* `Field`, `Field.all`, `Field.name`, `Field.ofName?`: the fields of a record.
* `Field.valueType`, `Field.isStored`: what a field holds and whether it can be read back.
* `LiteralKind`, `LiteralKind.ofDatatype?`: the kinds of literals.
* `Value`: a value of one of the three kinds that have values.
* `LiteralKind.value?`: the value that a lexical form denotes.
* `Record`, `Record.ofTriple`, `Quad.record`.
* `recordId`, `recordName`: the identifier and the name it is made from.
-/

namespace QuadStore

/-! ## Fields

An index keeps ten fields of each record.  The four written forms and the object's fields of each
kind of value can be searched; the three written forms of the statement can also be read back.
-/

/-- A field of the index. -/
inductive Field where
  | id
  | graph
  | subject
  | predicate
  | object
  | objectLanguage
  | objectBoolean
  | objectNumeric
  | objectDate
  | objectText
  deriving DecidableEq, Repr

/-- The type of a field's values. -/
inductive FieldType where
  | text
  | boolean
  | float
  | integer
  deriving DecidableEq, Repr

namespace Field

/-- The fields in the order in which a schema lists them. -/
def all : List Field :=
  [id, graph, subject, predicate, object, objectLanguage, objectBoolean, objectNumeric, objectDate,
    objectText]

/-- The name of a field. -/
def name : Field → String
  | id => "id"
  | graph => "c"
  | subject => "s"
  | predicate => "p"
  | object => "o"
  | objectLanguage => "o_lang"
  | objectBoolean => "o_b"
  | objectNumeric => "o_n"
  | objectDate => "o_d"
  | objectText => "o_s"

/-- The field with a name. -/
def ofName? (text : String) : Option Field := all.find? (·.name = text)

/-- What a field holds. -/
def valueType : Field → FieldType
  | objectBoolean => .boolean
  | objectNumeric => .float
  | objectDate => .integer
  | _ => .text

/-- Whether a field can be read back: the written forms of a statement can. -/
def isStored : Field → Bool
  | subject | predicate | object => true
  | _ => false

/-- Whether a field can be searched: all can. -/
def isIndexed (_ : Field) : Bool := true

end Field

/-! ## Kinds of literals and their values

The datatype of a literal puts it into one of four kinds.  Three kinds have values, by which their
literals are found and compared: truth values, numbers and instants.  A literal of the fourth kind,
and one whose lexical form denotes no value of its kind, is a text.
-/

/-- The kind of a literal. -/
inductive LiteralKind where
  | boolean
  | numeric
  | date
  | text
  deriving DecidableEq, Repr

/-- A value by which literals are found. -/
inductive Value where
  | boolean (value : Bool)
  | numeric (value : Binary64)
  /-- An instant, in milliseconds from the epoch. -/
  | date (millis : Int)
  deriving DecidableEq, Repr

namespace LiteralKind

/-- The word for a kind. -/
def name : LiteralKind → String
  | boolean => "boolean"
  | numeric => "numeric"
  | date => "date"
  | text => "text"

/-- The datatypes whose literals are no mere texts, each with its kind. -/
def table : List (Iri × LiteralKind) :=
  [(Xsd.boolean, boolean), (Xsd.int, numeric), (Xsd.integer, numeric), (Xsd.decimal, numeric),
    (Xsd.double, numeric), (Xsd.long, numeric), (Xsd.date, date), (Xsd.dateTime, date)]

/-- The kind of a datatype: that of the table, or text. -/
def ofDatatype (datatype : Iri) : LiteralKind := (table.lookup datatype).getD text

/-- The kind of a literal that may have no datatype. -/
def ofDatatype? : Option Iri → LiteralKind
  | some datatype => ofDatatype datatype
  | none => text

/-- A truth value, blanks around it aside. -/
def boolean? (lexical : List Char) : Option Bool :=
  let word := String.ofList (Text.trim lexical)
  if word = "true" ∨ word = "1" then some true
  else if word = "false" ∨ word = "0" then some false
  else none

/-- A number, blanks around it aside.  The two zeros are one value. -/
def numeric? (lexical : List Char) : Option Binary64 :=
  (Binary64.read? (Text.trim lexical)).map Binary64.unsignedZero

/-- The value that a lexical form denotes in a kind. -/
def value? (kind : LiteralKind) (lexical : String) : Option Value :=
  match kind with
  | boolean => (boolean? lexical.toList).map Value.boolean
  | numeric => (numeric? lexical.toList).map Value.numeric
  | date => (Calendar.millis? lexical.toList).map Value.date
  | text => none

end LiteralKind

/-- The kind of a literal. -/
def Literal.kind (literal : Literal) : LiteralKind := LiteralKind.ofDatatype literal.datatype

/-- The value that a literal denotes, if it is one of a kind with values. -/
def Literal.value? (literal : Literal) : Option Value := literal.kind.value? literal.lexical

/-! ## The record of a statement -/

/-- What stands in the language field of a literal without a language tag. -/
def noLanguage : String := "__nolang__"

/-- The indexed form of a statement. -/
structure Record where
  id : String
  graph : String
  subject : String
  predicate : String
  object : String
  /-- The language of a literal object. -/
  language : Option String
  /-- The value of a literal object. -/
  value : Option Value
  /-- The text of an object without a value. -/
  text : Option String
  deriving DecidableEq, Repr

/-- The name of a record: its four written forms, one blank apart. -/
def recordName (graph subject predicate object : String) : String :=
  subject ++ " " ++ predicate ++ " " ++ object ++ " " ++ graph

/-- The identifier of the record with these written forms. -/
def recordId (graph subject predicate object : String) : String :=
  NameId.ofName (recordName graph subject predicate object)

/-- The value and the text by which a lexical form of a kind is found: just one of them. -/
def LiteralKind.project (kind : LiteralKind) (lexical : String) : Option Value × Option String :=
  match kind.value? lexical with
  | some value => (some value, none)
  | none => (none, some lexical)

/-- The language under which a literal is found. -/
def Literal.languageKey (literal : Literal) : String := literal.language?.getD noLanguage

/-- The fields by which an object is found: language, value and text. -/
def Term.project : Term → Option String × Option Value × Option String
  | .literal l => (some l.languageKey, l.kind.project l.lexical)
  | term => (none, none, some term.encode)

/-- The record of a statement in a graph. -/
def Record.ofTriple (graph : GraphName) (triple : Triple) : Record :=
  let stored := triple.stored
  let (language, value, text) := triple.object.project
  { id := recordId graph.encode stored.subject stored.predicate stored.object
    graph := graph.encode
    subject := stored.subject
    predicate := stored.predicate
    object := stored.object
    language := language
    value := value
    text := text }

/-- The record of a statement with its graph. -/
def Quad.record (quad : Quad) : Record := Record.ofTriple quad.graph quad.triple

/-- The written forms that can be read back. -/
def Record.stored (record : Record) : StoredTriple :=
  ⟨record.subject, record.predicate, record.object⟩

end QuadStore
