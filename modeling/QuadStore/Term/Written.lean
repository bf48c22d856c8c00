import QuadStore.Term
import QuadStore.Text

/-!
# The written form of terms

Terms are stored, compared and shown in one written form, that of N-Triples: `<…>` around an IRI,
`_:` before a blank node's label, and `"…"` around a lexical form, followed by `@` and a language
tag or by `^^` and the datatype.  The default graph, which has no term, is written as a word that
no term's written form can be.

Reading goes through the same forms and says what is wrong with a text that has none of them.  It
accepts more spellings than writing produces, since a character may be escaped that need not be.

## Main definitions

* `Term.encode`, `Resource.encode`, `GraphName.encode`: the written forms.
* `Term.decode`, `Iri.decode`, `Resource.decode`, `GraphName.decode`: their readers.
* `TermError`: what can be wrong with a written form.
* `StoredTriple`: the three written forms of a statement, and `StoredTriple.decode`.
-/

namespace QuadStore

/-- What can be wrong with the written form of a term.  Each fault holds the text that has it. -/
inductive TermError where
  /-- A literal without its closing quote. -/
  | unterminatedLiteral (text : String)
  /-- A backslash at the end. -/
  | danglingEscape (text : String)
  /-- A backslash before a letter that is no escape. -/
  | unknownEscape (letter : Char) (text : String)
  /-- An escape that names no character. -/
  | badUnicodeEscape (sequence : String) (text : String)
  /-- Something other than a language tag or a datatype after a literal. -/
  | invalidLiteralSuffix (suffix : String) (text : String)
  /-- A text that begins like no term. -/
  | unrecognizedTerm (text : String)
  /-- A text that is not enclosed like an IRI. -/
  | expectedIri (text : String)
  /-- A literal where only an IRI or a blank node may stand. -/
  | expectedSubject (text : String)
  deriving DecidableEq, Repr

namespace TermError

/-- The wording of a fault. -/
def message : TermError → String
  | unterminatedLiteral text => "Unterminated literal: " ++ text
  | danglingEscape text => "Dangling escape at the end of '" ++ text ++ "'"
  | unknownEscape letter text =>
    "Unknown escape sequence '\\" ++ String.singleton letter ++ "' in '" ++ text ++ "'"
  | badUnicodeEscape sequence text =>
    "Invalid unicode escape '" ++ sequence ++ "' in '" ++ text ++ "'"
  | invalidLiteralSuffix suffix text =>
    "Invalid literal suffix '" ++ suffix ++ "' in '" ++ text ++ "'"
  | unrecognizedTerm text => "Unrecognized term: '" ++ text ++ "'"
  | expectedIri text => "Expected an IRI but found '" ++ text ++ "'"
  | expectedSubject text => "Expected an IRI or a blank node but found '" ++ text ++ "'"

/-- A fault of an escape, in the text that was to be read. -/
def ofEscape (text : List Char) : Text.EscapeError → TermError
  | .dangling => danglingEscape (String.ofList text)
  | .unknown letter => unknownEscape letter (String.ofList text)
  | .badCodePoint sequence => badUnicodeEscape (String.ofList sequence) (String.ofList text)

end TermError

/-! ## Writing -/

/-- The word that stands for the default graph. -/
def unnamedGraph : String := "__unnamed__"

/-- An IRI between angle brackets. -/
def Iri.written (iri : Iri) : List Char := '<' :: (Text.escape iri.text.toList ++ ['>'])

/-- A blank node's label after its mark. -/
def BlankNode.written (node : BlankNode) : List Char := '_' :: ':' :: node.label.toList

/-- What follows the closing quote of a literal. -/
def Literal.suffix : Literal → List Char
  | .simple _ => []
  | .tagged _ tag => '@' :: tag.toList
  | .typed _ datatype => '^' :: '^' :: datatype.iri.written

/-- A lexical form between quotes, then the annotation. -/
def Literal.written (literal : Literal) : List Char :=
  '"' :: (Text.escape literal.lexical.toList ++ '"' :: literal.suffix)

/-- The characters of a resource's written form. -/
def Resource.written : Resource → List Char
  | .iri i => i.written
  | .blank b => b.written

/-- The characters of a term's written form. -/
def Term.written : Term → List Char
  | .iri i => i.written
  | .blank b => b.written
  | .literal l => l.written

/-- The characters of a graph name's written form. -/
def GraphName.written : GraphName → List Char
  | .default => unnamedGraph.toList
  | .named name => name.written

/-- The written form of an IRI. -/
def Iri.encode (iri : Iri) : String := String.ofList iri.written

/-- The written form of a resource. -/
def Resource.encode (resource : Resource) : String := String.ofList resource.written

/-- The written form of a term. -/
def Term.encode (term : Term) : String := String.ofList term.written

/-- The written form of a graph name. -/
def GraphName.encode (graph : GraphName) : String := String.ofList graph.written

/-! ## Reading -/

/-- The text between the angle brackets, if it is enclosed by them. -/
def enclosed? : List Char → Option (List Char)
  | '<' :: rest => if rest.getLast? = some '>' then some rest.dropLast else none
  | _ => none

/-- The text that a written one stands for, with the faults of escapes. -/
def unescapeText (text : List Char) : Except TermError String :=
  match Text.unescape text with
  | .ok plain => .ok (String.ofList plain)
  | .error fault => .error (.ofEscape text fault)

/-- Reads an IRI. -/
def Iri.read (text : List Char) : Except TermError Iri :=
  match enclosed? text with
  | none => .error (.expectedIri (String.ofList text))
  | some inner => (unescapeText inner).map Iri.mk

/-- The raw lexical form and what follows the closing quote, of a text that begins just after the
opening quote.  A quote after a backslash closes nothing. -/
def splitAtQuote : List Char → Option (List Char × List Char)
  | [] => none
  | ['\\'] => none
  | '\\' :: c :: rest =>
    (splitAtQuote rest).map fun (raw, suffix) => ('\\' :: c :: raw, suffix)
  | '"' :: rest => some ([], rest)
  | c :: rest => (splitAtQuote rest).map fun (raw, suffix) => (c :: raw, suffix)

/-- The literal with this lexical form and this text after its closing quote; `text` is the whole,
for the error. -/
def Literal.annotate (text : List Char) (lexical : String) :
    List Char → Except TermError Literal
  | [] => .ok (.simple lexical)
  | '@' :: c :: tag => .ok (.tagged lexical (String.ofList (c :: tag)))
  | '^' :: '^' :: datatype => (Iri.read datatype).map (Literal.ofDatatype lexical)
  | suffix => .error (.invalidLiteralSuffix (String.ofList suffix) (String.ofList text))

/-- Reads a literal, given the whole text and what follows its opening quote.  A fault of the
lexical form comes before one of the annotation. -/
def Literal.read (text afterQuote : List Char) : Except TermError Literal :=
  match splitAtQuote afterQuote with
  | none => .error (.unterminatedLiteral (String.ofList text))
  | some (raw, suffix) =>
    match unescapeText raw with
    | .error fault => .error fault
    | .ok lexical => Literal.annotate text lexical suffix

/-- Reads a term; its first characters say which kind it is. -/
def Term.read (text : List Char) : Except TermError Term :=
  match text with
  | '<' :: _ => (Iri.read text).map .iri
  | '_' :: ':' :: [] => .error (.unrecognizedTerm (String.ofList text))
  | '_' :: ':' :: label => .ok (.blank ⟨String.ofList label⟩)
  | '"' :: rest => (Literal.read text rest).map .literal
  | _ => .error (.unrecognizedTerm (String.ofList text))

/-- Reads a resource: a term that is no literal. -/
def Resource.read (text : List Char) : Except TermError Resource :=
  match Term.read text with
  | .error fault => .error fault
  | .ok term =>
    match term.toResource? with
    | some resource => .ok resource
    | none => .error (.expectedSubject (String.ofList text))

/-- Reads a graph name. -/
def GraphName.read (text : List Char) : Except TermError GraphName :=
  if text = unnamedGraph.toList then .ok .default else (Resource.read text).map .named

/-- Reads an IRI. -/
def Iri.decode (text : String) : Except TermError Iri := Iri.read text.toList

/-- Reads a term. -/
def Term.decode (text : String) : Except TermError Term := Term.read text.toList

/-- Reads a resource. -/
def Resource.decode (text : String) : Except TermError Resource := Resource.read text.toList

/-- Reads a graph name. -/
def GraphName.decode (text : String) : Except TermError GraphName := GraphName.read text.toList

/-! ## Stored statements -/

/-- The written forms of a statement, as an index keeps them. -/
structure StoredTriple where
  subject : String
  predicate : String
  object : String
  deriving DecidableEq, Repr

/-- The written forms of a statement. -/
def Triple.stored (triple : Triple) : StoredTriple :=
  ⟨triple.subject.encode, triple.predicate.encode, triple.object.encode⟩

/-- Reads a stored statement.  The first fault in the order subject, predicate, object is
reported. -/
def StoredTriple.decode (stored : StoredTriple) : Except TermError Triple := do
  let subject ← Resource.decode stored.subject
  let predicate ← Iri.decode stored.predicate
  let object ← Term.decode stored.object
  return ⟨subject, predicate, object⟩

/-- The line of a statement file that says this statement. -/
def Triple.line (triple : Triple) : String :=
  triple.subject.encode ++ " " ++ triple.predicate.encode ++ " " ++ triple.object.encode ++ " ."

end QuadStore
