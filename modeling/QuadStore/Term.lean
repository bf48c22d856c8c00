/-!
# Terms, triples and quads

The data model of a graph of statements.  A *term* is an IRI, a blank node or a literal; a
*triple* says of a resource (an IRI or a blank node) that it stands in a relation named by an IRI
to a term; a *quad* is a triple that belongs to a graph.

A literal has a lexical form and at most one of a language tag and a datatype.  The datatype
`xsd:string` is the same as no datatype, and the type of a literal makes this so: a `Datatype` is
an IRI other than `xsd:string`, so two literals that mean the same string are equal as values.

## Main definitions

* `Iri`, `BlankNode`, `Literal`, `Resource`, `Term`: the kinds of terms.
* `GraphName`: the default graph, or a graph named by a resource.
* `Triple`, `Quad`: statements.
* `Literal.ofDatatype`: a literal of any datatype, `xsd:string` included.
* `Term.WellFormed`, `GraphName.WellFormed`, `Triple.WellFormed`, `Quad.WellFormed`: no label of a
  blank node and no language tag is empty.
-/

namespace QuadStore

/-- An internationalised resource identifier.  The text is not restricted. -/
structure Iri where
  text : String
  deriving DecidableEq, Repr, Inhabited

/-- A blank node with its label. -/
structure BlankNode where
  label : String
  deriving DecidableEq, Repr, Inhabited

/-! ## Well-known names -/

namespace Xsd

/-- The datatype `xsd:string`, which every literal without an annotation has. -/
def string : Iri := ⟨"http://www.w3.org/2001/XMLSchema#string"⟩
/-- The datatype `xsd:boolean`. -/
def boolean : Iri := ⟨"http://www.w3.org/2001/XMLSchema#boolean"⟩
/-- The datatype `xsd:int`. -/
def int : Iri := ⟨"http://www.w3.org/2001/XMLSchema#int"⟩
/-- The datatype `xsd:integer`. -/
def integer : Iri := ⟨"http://www.w3.org/2001/XMLSchema#integer"⟩
/-- The datatype `xsd:decimal`. -/
def decimal : Iri := ⟨"http://www.w3.org/2001/XMLSchema#decimal"⟩
/-- The datatype `xsd:double`. -/
def double : Iri := ⟨"http://www.w3.org/2001/XMLSchema#double"⟩
/-- The datatype `xsd:long`. -/
def long : Iri := ⟨"http://www.w3.org/2001/XMLSchema#long"⟩
/-- The datatype `xsd:date`. -/
def date : Iri := ⟨"http://www.w3.org/2001/XMLSchema#date"⟩
/-- The datatype `xsd:dateTime`. -/
def dateTime : Iri := ⟨"http://www.w3.org/2001/XMLSchema#dateTime"⟩

end Xsd

namespace Rdf

/-- The relation between a resource and its class. -/
def type : Iri := ⟨"http://www.w3.org/1999/02/22-rdf-syntax-ns#type"⟩

/-- The datatype of every literal with a language tag. -/
def langString : Iri := ⟨"http://www.w3.org/1999/02/22-rdf-syntax-ns#langString"⟩

end Rdf

/-! ## Terms -/

/-- A datatype that has to be written down: any but `xsd:string`. -/
structure Datatype where
  iri : Iri
  ne_string : iri ≠ Xsd.string
  deriving DecidableEq, Repr

/-- A lexical form, plain or with one annotation. -/
inductive Literal where
  /-- A plain string. -/
  | simple (lexical : String)
  /-- A text in a language. -/
  | tagged (lexical : String) (tag : String)
  /-- A lexical form of a datatype. -/
  | typed (lexical : String) (datatype : Datatype)
  deriving DecidableEq, Repr

namespace Literal

/-- The lexical form. -/
def lexical : Literal → String
  | simple lexical => lexical
  | tagged lexical _ => lexical
  | typed lexical _ => lexical

/-- The language tag, if there is one. -/
def language? : Literal → Option String
  | tagged _ tag => some tag
  | _ => none

/-- The datatype, which every literal has: a plain one that of strings, and one with a language
tag that of tagged texts. -/
def datatype : Literal → Iri
  | simple _ => Xsd.string
  | tagged _ _ => Rdf.langString
  | typed _ datatype => datatype.iri

/-- The literal of a datatype, which is plain if the datatype is that of strings. -/
def ofDatatype (lexical : String) (iri : Iri) : Literal :=
  if h : iri = Xsd.string then simple lexical else typed lexical ⟨iri, h⟩

end Literal

/-- What a statement can be about, and what can name a graph. -/
inductive Resource where
  | iri (iri : Iri)
  | blank (node : BlankNode)
  deriving DecidableEq, Repr

/-- A term. -/
inductive Term where
  | iri (iri : Iri)
  | blank (node : BlankNode)
  | literal (literal : Literal)
  deriving DecidableEq, Repr

/-- A resource as a term. -/
def Resource.toTerm : Resource → Term
  | iri i => .iri i
  | blank b => .blank b

/-- The resource that a term is, if it is no literal. -/
def Term.toResource? : Term → Option Resource
  | iri i => some (.iri i)
  | blank b => some (.blank b)
  | literal _ => none

/-- The default graph, or a graph with a name. -/
inductive GraphName where
  | default
  | named (name : Resource)
  deriving DecidableEq, Repr

/-! ## Statements -/

/-- A statement. -/
structure Triple where
  subject : Resource
  predicate : Iri
  object : Term
  deriving DecidableEq, Repr

/-- A statement in a graph. -/
structure Quad where
  triple : Triple
  graph : GraphName
  deriving DecidableEq, Repr

/-! ## Well-formed statements

Any text can be an IRI or a lexical form.  An empty label or language tag, though, would leave
nothing to tell a blank node or a tagged text by, and has no written form that is read back. -/

/-- A blank node has a label. -/
def BlankNode.WellFormed (node : BlankNode) : Prop := node.label ≠ ""

/-- A language tag is not empty. -/
def Literal.WellFormed : Literal → Prop
  | simple _ => True
  | tagged _ tag => tag ≠ ""
  | typed _ _ => True

/-- A resource that is a blank node has a label. -/
def Resource.WellFormed : Resource → Prop
  | iri _ => True
  | blank b => b.WellFormed

/-- The label or the language tag of a term, if it has one, is not empty. -/
def Term.WellFormed : Term → Prop
  | iri _ => True
  | blank b => b.WellFormed
  | literal l => l.WellFormed

/-- The name of a graph is well-formed. -/
def GraphName.WellFormed : GraphName → Prop
  | default => True
  | named name => name.WellFormed

/-- The terms of a statement are well-formed. -/
structure Triple.WellFormed (triple : Triple) : Prop where
  subject : triple.subject.WellFormed
  object : triple.object.WellFormed

/-- A statement and the name of its graph are well-formed. -/
structure Quad.WellFormed (quad : Quad) : Prop where
  triple : quad.triple.WellFormed
  graph : quad.graph.WellFormed

/-! ## Positions -/

/-- The three positions of a statement. -/
inductive Position where
  | subject
  | predicate
  | object
  deriving DecidableEq, Repr

/-- The term at a position of a statement. -/
def Triple.at (triple : Triple) : Position → Term
  | .subject => triple.subject.toTerm
  | .predicate => .iri triple.predicate
  | .object => triple.object

end QuadStore
