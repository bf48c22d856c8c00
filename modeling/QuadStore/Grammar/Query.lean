import QuadStore.Grammar.Token
import QuadStore.Pattern

/-!
# The text of queries and statements

A query is written as patterns with full stops between them, in braces or without, and a full stop
may follow the last.  A pattern is three slots; besides variables and terms a slot may be a number,
a truth value, or the word `a` for the relation of a thing to its class.

A line of a statement file is a statement or nothing.  A statement is three terms, optionally the
name of its graph, and a full stop.

Reading has two steps: first the whole text is taken apart into rows of tokens, which fails with one
fault for all texts that have not the form; then the tokens of each row are taken one by one and read.

## Main definitions

* `ParseError`: what can be wrong with a text.
* `Grammar.readQuery`, `Grammar.readTerm`, `Grammar.readStatement`: the two steps, with the faults of
  both.
* `parseQuery`: the patterns of a text.
* `parseTerm`: a single term in the same notation.
* `parseStatement`: the statement of a line, if it has one.
-/

namespace QuadStore

/-! ## Queries

That a row is too short is a fault of its own (`Grammar.ReadFault.empty`), though the first step makes
no such row.
-/

/-- What can be wrong with the text of a query, a term or a statement. -/
inductive ParseError where
  /-- The text has not the form that is asked for. -/
  | notInGrammar
  /-- A term of the text cannot be read. -/
  | term (fault : TermError)
  /-- A variable where a term is asked for. -/
  | unexpectedVariable (v : Variable)
  deriving DecidableEq, Repr

/-- The wording of a fault. -/
def ParseError.message : ParseError → String
  | notInGrammar => "Syntax error"
  | term fault => "Invalid term: " ++ fault.message
  | unexpectedVariable v => "Expected a concrete term but found variable '" ++ v.display ++ "'"

namespace Grammar

/-- The token of a slot, by its kind. -/
inductive SlotToken where
  | var (text : List Char)
  /-- An IRI, a blank node or a literal in its written form. -/
  | written (text : List Char)
  | number (text : List Char)
  | truth (text : List Char)
  /-- The word for the relation of a thing to its class. -/
  | isA
  deriving DecidableEq, Repr

/-- An IRI, a blank node or a literal. -/
def term? (text : List Char) : Scanned := iri? text <|> blankNode? text <|> literal? text

/-- A scanned token under a kind. -/
def as (kind : List Char → SlotToken) (scanned : Scanned) : Option (SlotToken × List Char) :=
  scanned.map fun (text, rest) => (kind text, rest)

/-- A slot.  No two kinds of token can begin alike, except that a word is tried before another. -/
def slot? (text : List Char) : Option (SlotToken × List Char) :=
  as .var (var? text) <|> as .written (term? text) <|> as .number (number? text) <|>
    as .truth (word? ['t', 'r', 'u', 'e'] text) <|>
    as .truth (word? ['f', 'a', 'l', 's', 'e'] text) <|>
    as (fun _ => .isA) (word? ['a'] text)

/-- The row of a pattern, three slots. -/
def pattern? (text : List Char) : Option (List SlotToken × List Char) := do
  let (subject, rest) ← slot? text
  let (predicate, rest) ← slot? (skip rest)
  let (object, rest) ← slot? (skip rest)
  return ([subject, predicate, object], rest)

/-- A full stop and a pattern. -/
def nextPattern? (text : List Char) : Option (List SlotToken × List Char) := do
  pattern? (skip (← sign? '.' (skip text)))

/-- As many further patterns as there are, and the text after them.  At most `limit` are looked
for; a text has fewer patterns than characters. -/
def morePatterns : Nat → List Char → List (List SlotToken) × List Char
  | 0, text => ([], text)
  | limit + 1, text =>
    match nextPattern? text with
    | none => ([], text)
    | some (pattern, rest) =>
      let (patterns, rest) := morePatterns limit rest
      (pattern :: patterns, rest)

/-- The patterns at the front of a text, possibly none, and a last full stop. -/
def patterns (text : List Char) : List (List SlotToken) × List Char :=
  match pattern? text with
  | none => ([], text)
  | some (first, rest) =>
    let (more, rest) := morePatterns rest.length rest
    (first :: more, (sign? '.' (skip rest)).getD rest)

/-- Patterns in braces. -/
def braced? (text : List Char) : Option (List (List SlotToken) × List Char) := do
  let rest ← sign? '\x7b' text
  let (found, rest) := patterns (skip rest)
  return (found, ← sign? '\x7d' (skip rest))

/-- The patterns of a whole text. -/
def query? (text : List Char) : Option (List (List SlotToken)) :=
  let text := skip text
  let (found, rest) := (braced? text).getD (patterns text)
  if (skip rest).isEmpty then some found else none

/-- The row of a whole text that is one slot. -/
def single? (text : List Char) : Option (List SlotToken) := do
  let (slot, rest) ← slot? (skip text)
  if (skip rest).isEmpty then some [slot] else none

/-! ### Reading tokens -/

/-- What can go wrong with a text that is taken apart and read. -/
inductive ReadFault where
  /-- A row has fewer tokens than are to be taken from it. -/
  | empty (text : String)
  /-- Something is wrong with the text. -/
  | invalid (fault : ParseError)
  deriving DecidableEq, Repr

/-- The wording of a fault. -/
def ReadFault.message : ReadFault → String
  | empty text => "Parse error: empty parse result for '" ++ text ++ "'"
  | invalid fault => fault.message

/-- The fault of a text.  A text with too short a row would be one of another form. -/
def ReadFault.toParseError : ReadFault → ParseError
  | empty _ => .notInGrammar
  | invalid fault => fault

/-- The next token of a row and those behind it; `text` is the whole, for the fault. -/
def next {α : Type} (text : List Char) : List α → Except ReadFault (α × List α)
  | [] => .error (.empty (String.ofList text))
  | token :: row => .ok (token, row)

/-- A term of a text that was read, or the fault of the text. -/
def readAs {α : Type} (read : Except TermError α) : Except ReadFault α :=
  read.mapError fun fault => .invalid (.term fault)

/-- A literal of a number: a decimal if it has a point, and an integer otherwise. -/
def numberTerm (text : List Char) : Term :=
  .literal (.ofDatatype (String.ofList text) (if '.' ∈ text then Xsd.decimal else Xsd.integer))

/-- The slot that a token stands for. -/
def SlotToken.read : SlotToken → Except ReadFault Slot
  | var text => .ok (.var ⟨String.ofList (text.drop 1)⟩)
  | written text => (readAs (Term.read text)).map Slot.term
  | number text => .ok (.term (numberTerm text))
  | truth text => .ok (.term (.literal (.ofDatatype (String.ofList text) Xsd.boolean)))
  | isA => .ok (.term (.iri Rdf.type))

/-- The pattern of a row.  All three tokens are taken before the first is read. -/
def readPattern (text : List Char) (row : List SlotToken) : Except ReadFault TriplePattern := do
  let (subject, row) ← next text row
  let (predicate, row) ← next text row
  let (object, _) ← next text row
  return ⟨← subject.read, ← predicate.read, ← object.read⟩

/-- The patterns of a query's text. -/
def readQuery (text : List Char) : Except ReadFault (List TriplePattern) :=
  match query? text with
  | none => .error (.invalid .notInGrammar)
  | some rows => rows.mapM (readPattern text)

/-- The term of a slot that is not to be a variable. -/
def concrete : Slot → Except ReadFault Term
  | .term term => .ok term
  | .var v => .error (.invalid (.unexpectedVariable v))

/-- The term that a text is. -/
def readTerm (text : List Char) : Except ReadFault Term :=
  match single? text with
  | none => .error (.invalid .notInGrammar)
  | some row => do
    let (token, _) ← next text row
    concrete (← token.read)

end Grammar

/-- The patterns of a query's text. -/
def parseQuery (text : List Char) : Except ParseError (List TriplePattern) :=
  (Grammar.readQuery text).mapError Grammar.ReadFault.toParseError

/-- The term that a text is. -/
def parseTerm (text : List Char) : Except ParseError Term :=
  (Grammar.readTerm text).mapError Grammar.ReadFault.toParseError

/-! ## Statements

Any term may stand anywhere as far as the form goes; that the subject is no literal, and the predicate an
IRI, is found out when the terms are read.
-/

namespace Grammar

/-- The name of a graph: an IRI or a blank node. -/
def graphLabel? (text : List Char) : Scanned := iri? text <|> blankNode? text

/-- The row of a statement, the written forms of its terms and the name of its graph if it has one,
before a full stop. -/
def statement? (text : List Char) : Option (List (List Char) × List Char) := do
  let (subject, rest) ← term? text
  let (predicate, rest) ← term? (skip rest)
  let (object, rest) ← term? (skip rest)
  let label := graphLabel? (skip rest)
  let rest := (label.map Prod.snd).getD rest
  let rest ← sign? '.' (skip rest)
  return (subject :: predicate :: object :: (label.map Prod.fst).toList, rest)

/-- The statement of a whole line, which may have none; or nothing if the line has another form. -/
def line? (text : List Char) : Option (Option (List (List Char))) :=
  let text := skip text
  match statement? text with
  | some (row, rest) => if (skip rest).isEmpty then some (some row) else none
  | none => if text.isEmpty then some none else none

/-- The graph that is named behind the terms of a row; without a name it is the default one. -/
def readGraph : List (List Char) → Except ReadFault GraphName
  | [] => .ok .default
  | label :: _ => readAs (GraphName.read label)

/-- The statement of a row.  Each token is read before the next one is taken. -/
def readQuad (text : List Char) (row : List (List Char)) : Except ReadFault Quad := do
  let (token, row) ← next text row
  let subject ← readAs (Resource.read token)
  let (token, row) ← next text row
  let predicate ← readAs (Iri.read token)
  let (token, row) ← next text row
  let object ← readAs (Term.read token)
  let graph ← readGraph row
  return ⟨⟨subject, predicate, object⟩, graph⟩

/-- The statement of a line, if it has one. -/
def readStatement (text : List Char) : Except ReadFault (Option Quad) :=
  match line? text with
  | none => .error (.invalid .notInGrammar)
  | some none => .ok none
  | some (some row) => (readQuad text row).map some

end Grammar

/-- The statement of a line, if it has one. -/
def parseStatement (text : List Char) : Except ParseError (Option Quad) :=
  (Grammar.readStatement text).mapError Grammar.ReadFault.toParseError

end QuadStore
