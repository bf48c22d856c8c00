import QuadStore.Predicate

/-!
# From terms to predicates

How the terms of a pattern and the constraints on its variables become predicates on records.

A term written in a pattern is looked up as statements' terms are kept: at the object a literal by
its language and its value, anything else by its written form.  So a number is found in any
spelling.  A term that a variable is already bound to is looked up by its written form at every
position, since a join compares terms and not values.

Building may fail, when a literal denotes no value of its kind or a comparison has no meaning; and
it remembers for which languages it was asked.

## Main definitions

* `FilterError`: why predicates cannot be built.
* `LanguageCache`: the languages asked for, each with its predicate.
* `Building`: computations that build predicates.
* `objectPredicates`, `positionPredicates`, `constraintPredicates`, `patternPredicates`.
-/

namespace QuadStore

/-- Why a term cannot be turned into predicates. -/
inductive FilterError where
  /-- A lexical form that denotes no value of its kind. -/
  | invalidValue (kind : LiteralKind) (lexical : String)
  /-- An order asked of literals of a kind that has none. -/
  | unorderedLiteral (kind : LiteralKind) (comparison : Comparison)
  /-- An order asked of terms, or at a position, without values. -/
  | unorderedResource (comparison : Comparison)
  deriving DecidableEq, Repr

/-- The wording of a fault. -/
def FilterError.message : FilterError → String
  | invalidValue kind lexical => "Invalid " ++ kind.name ++ " value '" ++ lexical ++ "' in filter"
  | unorderedLiteral kind comparison =>
    "A " ++ kind.name ++ " value cannot be compared with '" ++ comparison.symbol ++ "'"
  | unorderedResource comparison =>
    "A resource value cannot be compared with '" ++ comparison.symbol ++ "'"

/-! ## Values -/

namespace LiteralKind

/-- The predicate that asks for the literals of a kind equal to one with this lexical form. -/
def equality (kind : LiteralKind) (lexical : String) : Except FilterError Predicate :=
  match kind, kind.value? lexical with
  | .text, _ => .ok (.text .objectText lexical)
  | _, some value => .ok (.ofValue value)
  | kind, none => .error (.invalidValue kind lexical)

/-- The predicate that asks for the literals of a kind in a relation to one with this lexical
form.  Numbers and instants have an order; truth values and texts can only be equal. -/
def comparison (kind : LiteralKind) (relation : Comparison) (lexical : String) :
    Except FilterError Predicate :=
  if relation = .equal then kind.equality lexical
  else match kind, kind.value? lexical with
    | _, some (.numeric value) =>
      .ok (.numericRange (relation.bounds value).1 (relation.bounds value).2)
    | _, some (.date millis) =>
      .ok (.dateRange (relation.bounds millis).1 (relation.bounds millis).2)
    | .numeric, _ => .error (.invalidValue .numeric lexical)
    | .date, _ => .error (.invalidValue .date lexical)
    | kind, _ => .error (.unorderedLiteral kind relation)

end LiteralKind

/-! ## Languages -/

/-- The languages for which predicates have been asked, each once, with the predicate. -/
structure LanguageCache where
  entries : List (String × Predicate)
  deriving Repr

namespace LanguageCache

/-- The cache before anything was asked. -/
def empty : LanguageCache := ⟨[]⟩

/-- The language under which a tag is looked up: a missing or empty one is no language. -/
def key : Option String → String
  | some tag => if tag.isEmpty then noLanguage else tag
  | none => noLanguage

/-- The predicate that asks for a language. -/
def predicateOf (key : String) : Predicate := .text .objectLanguage key

/-- The cached predicate of a language. -/
def find? (cache : LanguageCache) (key : String) : Option Predicate := cache.entries.lookup key

/-- The cache with an entry for a language; an entry that is there already stays as it is. -/
def insertNew (cache : LanguageCache) (key : String) (predicate : Predicate) : LanguageCache :=
  match cache.find? key with
  | some _ => cache
  | none => ⟨cache.entries ++ [(key, predicate)]⟩

/-- The predicate of a tag's language, and the cache afterwards. -/
def predicate (cache : LanguageCache) (tag : Option String) : Predicate × LanguageCache :=
  match cache.find? (key tag) with
  | some cached => (cached, cache)
  | none =>
    let fresh := predicateOf (key tag)
    (fresh, cache.insertNew (key tag) fresh)

/-- The number of languages asked for. -/
def size (cache : LanguageCache) : Nat := cache.entries.length

end LanguageCache

/-- A computation that builds predicates: it may fail, and what it asks of the cache stays asked
even then. -/
abbrev Building := ExceptT FilterError (StateM LanguageCache)

/-- The predicate of a tag's language. -/
def languagePredicate (tag : Option String) : Building Predicate :=
  fun cache => let (predicate, cache) := cache.predicate tag; (.ok predicate, cache)

/-! ## Terms at positions -/

/-- The field of a position's written form. -/
def Position.field : Position → Field
  | .subject => .subject
  | .predicate => .predicate
  | .object => .object

/-- The predicate that asks for exactly this term at a position. -/
def termPredicate (position : Position) (term : Term) : Predicate :=
  .text position.field term.encode

/-- The predicates that ask for an object: a literal by language and value, another term by its
written form. -/
def objectPredicates : Term → Building (List Predicate)
  | .literal literal => do
    let language ← languagePredicate literal.language?
    let value ← liftM (literal.kind.equality literal.lexical)
    return [language, value]
  | term => return [termPredicate .object term]

/-- The predicates that ask for a term at a position. -/
def positionPredicates (position : Position) (term : Term) : Building (List Predicate) :=
  match position with
  | .object => objectPredicates term
  | position => return [termPredicate position term]

/-- The predicates that a constraint puts on the term at a position.  Equality is asked as of a
term in a pattern; an order is asked of literals at the object only, in any language. -/
def constraintPredicates (position : Position) (constraint : Constraint) :
    Building (List Predicate) :=
  match constraint.comparison, position, constraint.value with
  | .equal, position, value => positionPredicates position value
  | comparison, .object, .literal literal => do
    return [← liftM (literal.kind.comparison comparison literal.lexical)]
  | comparison, _, _ => throw (.unorderedResource comparison)

/-! ## Patterns -/

/-- The predicate that asks for the statements of a graph. -/
def graphPredicate (graph : GraphName) : Predicate := .text .graph graph.encode

/-- The predicates of one slot: those of its term, or the exact term its variable is bound to. -/
def slotPredicates (lookup : Variable → Option Term) (position : Position) :
    Slot → Building (List Predicate)
  | .term term => positionPredicates position term
  | .var v => return ((lookup v).map (termPredicate position)).toList

/-- The predicates of a pattern in a graph, under a binding of some variables: first the graph's,
then those of each slot in turn. -/
def patternPredicates (graph : GraphName) (pattern : TriplePattern)
    (lookup : Variable → Option Term) : Building (List Predicate) := do
  let bySlot ← pattern.slots.mapM fun (position, slot) => slotPredicates lookup position slot
  return graphPredicate graph :: bySlot.flatten

end QuadStore
