import QuadStore.Term.Written

/-!
# Triple patterns and value constraints

A pattern has a *slot* at each position of a statement: a term that must stand there, or a
variable.  Any term may fill any slot, so a pattern can ask for something that no statement has,
such as a literal as its subject.  A value constraint relates a variable to a term by one of five
comparisons.

## Main definitions

* `Variable`, `Slot`, `TriplePattern`.
* `TriplePattern.slots`: the slots with their positions, in the order of a statement.
* `TriplePattern.vars`: the distinct variables in that order.
* `TriplePattern.display`: the text of a pattern.
* `Comparison`, `Comparison.symbol`, `Comparison.split`.
* `Constraint`, `Constraint.display`.
-/

namespace QuadStore

/-! ## Patterns -/

/-- A variable, known by its name alone. -/
structure Variable where
  name : String
  deriving DecidableEq, Repr

/-- A variable is shown with a question mark. -/
def Variable.display (v : Variable) : String := "?" ++ v.name

/-- What may stand at a position of a pattern. -/
inductive Slot where
  | term (term : Term)
  | var (v : Variable)
  deriving DecidableEq, Repr

namespace Slot

/-- The variable of a slot, if it holds one. -/
def var? : Slot → Option Variable
  | var v => some v
  | term _ => none

/-- A slot's term in its written form, or its variable. -/
def display : Slot → String
  | term t => t.encode
  | var v => v.display

end Slot

/-- A statement some of whose terms may be open. -/
structure TriplePattern where
  subject : Slot
  predicate : Slot
  object : Slot
  deriving DecidableEq, Repr

namespace TriplePattern

/-- The slots in the order subject, predicate, object. -/
def slots (pattern : TriplePattern) : List (Position × Slot) :=
  [(.subject, pattern.subject), (.predicate, pattern.predicate), (.object, pattern.object)]

/-- The variables of the slots, with repetitions. -/
def occurrences (pattern : TriplePattern) : List Variable :=
  pattern.slots.filterMap fun (_, slot) => slot.var?

/-- The distinct variables, each where it occurs first. -/
def vars (pattern : TriplePattern) : List Variable :=
  pattern.occurrences.foldl (fun seen v => if v ∈ seen then seen else seen ++ [v]) []

/-- The slots, one blank apart. -/
def display (pattern : TriplePattern) : String :=
  pattern.subject.display ++ " " ++ pattern.predicate.display ++ " " ++ pattern.object.display

/-- The pattern that every statement matches: three different variables. -/
def any : TriplePattern := ⟨.var ⟨"s"⟩, .var ⟨"p"⟩, .var ⟨"o"⟩⟩

end TriplePattern

/-- The pattern without variables that a statement is. -/
def Triple.toPattern (triple : Triple) : TriplePattern :=
  ⟨.term triple.subject.toTerm, .term (.iri triple.predicate), .term triple.object⟩

/-! ## Comparisons and constraints

The text of a constraint is the variable, the sign of the comparison and the term.  A text is taken apart
at the first character that any sign begins with, and there the longest sign wins.  So a term that holds
such characters itself, as every IRI does, may follow a sign.
-/

/-- How a value is to stand to a given one. -/
inductive Comparison where
  | equal
  | less
  | lessOrEqual
  | greater
  | greaterOrEqual
  deriving DecidableEq, Repr

namespace Comparison

/-- The sign of a comparison. -/
def symbol : Comparison → String
  | equal => "="
  | less => "<"
  | lessOrEqual => "<="
  | greater => ">"
  | greaterOrEqual => ">="

/-- The comparison whose sign begins a text, and what follows it.  The longer signs come first. -/
def ofLeading? : List Char → Option (Comparison × List Char)
  | '<' :: '=' :: rest => some (lessOrEqual, rest)
  | '>' :: '=' :: rest => some (greaterOrEqual, rest)
  | '<' :: rest => some (less, rest)
  | '>' :: rest => some (greater, rest)
  | '=' :: rest => some (equal, rest)
  | _ => none

/-- The comparison that has this sign, and no more. -/
def ofSymbol? (text : String) : Option Comparison :=
  match ofLeading? text.toList with
  | some (comparison, []) => some comparison
  | _ => none

/-- The text before the first sign, the comparison, and the text after the sign. -/
def split : List Char → Option (List Char × Comparison × List Char)
  | [] => none
  | c :: rest =>
    match ofLeading? (c :: rest) with
    | some (comparison, after) => some ([], comparison, after)
    | none => (split rest).map fun (before, found) => (c :: before, found)

end Comparison

/-- A relation that a variable's value must stand in to a term. -/
structure Constraint where
  var : Variable
  comparison : Comparison
  value : Term
  deriving DecidableEq, Repr

/-- The text of a constraint. -/
def Constraint.display (constraint : Constraint) : String :=
  constraint.var.display ++ " " ++ constraint.comparison.symbol ++ " " ++
    constraint.value.encode

end QuadStore
