import QuadStore.Record
import QuadStore.Pattern

/-!
# Predicates on records

A predicate asks for records by one field: for an exact text, for a value, or for a range of
numbers or instants.  A list of predicates asks for the records that satisfy all of them.

## Main definitions

* `Bound`, `Predicate`.
* `Predicate.holdsOf`, `Record.meets`: whether a record is as predicates ask.
* `Predicate.satisfiedBy`, `Record.satisfies`: whether the index finds it by them.
* `Comparison.bounds`: the range of the values that stand in a relation to a given one.
-/

namespace QuadStore

/-- An end of a range. -/
inductive Bound (α : Type) where
  | unbounded
  | included (value : α)
  | excluded (value : α)
  deriving DecidableEq, Repr

namespace Bound

variable {α : Type} [LE α] [LT α] [DecidableLE α] [DecidableLT α]

/-- Whether a value lies above a lower end. -/
def below (lower : Bound α) (value : α) : Bool :=
  match lower with
  | unbounded => true
  | included low => decide (low ≤ value)
  | excluded low => decide (low < value)

/-- Whether a value lies below an upper end. -/
def above (upper : Bound α) (value : α) : Bool :=
  match upper with
  | unbounded => true
  | included high => decide (value ≤ high)
  | excluded high => decide (value < high)

end Bound

/-- The two ends of the range of the values that stand in this relation to a value. -/
def Comparison.bounds {α : Type} (comparison : Comparison) (value : α) : Bound α × Bound α :=
  match comparison with
  | .equal => (.included value, .included value)
  | .less => (.unbounded, .excluded value)
  | .lessOrEqual => (.unbounded, .included value)
  | .greater => (.excluded value, .unbounded)
  | .greaterOrEqual => (.included value, .unbounded)

/-- A condition on one field of a record. -/
inductive Predicate where
  /-- The field holds exactly this text. -/
  | text (field : Field) (value : String)
  /-- The object has this truth value. -/
  | boolean (value : Bool)
  /-- The object is this number. -/
  | numeric (value : Binary64)
  /-- The object is this instant. -/
  | date (millis : Int)
  /-- The object is a number in this range. -/
  | numericRange (lower upper : Bound Binary64)
  /-- The object is an instant in this range. -/
  | dateRange (lower upper : Bound Int)
  deriving DecidableEq, Repr

/-- The predicate that asks for a value. -/
def Predicate.ofValue : Value → Predicate
  | .boolean value => .boolean value
  | .numeric value => .numeric value
  | .date millis => .date millis

namespace Record

/-- The text in a field of a record.  A field of another type holds none. -/
def textOf (record : Record) : Field → Option String
  | .id => some record.id
  | .graph => some record.graph
  | .subject => some record.subject
  | .predicate => some record.predicate
  | .object => some record.object
  | .objectLanguage => record.language
  | .objectText => record.text
  | .objectBoolean | .objectNumeric | .objectDate => none

end Record

/-- The longest text, in bytes, by which a field can be searched. -/
def longestKey : Nat := 65530

/-- Whether a text is short enough to be found. -/
def isKey (text : String) : Bool := decide (text.utf8ByteSize ≤ longestKey)

/-- Whether a record is as a predicate asks.  A range holds only of records that have a value of its
kind. -/
def Predicate.holdsOf (record : Record) : Predicate → Bool
  | .text field value => record.textOf field == some value
  | .boolean value => record.value == some (.boolean value)
  | .numeric value => record.value == some (.numeric value)
  | .date millis => record.value == some (.date millis)
  | .numericRange lower upper =>
    match record.value with
    | some (.numeric value) => lower.below value && upper.above value
    | _ => false
  | .dateRange lower upper =>
    match record.value with
    | some (.date millis) => lower.below millis && upper.above millis
    | _ => false

/-- Whether the index can search for what a predicate asks. -/
def Predicate.isSearchable : Predicate → Bool
  | .text _ value => isKey value
  | _ => true

/-- Whether the index finds a record by a predicate: a text that is too long is kept but never
found. -/
def Predicate.satisfiedBy (record : Record) (predicate : Predicate) : Bool :=
  predicate.isSearchable && predicate.holdsOf record

/-- Whether a record is as every predicate of a list asks. -/
def Record.meets (record : Record) (filters : List Predicate) : Bool :=
  filters.all (·.holdsOf record)

/-- Whether the index finds a record by a list of predicates. -/
def Record.satisfies (record : Record) (filters : List Predicate) : Bool :=
  filters.all (·.satisfiedBy record)

end QuadStore
