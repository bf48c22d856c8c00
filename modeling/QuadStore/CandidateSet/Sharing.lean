import QuadStore.Binding
import QuadStore.Page

/-!
# Candidate sets and what they share

The records that a pattern may match, under the bindings found so far.  A leaf holds the records
found for one parent binding; a composite unites leaves of one pattern, each with its own parent,
and keeps the number of their records.

## Main definitions

* `Match`: a record with the binding under which it was found.
* `Leaf`, `Composite`, and their `candidates`.
* `CandidateSet`: either of them.
* `SharedLeaf`, `SharedLeaf.sharesRecords`: leaves that may be on one list.
* `ListSupply`: the names of lists that were given out.
-/

namespace QuadStore

/-! ## Leaves and composites -/

/-- A record that may match, with the binding under which it was found. -/
structure Match where
  record : RecordId
  parent : Option Handle
  deriving DecidableEq, Repr

/-- The records found for a pattern under one binding. -/
structure Leaf where
  pattern : TriplePattern
  records : List RecordId
  parent : Option Handle
  deriving DecidableEq, Repr

namespace Leaf

/-- The number of records. -/
def size (leaf : Leaf) : Nat := leaf.records.length

/-- The same records under another binding. -/
def withParent (leaf : Leaf) (parent : Option Handle) : Leaf := { leaf with parent }

/-- The leaf with one more record. -/
def insert (leaf : Leaf) (record : RecordId) : Leaf :=
  { leaf with records := leaf.records ++ [record] }

/-- Each record with the leaf's parent. -/
def candidates (leaf : Leaf) : List Match := leaf.records.map (⟨·, leaf.parent⟩)

end Leaf

/-- Leaves of one pattern. -/
structure Composite where
  pattern : TriplePattern
  members : List Leaf
  size : Nat
  deriving DecidableEq, Repr

namespace Composite

/-- The composite of no leaves. -/
def empty (pattern : TriplePattern) : Composite := ⟨pattern, [], 0⟩

/-- The composite with one more leaf; one without records adds nothing. -/
def add (composite : Composite) (leaf : Leaf) : Composite :=
  if leaf.records.isEmpty then composite
  else { composite with
    members := composite.members ++ [leaf]
    size := composite.size + leaf.records.length }

/-- The matches of the leaves, in the order in which they were added. -/
def candidates (composite : Composite) : List Match := composite.members.flatMap Leaf.candidates

end Composite

/-- The composite of two leaves. -/
def Leaf.union (left right : Leaf) : Composite := ((Composite.empty left.pattern).add left).add right

/-- A set of candidates. -/
inductive CandidateSet where
  | leaf (leaf : Leaf)
  | composite (composite : Composite)
  deriving Repr

namespace CandidateSet

/-- The number of candidates. -/
def size : CandidateSet → Nat
  | leaf l => l.size
  | composite c => c.size

/-- The pattern that the candidates may match. -/
def pattern : CandidateSet → TriplePattern
  | leaf l => l.pattern
  | composite c => c.pattern

/-- The binding of a leaf; a composite has none of its own. -/
def parent? : CandidateSet → Option Handle
  | leaf l => l.parent
  | composite _ => none

/-- The candidates in order. -/
def candidates : CandidateSet → List Match
  | leaf l => l.candidates
  | composite c => c.candidates

end CandidateSet

/-! ## Shared record lists

Leaves that differ only in their parent share one list of records.  A leaf that gets a record of
its own leaves the list it shared; the others go on sharing it.  Which leaves share is recorded by
the name of their list: making a leaf and inserting into one take a fresh name, and a copy or a
change of parent keeps it.
-/

/-- How many list names were given out. -/
structure ListSupply where
  used : Nat
  deriving DecidableEq, Repr

/-- A leaf with the name of its record list. -/
structure SharedLeaf where
  leaf : Leaf
  list : Nat
  deriving DecidableEq, Repr

namespace SharedLeaf

/-- A leaf with a list of its own. -/
def make (supply : ListSupply) (leaf : Leaf) : SharedLeaf × ListSupply :=
  (⟨leaf, supply.used⟩, ⟨supply.used + 1⟩)

/-- The same list under another binding. -/
def withParent (shared : SharedLeaf) (parent : Option Handle) : SharedLeaf :=
  { shared with leaf := shared.leaf.withParent parent }

/-- One more record, in a list of the leaf's own. -/
def insert (supply : ListSupply) (shared : SharedLeaf) (record : RecordId) :
    SharedLeaf × ListSupply :=
  make supply (shared.leaf.insert record)

/-- Whether two leaves have the same list. -/
def sharesRecords (a b : SharedLeaf) : Bool := a.list == b.list

end SharedLeaf

end QuadStore
