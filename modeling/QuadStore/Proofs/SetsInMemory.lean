import Mathlib
import QuadStore.Proofs.RecordMemory

/-!
# Candidate sets in memory

Leaves whose records are lists in memory, composites of such leaves, and what can be done with both
(`SetStep`).  Every set that is made gets a number as its name.  A set that is united with another, or
added to one, is moved, and its name stands for nothing afterwards; a name that stands for nothing holds
no list.

A `Pool` is memory with the sets that are kept in it.  Steps take it from one state to the next
(`Pool.step`), each with a place that is free, and which place that is nobody chooses (`Pool.MadeBy`).
-/

namespace QuadStore

/-! ## Sets that are kept and moved -/

/-- What stands under a name: a leaf, a composite, or nothing any more. -/
inductive Shelved (α β : Type) where
  | gone
  | leaf (leaf : α)
  | composite (composite : β)

namespace Shelved

variable {α β α' β' : Type}

def leaf? : Shelved α β → Option α
  | leaf a => some a
  | _ => none

def composite? : Shelved α β → Option β
  | composite b => some b
  | _ => none

def map (f : α → α') (g : β → β') : Shelved α β → Shelved α' β'
  | gone => .gone
  | leaf a => .leaf (f a)
  | composite b => .composite (g b)

/-- The leaf with a name.  Names are numbers, given in the order in which sets are made. -/
def leafNamed (sets : List (Shelved α β)) (name : Nat) : Option α := sets[name]?.bind leaf?

/-- The composite with a name. -/
def compositeNamed (sets : List (Shelved α β)) (name : Nat) : Option β := sets[name]?.bind composite?

lemma leafNamed_eq_some {sets : List (Shelved α β)} {name : Nat} {a : α}
    (h : leafNamed sets name = some a) : sets[name]? = some (.leaf a) := by
  obtain ⟨set, hset, hleaf⟩ := Option.bind_eq_some_iff.mp h
  cases set with
  | leaf b => rw [hset, Option.some.inj hleaf]
  | gone | composite => cases hleaf

lemma compositeNamed_eq_some {sets : List (Shelved α β)} {name : Nat} {b : β}
    (h : compositeNamed sets name = some b) : sets[name]? = some (.composite b) := by
  obtain ⟨set, hset, hcomposite⟩ := Option.bind_eq_some_iff.mp h
  cases set with
  | composite c => rw [hset, Option.some.inj hcomposite]
  | gone | leaf => cases hcomposite

end Shelved

/-- Where a leaf is: it stands under a name itself, or it is a member of the composite with that name. -/
structure LeafPlace where
  name : Nat
  index : Nat

/-- What can be done with sets.  Those that are united or added are moved: their names stand for
nothing afterwards.  A set that is made gets the next name. -/
inductive SetStep where
  | leaf (records : List RecordId) (parent : Option Handle)
  | withParent (source : LeafPlace) (parent : Option Handle)
  | cloneLeaf (source : LeafPlace)
  | cloneComposite (name : Nat)
  | insert (name : Nat) (record : RecordId)
  | union (left right : Nat)
  | composite
  | add (name member : Nat)
  | drop (name : Nat)

/-! ## Sets in memory -/

/-- A leaf whose records are a list in memory. -/
structure HeldLeaf where
  pattern : TriplePattern
  list : Address
  parent : Option Handle

namespace HeldLeaf

/-- The leaf as it is now. -/
def read (records : Address → List RecordId) (leaf : HeldLeaf) : Leaf :=
  ⟨leaf.pattern, records leaf.list, leaf.parent⟩

/-- Whether two leaves hold the same list. -/
def sharesRecords (a b : HeldLeaf) : Bool := a.list == b.list

end HeldLeaf

/-- A composite of such leaves. -/
structure HeldComposite where
  pattern : TriplePattern
  members : List HeldLeaf
  size : Nat

namespace HeldComposite

def empty (pattern : TriplePattern) : HeldComposite := ⟨pattern, [], 0⟩

/-- The composite as it is now. -/
def read (records : Address → List RecordId) (composite : HeldComposite) : Composite :=
  ⟨composite.pattern, composite.members.map (HeldLeaf.read records), composite.size⟩

/-- The composite with one leaf more, which has to be of its pattern.  A leaf without records is
dropped. -/
def add (memory : RecordMemory) (composite : HeldComposite) (leaf : HeldLeaf) :
    Option (HeldComposite × RecordMemory) :=
  if composite.pattern ≠ leaf.pattern then none
  else if (memory.records leaf.list).isEmpty then some (composite, memory.release leaf.list)
  else some ({ composite with
    members := composite.members ++ [leaf]
    size := composite.size + (memory.records leaf.list).length }, memory)

/-- **A leaf of its pattern is added** to a composite as to one by itself, and memory counts right after
it: the leaf is a member now, or it is dropped and gives its list up. -/
theorem add_spec {memory : RecordMemory} {composite : HeldComposite} {leaf : HeldLeaf}
    {others : List Address} (hpattern : composite.pattern = leaf.pattern)
    (hcounts : memory.Counts (leaf.list :: (composite.members.map HeldLeaf.list ++ others))) :
    ∃ composite' memory', composite.add memory leaf = some (composite', memory') ∧
      memory'.records = memory.records ∧
      memory'.Counts (composite'.members.map HeldLeaf.list ++ others) ∧
      composite'.members = composite.members ++
        [leaf].filter (fun leaf => !(memory.records leaf.list).isEmpty) ∧
      composite'.read memory.records =
        (composite.read memory.records).add (leaf.read memory.records) := by
  unfold add
  rw [if_neg (not_not_intro hpattern)]
  by_cases hempty : (memory.records leaf.list).isEmpty
  · have hnone : [leaf].filter (fun leaf => !(memory.records leaf.list).isEmpty) = [] :=
      List.filter_cons_of_neg (by simpa using hempty)
    rw [if_pos hempty, hnone]
    exact ⟨composite, memory.release leaf.list, rfl, rfl, hcounts.release,
      (List.append_nil _).symm, (if_pos hempty).symm⟩
  · have hone : [leaf].filter (fun leaf => !(memory.records leaf.list).isEmpty) = [leaf] :=
      List.filter_cons_of_pos (by simpa using hempty)
    rw [if_neg hempty, hone]
    refine ⟨_, memory, rfl, rfl, ?_, rfl, Eq.trans ?_ (if_neg hempty).symm⟩
    · rw [List.map_append, List.append_assoc]
      exact hcounts.perm List.perm_middle.symm
    · simp only [read, HeldLeaf.read, List.map_append, List.map_singleton]

end HeldComposite

/-- A set in memory. -/
abbrev HeldSet := Shelved HeldLeaf HeldComposite

namespace HeldSet

/-- The leaves that stand under a name. -/
def leaves : HeldSet → List HeldLeaf
  | .gone => []
  | .leaf leaf => [leaf]
  | .composite composite => composite.members

/-- The lists that are held under a name. -/
def lists (set : HeldSet) : List Address := set.leaves.map HeldLeaf.list

/-- All lists that are held, each as often as it is held. -/
def heldLists (sets : List HeldSet) : List Address := sets.flatMap lists

lemma heldLists_append (sets : List HeldSet) (set : HeldSet) :
    heldLists (sets ++ [set]) = heldLists sets ++ set.lists := by
  rw [heldLists, List.flatMap_append, List.flatMap_singleton]
  rfl

/-- Another set under a name, beside what all others hold. -/
lemma heldLists_set_perm {sets : List HeldSet} {name : Nat} {set : HeldSet}
    (hset : sets[name]? = some set) (next : HeldSet) :
    (heldLists (sets.set name next)).Perm (next.lists ++ heldLists (sets.set name .gone)) := by
  have hlt := (List.getElem?_eq_some_iff.mp hset).1
  have hnext := (List.set_perm_cons_eraseIdx hlt next).flatMap_right lists
  have hgone := (List.set_perm_cons_eraseIdx hlt .gone).flatMap_right lists
  exact hnext.trans (hgone.symm.append_left next.lists)

/-- What is held under a name, beside what all others hold. -/
lemma heldLists_perm {sets : List HeldSet} {name : Nat} {set : HeldSet}
    (hset : sets[name]? = some set) :
    (heldLists sets).Perm (set.lists ++ heldLists (sets.set name .gone)) := by
  obtain ⟨hlt, rfl⟩ := List.getElem?_eq_some_iff.mp hset
  have hperm := heldLists_set_perm hset sets[name]
  rwa [List.set_getElem_self] at hperm

end HeldSet

/-- Memory and the sets that are kept in it. -/
structure Pool where
  memory : RecordMemory
  sets : List HeldSet

namespace Pool

open HeldSet
open Shelved (leafNamed compositeNamed)

def start : Pool := ⟨.empty, []⟩

/-- The leaf at a place. -/
def leafAt (pool : Pool) (place : LeafPlace) : Option HeldLeaf :=
  pool.sets[place.name]?.bind fun set => set.leaves[place.index]?

/-- Whether two leaves share their records, if there are leaves at these places. -/
def sharesAt (pool : Pool) (place other : LeafPlace) : Option Bool := do
  return (← pool.leafAt place).sharesRecords (← pool.leafAt other)

/-- The set with a name as it is now. -/
def read (pool : Pool) (name : Nat) : Option (Shelved Leaf Composite) :=
  pool.sets[name]?.map
    (Shelved.map (HeldLeaf.read pool.memory.records) (HeldComposite.read pool.memory.records))

/-- One leaf more that holds a list which is held already. -/
def keep (pool : Pool) (leaf : HeldLeaf) : Pool :=
  ⟨pool.memory.retain leaf.list, pool.sets ++ [.leaf leaf]⟩

/-- A leaf gets a record. -/
def write (free : Address) (pool : Pool) (name : Nat) (leaf : HeldLeaf) (record : RecordId) : Pool :=
  let (list, memory) := pool.memory.insert leaf.list free record
  ⟨memory, pool.sets.set name (.leaf { leaf with list })⟩

/-- Two leaves become a composite of the first one's pattern. -/
def unite (pool : Pool) (left right : Nat) (first second : HeldLeaf) : Option Pool := do
  let (composite, memory) ← (HeldComposite.empty first.pattern).add pool.memory first
  let (composite, memory) ← composite.add memory second
  return ⟨memory, (pool.sets.set left .gone).set right .gone ++ [.composite composite]⟩

/-- A leaf goes into a composite. -/
def join (pool : Pool) (name member : Nat) (composite : HeldComposite) (leaf : HeldLeaf) :
    Option Pool := do
  let (composite, memory) ← composite.add pool.memory leaf
  return ⟨memory, (pool.sets.set member .gone).set name (.composite composite)⟩

/-- A step, for which memory has a free place. -/
def step (pattern : TriplePattern) (free : Address) (pool : Pool) : SetStep → Option Pool
  | .leaf records parent =>
    some ⟨pool.memory.allocate free records, pool.sets ++ [.leaf ⟨pattern, free, parent⟩]⟩
  | .withParent source parent => do
    let leaf ← pool.leafAt source
    return pool.keep { leaf with parent }
  | .cloneLeaf source => do
    let leaf ← pool.leafAt source
    return pool.keep leaf
  | .cloneComposite name => do
    let composite ← compositeNamed pool.sets name
    return ⟨(lists (.composite composite)).foldl .retain pool.memory,
      pool.sets ++ [.composite composite]⟩
  | .insert name record => do
    let leaf ← leafNamed pool.sets name
    return pool.write free name leaf record
  | .union left right => do
    let first ← leafNamed pool.sets left
    let second ← leafNamed (pool.sets.set left .gone) right
    pool.unite left right first second
  | .composite => some ⟨pool.memory, pool.sets ++ [.composite (.empty pattern)]⟩
  | .add name member => do
    let composite ← compositeNamed pool.sets name
    let leaf ← leafNamed pool.sets member
    pool.join name member composite leaf
  | .drop name => do
    let set ← pool.sets[name]?
    return ⟨set.lists.foldl .release pool.memory, pool.sets.set name .gone⟩

/-- The pools that steps can make of the first, whatever free places memory gives. -/
inductive MadeBy (pattern : TriplePattern) : List SetStep → Pool → Prop
  | start : MadeBy pattern [] start
  | step {steps : List SetStep} {pool later : Pool} {next : SetStep} (free : Address)
    (h : MadeBy pattern steps pool) (hfree : pool.memory.holders free = 0)
    (hstep : pool.step pattern free next = some later) : MadeBy pattern (steps ++ [next]) later

end Pool

end QuadStore
