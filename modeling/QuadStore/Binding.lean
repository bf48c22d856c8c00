import QuadStore.Pattern

/-!
# Bindings in an arena

A join extends bindings of variables step by step, and many bindings share their beginning.  So a
binding is a node in an arena: its own values and the node it extends.  Every node extends an
earlier one, which the type of an arena says; so following a node to its root ends.

## Main definitions

* `Arena`, `Arena.extend`, `Arena.lookup`, `Arena.materialize`.
* `Binding`: the values from the root to a node, oldest first.
-/

namespace QuadStore

/-- Values of variables, each variable with its term. -/
abbrev Assignments := List (Variable × Term)

/-- The name of a node of an arena. -/
structure Handle where
  index : Nat
  deriving DecidableEq, Repr

/-- A node: the values it adds to those of its parent. -/
structure BindingNode where
  parent : Option Handle
  values : Assignments
  deriving Repr

/-- The nodes in the order of their creation.  The parent of each is an earlier one. -/
structure Arena where
  nodes : Array BindingNode
  backward : ∀ (i : Nat) (h : i < nodes.size) (p : Handle), nodes[i].parent = some p → p.index < i

/-- The values of a binding, oldest first. -/
structure Binding where
  values : Assignments
  deriving DecidableEq, Repr

namespace Arena

/-- The arena without nodes. -/
def empty : Arena := ⟨#[], by simp⟩

/-- The number of nodes. -/
def size (arena : Arena) : Nat := arena.nodes.size

/-- A handle that names a node of the arena, and nothing for any other. -/
def known (arena : Arena) (handle : Option Handle) : Option Handle :=
  handle.filter fun h => h.index < arena.size

/-- A new node with these values below `parent`.  A parent that is no node of the arena is no
parent. -/
def extend (arena : Arena) (parent : Option Handle) (values : Assignments) : Handle × Arena :=
  (⟨arena.size⟩,
    { nodes := arena.nodes.push ⟨arena.known parent, values⟩
      backward := by
        intro i h p hp
        simp only [Array.size_push] at h
        rw [Array.getElem_push] at hp
        split at hp
        · exact arena.backward i _ p hp
        · obtain ⟨_, hlt⟩ := Option.filter_eq_some_iff.mp hp
          have hp' : p.index < arena.nodes.size := of_decide_eq_true hlt
          exact Nat.lt_of_lt_of_le hp' (by omega) })

/-- The value of a variable at a node: its own, or else that of its parent. -/
def lookupAt (arena : Arena) (v : Variable) (index : Nat) : Option Term :=
  if h : index < arena.nodes.size then
    match arena.nodes[index].values.lookup v with
    | some term => some term
    | none =>
      match hp : arena.nodes[index].parent with
      | some parent => arena.lookupAt v parent.index
      | none => none
  else none
  termination_by index
  decreasing_by exact arena.backward index h parent hp

/-- The value of a variable in a binding. -/
def lookup (arena : Arena) (binding : Option Handle) (v : Variable) : Option Term :=
  binding.bind fun handle => arena.lookupAt v handle.index

/-- The values from the root to a node. -/
def valuesAt (arena : Arena) (index : Nat) : Assignments :=
  if h : index < arena.nodes.size then
    match hp : arena.nodes[index].parent with
    | some parent => arena.valuesAt parent.index ++ arena.nodes[index].values
    | none => arena.nodes[index].values
  else []
  termination_by index
  decreasing_by exact arena.backward index h parent hp

/-- All values of a binding, oldest first. -/
def materialize (arena : Arena) (binding : Option Handle) : Binding :=
  ⟨binding.elim [] fun handle => arena.valuesAt handle.index⟩

end Arena

namespace Binding

/-- The value of a variable: its first. -/
def get? (binding : Binding) (v : Variable) : Option Term := binding.values.lookup v

/-- The value of the variable with a name. -/
def getByName? (binding : Binding) (name : String) : Option Term := binding.get? ⟨name⟩

/-- The number of values. -/
def size (binding : Binding) : Nat := binding.values.length

/-- The written forms of the values by name.  Where a name has several values the last stands. -/
def toObject (binding : Binding) : List (String × String) :=
  binding.values.foldl (fun fields (v, term) =>
    fields.filter (·.1 ≠ v.name) ++ [(v.name, term.encode)]) []

end Binding

end QuadStore
