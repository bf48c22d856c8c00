import QuadStore.Binding
import Mathlib.Data.List.Basic
import Mathlib.Tactic.Lemma

/-!
# The arena is a persistent tree

A node's value of a variable is its own or its parent's, and its values are its parent's and then
its own (`Arena.lookupAt_eq`, `Arena.valuesAt_eq`).  New nodes are put behind the old ones, which
point backward only, so an arena that *extends* another (`Arena.Extends`) says the same of every
node of the other.

What a binding means apart from its arena is the list of its values.  `Arena.Represents` says that a
handle stands for such a list: its values are the list, and looking a variable up in the list and in
the arena comes to the same.  A new node whose variables are new to its parent represents the
parent's list with its own values behind (`Arena.represents_extend`).
-/

namespace QuadStore

namespace Arena

/-! ## One node -/

/-- The value of a variable at a node is the node's own, or else its parent's. -/
lemma lookupAt_eq (arena : Arena) (v : Variable) {index : Nat} (h : index < arena.nodes.size) :
    arena.lookupAt v index =
      (arena.nodes[index].values.lookup v).or (arena.lookup arena.nodes[index].parent v) := by
  rw [lookupAt, dif_pos h, lookup]
  split
  · rename_i term hterm
    rw [hterm, Option.some_or]
  · rename_i hnone
    rw [hnone, Option.none_or]
    split <;> rename_i hparent <;> rw [hparent] <;> rfl

/-- The values of a node are its parent's and then its own. -/
lemma valuesAt_eq (arena : Arena) {index : Nat} (h : index < arena.nodes.size) :
    arena.valuesAt index =
      (arena.materialize arena.nodes[index].parent).values ++ arena.nodes[index].values := by
  rw [valuesAt, dif_pos h, materialize]
  split <;> rename_i hparent <;> rw [hparent] <;> rfl

/-! ## Growing arenas -/

/-- A binding is the empty one or a node of the arena. -/
def Knows (arena : Arena) (binding : Option Handle) : Prop :=
  ∀ handle ∈ binding, handle.index < arena.size

/-- An arena with all nodes of another at their places. -/
structure Extends (after before : Arena) : Prop where
  size_le : before.size ≤ after.size
  node_eq : ∀ index, index < before.size → after.nodes[index]? = before.nodes[index]?

lemma extends_refl (arena : Arena) : arena.Extends arena := ⟨Nat.le_refl _, fun _ _ => rfl⟩

lemma Extends.trans {a b c : Arena} (hcb : c.Extends b) (hba : b.Extends a) : c.Extends a where
  size_le := Nat.le_trans hba.size_le hcb.size_le
  node_eq index h := by rw [hcb.node_eq index (Nat.lt_of_lt_of_le h hba.size_le), hba.node_eq index h]

lemma extends_extend (arena : Arena) (parent : Option Handle) (values : Assignments) :
    (arena.extend parent values).2.Extends arena where
  size_le := by simp [extend, size]
  node_eq index h := Array.getElem?_push_lt h |>.trans (Array.getElem?_eq_getElem h).symm

lemma knows_none (arena : Arena) : arena.Knows none := by
  intro handle h
  cases h

variable {after before : Arena}

lemma Extends.knows (h : after.Extends before) {binding : Option Handle}
    (hknown : before.Knows binding) : after.Knows binding := fun handle hmem =>
  Nat.lt_of_lt_of_le (hknown handle hmem) h.size_le

lemma Extends.getElem_eq (h : after.Extends before) {index : Nat} (hindex : index < before.nodes.size)
    (hindex' : index < after.nodes.size) : after.nodes[index] = before.nodes[index] := by
  have hnode := h.node_eq index hindex
  rwa [Array.getElem?_eq_getElem hindex, Array.getElem?_eq_getElem hindex', Option.some.injEq]
    at hnode

lemma Extends.lookupAt_eq (h : after.Extends before) (v : Variable) {index : Nat}
    (hindex : index < before.size) : after.lookupAt v index = before.lookupAt v index := by
  induction index using Nat.strongRecOn with
  | ind index ih =>
    have hindex' : index < after.nodes.size := Nat.lt_of_lt_of_le hindex h.size_le
    rw [Arena.lookupAt_eq after v hindex', Arena.lookupAt_eq before v hindex,
      h.getElem_eq hindex hindex']
    cases hparent : before.nodes[index].parent with
    | none => rfl
    | some parent =>
      have hlt := before.backward index hindex parent hparent
      rw [lookup, lookup, Option.bind_some, Option.bind_some, ih parent.index hlt (Nat.lt_trans hlt hindex)]

lemma Extends.valuesAt_eq (h : after.Extends before) {index : Nat}
    (hindex : index < before.size) : after.valuesAt index = before.valuesAt index := by
  induction index using Nat.strongRecOn with
  | ind index ih =>
    have hindex' : index < after.nodes.size := Nat.lt_of_lt_of_le hindex h.size_le
    rw [Arena.valuesAt_eq after hindex', Arena.valuesAt_eq before hindex,
      h.getElem_eq hindex hindex']
    cases hparent : before.nodes[index].parent with
    | none => rfl
    | some parent =>
      have hlt := before.backward index hindex parent hparent
      rw [materialize, materialize, Option.elim_some, Option.elim_some,
        ih parent.index hlt (Nat.lt_trans hlt hindex)]

/-- **Growth changes no value** of a binding that was there before. -/
theorem Extends.lookup_eq (h : after.Extends before) {binding : Option Handle}
    (hknown : before.Knows binding) (v : Variable) :
    after.lookup binding v = before.lookup binding v := by
  cases binding with
  | none => rfl
  | some handle => exact h.lookupAt_eq v (hknown handle rfl)

theorem Extends.materialize_eq (h : after.Extends before) {binding : Option Handle}
    (hknown : before.Knows binding) : after.materialize binding = before.materialize binding := by
  cases binding with
  | none => rfl
  | some handle =>
    rw [materialize, materialize, Option.elim_some, Option.elim_some,
      h.valuesAt_eq (hknown handle rfl)]

/-! ## The new node -/

variable (arena : Arena) (parent : Option Handle) (values : Assignments)

lemma knows_extend : (arena.extend parent values).2.Knows (some (arena.extend parent values).1) := by
  intro handle h
  cases h
  simp [extend, size]

lemma known_eq {arena : Arena} {parent : Option Handle} (h : arena.Knows parent) :
    arena.known parent = parent := by
  cases parent with
  | none => rfl
  | some handle => simp [known, h handle rfl]

variable {arena parent}

/-- A new node's values are those given, and else its parent's. -/
lemma lookup_extend (h : arena.Knows parent) (v : Variable) :
    (arena.extend parent values).2.lookup (some (arena.extend parent values).1) v =
      (values.lookup v).or (arena.lookup parent v) := by
  have hindex : arena.size < (arena.extend parent values).2.nodes.size := by simp [extend, size]
  have hnode : (arena.extend parent values).2.nodes[arena.size] = ⟨parent, values⟩ := by
    simp [extend, size, known_eq h]
  show lookupAt _ v arena.size = _
  rw [Arena.lookupAt_eq _ v hindex, hnode, (extends_extend arena parent values).lookup_eq h]

lemma materialize_extend (h : arena.Knows parent) :
    (arena.extend parent values).2.materialize (some (arena.extend parent values).1) =
      ⟨(arena.materialize parent).values ++ values⟩ := by
  have hindex : arena.size < (arena.extend parent values).2.nodes.size := by simp [extend, size]
  have hnode : (arena.extend parent values).2.nodes[arena.size] = ⟨parent, values⟩ := by
    simp [extend, size, known_eq h]
  show Binding.mk (valuesAt _ arena.size) = _
  rw [Arena.valuesAt_eq _ hindex, hnode, (extends_extend arena parent values).materialize_eq h]

/-! ## Bindings as lists of values -/

/-- A binding of an arena stands for a list of values. -/
structure Represents (arena : Arena) (binding : Option Handle) (env : Assignments) : Prop where
  known : arena.Knows binding
  materialize_eq : arena.materialize binding = ⟨env⟩
  lookup_eq : ∀ v, arena.lookup binding v = env.lookup v

lemma represents_none (arena : Arena) : arena.Represents none [] where
  known := arena.knows_none
  materialize_eq := rfl
  lookup_eq _ := rfl

variable {binding : Option Handle} {env : Assignments}

lemma Represents.of_extends (h : before.Represents binding env) (hextends : after.Extends before) :
    after.Represents binding env where
  known := hextends.knows h.known
  materialize_eq := by rw [hextends.materialize_eq h.known, h.materialize_eq]
  lookup_eq v := by rw [hextends.lookup_eq h.known, h.lookup_eq]

/-- **A new node with values of new variables** represents its parent's list with the values
behind. -/
theorem represents_extend (h : arena.Represents parent env)
    (hnew : ∀ v, (values.lookup v).isSome → env.lookup v = none) :
    (arena.extend parent values).2.Represents (some (arena.extend parent values).1)
      (env ++ values) where
  known := knows_extend arena parent values
  materialize_eq := by rw [materialize_extend values h.known, h.materialize_eq]
  lookup_eq v := by
    rw [lookup_extend values h.known, h.lookup_eq, List.lookup_append]
    cases hv : values.lookup v with
    | none => rw [Option.none_or, Option.or_none]
    | some term => rw [hnew v (by rw [hv]; rfl), Option.some_or, Option.none_or]

end Arena

end QuadStore
