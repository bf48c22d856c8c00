import Mathlib
import QuadStore.Proofs.NestedLoops

/-!
# No variable is bound twice

There are several ways to ask what a variable stands for.  Looking it up goes from a node to the root
and takes the first value; the list of all values goes the other way and is searched from the front,
and of the values that go by one name the last one ends up in an object.  They come to the same because
a variable has only one value on the way from a node to the root (`Arena.bindings_agree`).

That is so because binding a statement adds values of open variables only, each once.  It holds whatever
patterns and statements are bound, below any of the nodes that were made before (`Arena.Issues`).
-/

namespace QuadStore

/-! ## Rows -/

/-- A row that gives each variable one value is extended to such a row. -/
lemma Distinct.extendRow {pattern : TriplePattern} {triple : Triple} {row extended : Assignments}
    (hrow : Distinct row) (h : extendRow pattern triple row = some extended) : Distinct extended := by
  obtain ⟨found, hfound, rfl⟩ := Option.map_eq_some_iff.mp h
  refine hrow.append (collectValues_some distinct_nil (by simp) hfound).1 fun ⟨v, term⟩ hmem => ?_
  simpa using isOpen_of_collectValues hfound hmem

/-! ## Objects -/

namespace Binding

/-- Where each variable has one value, nothing is left out of the object. -/
lemma toObject_of_distinct {values : Assignments} (h : Distinct values) :
    toObject ⟨values⟩ = values.map fun (v, term) => (v.name, term.encode) := by
  induction values using List.reverseRecOn with
  | nil => rfl
  | append_singleton values last ih =>
    obtain ⟨v, term⟩ := last
    unfold Distinct at h
    rw [List.map_append, List.nodup_append] at h
    obtain ⟨hvalues, -, hnew⟩ := h
    have hstep : toObject ⟨values ++ [(v, term)]⟩ =
        (toObject ⟨values⟩).filter (·.1 ≠ v.name) ++ [(v.name, term.encode)] := by
      unfold toObject
      rw [List.foldl_append]
      rfl
    have hkept : (values.map fun (w, other) => (w.name, other.encode)).filter
        (·.1 ≠ v.name) = values.map fun (w, other) => (w.name, other.encode) := by
      rw [List.filter_eq_self]
      intro field hfield
      obtain ⟨⟨w, other⟩, hmem, rfl⟩ := List.mem_map.mp hfield
      have hne : w ≠ v := hnew w (List.mem_map_of_mem hmem) v (by simp)
      simpa using fun hname => hne (congrArg Variable.mk hname)
    rw [hstep, ih hvalues, hkept, List.map_append]
    rfl

/-- Where each variable has one value, its field in the object is the written form of that value. -/
lemma mem_toObject_iff {values : Assignments} (h : Distinct values) (v : Variable) (text : String) :
    (v.name, text) ∈ toObject ⟨values⟩ ↔ (values.lookup v).map Term.encode = some text := by
  rw [toObject_of_distinct h, List.mem_map, Option.map_eq_some_iff]
  constructor
  · rintro ⟨⟨w, term⟩, hmem, hfield⟩
    obtain ⟨hname, rfl⟩ := Prod.mk.inj hfield
    obtain rfl : w = v := congrArg Variable.mk hname
    exact ⟨term, lookup_of_mem h.functional hmem, rfl⟩
  · rintro ⟨term, hterm, rfl⟩
    exact ⟨(v, term), mem_of_lookup hterm, rfl⟩

end Binding

namespace Arena

/-! ## From a node to its root -/

/-- The nodes from one to its root. -/
def chain (arena : Arena) (index : Nat) : List BindingNode :=
  if h : index < arena.nodes.size then
    match hp : arena.nodes[index].parent with
    | some parent => arena.nodes[index] :: arena.chain parent.index
    | none => [arena.nodes[index]]
  else []
  termination_by index
  decreasing_by exact arena.backward index h parent hp

/-- The variables that the nodes from one to its root bind, with repetitions. -/
def boundAlong (arena : Arena) (handle : Handle) : List Variable :=
  (arena.chain handle.index).flatMap fun node => node.values.map Prod.fst

lemma chain_eq (arena : Arena) {index : Nat} (h : index < arena.nodes.size) :
    arena.chain index = arena.nodes[index] ::
      arena.nodes[index].parent.elim [] fun parent => arena.chain parent.index := by
  rw [chain, dif_pos h]
  split <;> rename_i hparent <;> rw [hparent] <;> rfl

/-- All values of a node are those of the nodes on its chain, from the root on. -/
lemma valuesAt_eq_chain (arena : Arena) (index : Nat) :
    arena.valuesAt index = (arena.chain index).reverse.flatMap BindingNode.values := by
  induction index using Nat.strongRecOn with
  | ind index ih =>
    by_cases h : index < arena.nodes.size
    · rw [valuesAt_eq arena h, chain_eq arena h, List.reverse_cons, List.flatMap_append,
        List.flatMap_singleton]
      congr 1
      cases hparent : arena.nodes[index].parent with
      | none => rfl
      | some parent => exact ih parent.index (arena.backward index h parent hparent)
    · rw [valuesAt, chain, dif_neg h, dif_neg h]
      rfl

/-- The variables bound along a chain are those of all values of the node. -/
lemma boundAlong_perm (arena : Arena) (handle : Handle) :
    (arena.boundAlong handle).Perm ((arena.materialize (some handle)).values.map Prod.fst) := by
  rw [materialize, Option.elim_some, valuesAt_eq_chain, List.map_flatMap]
  exact (List.reverse_perm _).symm.flatMap_right _

/-! ## Nodes that binding makes -/

/-- An arena that binding statements has made of the empty one, and the handles that it gave out.
Statements are bound below the root or below a handle given out before; one that does not fit its pattern
leaves all as it is. -/
inductive Issues : List Handle → Arena → Prop
  | empty : Issues [] .empty
  | bound {issued : List Handle} {arena arena' : Arena} {parent : Option Handle} {handle : Handle}
      (pattern : TriplePattern) (triple : Triple) (h : Issues issued arena)
      (hparent : ∀ known ∈ parent, known ∈ issued)
      (hbind : arena.bind parent pattern triple = some (handle, arena')) :
      Issues (issued ++ [handle]) arena'

/-- **Binding a statement** below a node on whose chain no variable is bound twice makes such a node. -/
theorem exists_represents_bind {arena arena' : Arena} {parent : Option Handle} {row : Assignments}
    {pattern : TriplePattern} {triple : Triple} {handle : Handle} (h : arena.Represents parent row)
    (hrow : Distinct row) (hbind : arena.bind parent pattern triple = some (handle, arena')) :
    arena'.Extends arena ∧ ∃ extended, Distinct extended ∧ arena'.Represents (some handle) extended := by
  have hspec := bind_of_represents h pattern triple
  cases hextend : extendRow pattern triple row with
  | none =>
    rw [hextend, hbind] at hspec
    cases hspec
  | some extended =>
    rw [hextend] at hspec
    obtain ⟨_, _, hsame, hextends, -, hrepresents⟩ := hspec
    cases hbind.symm.trans hsame
    exact ⟨hextends, extended, hrow.extendRow hextend, hrepresents⟩

namespace Issues

variable {issued : List Handle} {arena : Arena}

/-- A handle is given out for every node. -/
lemma eq_range (h : Issues issued arena) : issued = (List.range arena.size).map Handle.mk := by
  induction h with
  | empty => rfl
  | bound pattern triple h hparent hbind ih =>
    rename_i issued arena arena' parent handle
    obtain ⟨values, -, hextend⟩ := Option.map_eq_some_iff.mp hbind
    have hhandle : handle = ⟨arena.size⟩ := (congrArg Prod.fst hextend).symm
    have hsize : arena'.size = arena.size + 1 := by
      have hnodes : arena' = (arena.extend parent values).2 := (congrArg Prod.snd hextend).symm
      rw [hnodes]
      exact Array.size_push _
    rw [hsize, List.range_succ, List.map_append, ← ih, hhandle]
    rfl

/-- **Every handle stands for a row** that gives each variable one value. -/
theorem exists_represents (h : Issues issued arena) {handle : Handle} (hmem : handle ∈ issued) :
    ∃ row, Distinct row ∧ arena.Represents (some handle) row := by
  induction h generalizing handle with
  | empty => cases hmem
  | bound pattern triple h hparent hbind ih =>
    rename_i issued arena arena' parent new
    obtain ⟨row, hrow, hrepresents⟩ : ∃ row, Distinct row ∧ arena.Represents parent row := by
      cases parent with
      | none => exact ⟨[], distinct_nil, arena.represents_none⟩
      | some known => exact ih (hparent known rfl)
    obtain ⟨hextends, hnew⟩ := exists_represents_bind hrepresents hrow hbind
    rcases List.mem_append.mp hmem with hold | hlast
    · obtain ⟨old, hold, hrepresents⟩ := ih hold
      exact ⟨old, hold, hrepresents.of_extends hextends⟩
    · rw [List.mem_singleton.mp hlast]
      exact hnew

end Issues

/-- **All ways to ask for a variable agree.**  In an arena made by binding statements, every node has been
given a handle, and on the way from it to its root no variable is bound twice.  So there are as many values
as variables bound, and a variable that is bound has the same value by looking it up, in the list of all
values, by its name and in the object, where its field is the written form of the value; one that is not
bound has none in any of them. -/
theorem bindings_agree {issued : List Handle} {arena : Arena} (h : Issues issued arena) :
    (∀ index < arena.size, ⟨index⟩ ∈ issued) ∧
    ∀ handle ∈ issued,
      let binding := arena.materialize (some handle)
      (arena.boundAlong handle).Nodup ∧
      binding.size = (arena.boundAlong handle).toFinset.card ∧
      ∀ v, let value := arena.lookup (some handle) v
        (value.isSome ↔ v ∈ arena.boundAlong handle) ∧
        binding.get? v = value ∧
        binding.getByName? v.name = value ∧
        ∀ text, (v.name, text) ∈ binding.toObject ↔ value.map Term.encode = some text := by
  constructor
  · intro index hindex
    rw [h.eq_range]
    exact List.mem_map_of_mem (List.mem_range.mpr hindex)
  · intro handle hmem binding
    obtain ⟨row, hrow, hrepresents⟩ := h.exists_represents hmem
    have hbinding : binding = ⟨row⟩ := hrepresents.materialize_eq
    have hperm : (arena.boundAlong handle).Perm (row.map Prod.fst) := by
      rw [← show binding.values = row from congrArg Binding.values hbinding]
      exact arena.boundAlong_perm handle
    have hnodup : (arena.boundAlong handle).Nodup := hperm.nodup_iff.mpr hrow
    refine ⟨hnodup, ?_, fun v => ?_⟩
    · rw [List.toFinset_card_of_nodup hnodup, hperm.length_eq, List.length_map, hbinding]
      rfl
    · intro value
      have hvalue : value = row.lookup v := hrepresents.lookup_eq v
      rw [hvalue, hbinding]
      refine ⟨?_, rfl, rfl, Binding.mem_toObject_iff hrow v⟩
      rw [hperm.mem_iff, List.mem_map]
      constructor
      · intro hsome
        obtain ⟨term, hterm⟩ := Option.isSome_iff_exists.mp hsome
        exact ⟨(v, term), mem_of_lookup hterm, rfl⟩
      · rintro ⟨⟨w, term⟩, hmem, rfl⟩
        exact lookup_isSome_of_mem hmem

end Arena

/-- A variable that occurs twice in its pattern is bound once.  The next statement has another term where
the variable is, but only the other variables of its pattern are bound, and however the variable is asked
for, its value is the first one. -/
theorem bindings_agree_kept_value :
    let resource (name : String) : Resource := .iri ⟨name⟩
    let loop : TriplePattern := ⟨.var ⟨"x"⟩, .term (.iri ⟨"p"⟩), .var ⟨"x"⟩⟩
    let edge : TriplePattern := ⟨.var ⟨"x"⟩, .var ⟨"y"⟩, .var ⟨"z"⟩⟩
    ∃ (root child : Handle) (first second : Arena),
      Arena.empty.bind none loop ⟨resource "a", ⟨"p"⟩, (resource "a").toTerm⟩ = some (root, first) ∧
      first.bind (some root) edge ⟨resource "b", ⟨"p"⟩, (resource "c").toTerm⟩ = some (child, second) ∧
      (second.boundAlong child).toFinset.card = 3 ∧
      second.lookup (some child) ⟨"x"⟩ = some (resource "a").toTerm ∧
      ("x", "<a>") ∈ (second.materialize (some child)).toObject := by
  intro resource loop edge
  let row : Assignments := [(⟨"x"⟩, (resource "a").toTerm)]
  let extended : Assignments := row ++ [(⟨"y"⟩, .iri ⟨"p"⟩), (⟨"z"⟩, (resource "c").toTerm)]
  have hroot := Arena.bind_of_represents Arena.empty.represents_none loop
    ⟨resource "a", ⟨"p"⟩, (resource "a").toTerm⟩
  have hrow : extendRow loop ⟨resource "a", ⟨"p"⟩, (resource "a").toTerm⟩ [] = some row := by decide
  rw [hrow] at hroot
  obtain ⟨root, first, hroot, -, -, hfirst⟩ := hroot
  have hchild := Arena.bind_of_represents hfirst edge ⟨resource "b", ⟨"p"⟩, (resource "c").toTerm⟩
  have hextended : extendRow edge ⟨resource "b", ⟨"p"⟩, (resource "c").toTerm⟩ row =
      some extended := by decide
  rw [hextended] at hchild
  obtain ⟨child, second, hchild, -, -, hsecond⟩ := hchild
  have hissues : Arena.Issues ([] ++ [root] ++ [child]) second :=
    .bound _ _ (.bound _ _ .empty (by simp) hroot) (by simp) hchild
  obtain ⟨-, hagree⟩ := Arena.bindings_agree hissues
  obtain ⟨-, hsize, hvalues⟩ := hagree child (by simp)
  obtain ⟨-, hget, -, hobject⟩ := hvalues ⟨"x"⟩
  rw [hsecond.materialize_eq] at hsize hget hobject
  have hvalue : second.lookup (some child) ⟨"x"⟩ = some (resource "a").toTerm := hget.symm
  refine ⟨root, child, first, second, hroot, hchild, hsize.symm, hvalue, ?_⟩
  rw [hsecond.materialize_eq]
  refine (hobject "<a>").mpr ?_
  rw [hvalue]
  decide

end QuadStore
