import Mathlib
import QuadStore.Proofs.BindingChains

/-!
# Extensions form a tree that is never changed

An arena is made by calls, each of which extends the empty binding or a node made before
(`Arena.MadeBy`).  As a tree it is known from the calls alone: a node has the values of its call below
those of its parent (`Arena.extensions_form_tree`).

How a value is found, though, is not said by the calls.  A handle is kept in 32 bits
(`Handle.word`), and a search follows the handles of parents from node to node until there is none,
without looking whether it has been at a node before.  `Arena.Searches` and `Arena.Climbs` are these
two loops, over any nodes whatever: a loop that does not end has no result, and a handle that is cut
short leads to another node.  That every node extends an earlier one is what makes both of them end, and
as long as there are not more nodes than handles no handle is cut short (`Arena.searches_iff`,
`Arena.climbs_iff`).
-/

namespace QuadStore

/-- A call that extends a binding by some values. -/
structure Extension where
  parent : Option Handle
  values : Assignments

/-- A handle in 32 bits. -/
def Handle.word (handle : Handle) : UInt32 := UInt32.ofNat handle.index

lemma Handle.toNat_word {index : Nat} (h : index < 2 ^ 32) : (mk index).word.toNat = index :=
  UInt32.toNat_ofNat_of_lt' h

namespace Arena

/-! ## The loops -/

/-- The search for a variable's value, which ends at the first node that has one. -/
inductive Searches (arena : Arena) (v : Variable) : Option UInt32 → Option Term → Prop
  | root : Searches arena v none none
  | outside {word : UInt32} (hnode : arena.nodes[word.toNat]? = none) :
    Searches arena v (some word) none
  | found {word : UInt32} {node : BindingNode} {term : Term}
    (hnode : arena.nodes[word.toNat]? = some node) (hterm : node.values.lookup v = some term) :
    Searches arena v (some word) (some term)
  | parent {word : UInt32} {node : BindingNode} {result : Option Term}
    (hnode : arena.nodes[word.toNat]? = some node) (hnone : node.values.lookup v = none)
    (hrest : Searches arena v (node.parent.map Handle.word) result) :
    Searches arena v (some word) result

/-- The collection of the nodes from one to its root. -/
inductive Climbs (arena : Arena) : Option UInt32 → List BindingNode → Prop
  | root : Climbs arena none []
  | outside {word : UInt32} (hnode : arena.nodes[word.toNat]? = none) : Climbs arena (some word) []
  | parent {word : UInt32} {node : BindingNode} {nodes : List BindingNode}
    (hnode : arena.nodes[word.toNat]? = some node)
    (hrest : Climbs arena (node.parent.map Handle.word) nodes) :
    Climbs arena (some word) (node :: nodes)

section

variable {arena : Arena} {index : Nat}

/-- A handle leads to its node if there are not more nodes than handles. -/
lemma getElem?_word (hsize : arena.size ≤ 2 ^ 32) (hindex : index < arena.nodes.size) :
    arena.nodes[(Handle.word ⟨index⟩).toNat]? = some arena.nodes[index] := by
  rw [Handle.toNat_word (Nat.lt_of_lt_of_le hindex hsize)]
  exact Array.getElem?_eq_getElem hindex

/-- **The search for a value ends**, and finds the value of the variable. -/
theorem searches_iff (hsize : arena.size ≤ 2 ^ 32) (hindex : index < arena.nodes.size) (v : Variable)
    (result : Option Term) :
    arena.Searches v (some (Handle.word ⟨index⟩)) result ↔
      result = arena.lookup (some ⟨index⟩) v := by
  induction index using Nat.strongRecOn generalizing result with
  | ind index ih =>
    have hnode := getElem?_word hsize hindex
    have hlookup := lookupAt_eq arena v hindex
    have hparent : ∀ result, arena.Searches v (arena.nodes[index].parent.map Handle.word)
        result ↔ result = arena.lookup arena.nodes[index].parent v := by
      intro result
      cases hparent : arena.nodes[index].parent with
      | none => exact ⟨fun h => by cases h; rfl, fun h => h ▸ .root⟩
      | some parent =>
        have hlt := arena.backward index hindex parent hparent
        exact ih parent.index hlt (Nat.lt_trans hlt hindex) result
    rw [lookup, Option.bind_some, hlookup]
    constructor
    · intro h
      cases h with
      | outside hnone => exact absurd (hnode.symm.trans hnone) (Option.some_ne_none _)
      | found hsome hterm =>
        obtain rfl := Option.some.inj (hnode.symm.trans hsome)
        rw [hterm, Option.some_or]
      | parent hsome hnone hrest =>
        obtain rfl := Option.some.inj (hnode.symm.trans hsome)
        rw [hnone, Option.none_or]
        exact (hparent result).mp hrest
    · rintro rfl
      cases hvalue : arena.nodes[index].values.lookup v with
      | none =>
        rw [Option.none_or]
        exact .parent hnode hvalue ((hparent _).mpr rfl)
      | some term =>
        rw [Option.some_or]
        exact .found hnode hvalue

/-- **The way from a node to its root ends**, and passes the nodes of its chain. -/
theorem climbs_iff (hsize : arena.size ≤ 2 ^ 32) (hindex : index < arena.nodes.size)
    (nodes : List BindingNode) :
    arena.Climbs (some (Handle.word ⟨index⟩)) nodes ↔ nodes = arena.chain index := by
  induction index using Nat.strongRecOn generalizing nodes with
  | ind index ih =>
    have hnode := getElem?_word hsize hindex
    have hparent : ∀ nodes, arena.Climbs (arena.nodes[index].parent.map Handle.word) nodes ↔
        nodes = arena.nodes[index].parent.elim [] fun parent => arena.chain parent.index := by
      intro nodes
      cases hparent : arena.nodes[index].parent with
      | none => exact ⟨fun h => by cases h; rfl, fun h => h ▸ .root⟩
      | some parent =>
        have hlt := arena.backward index hindex parent hparent
        exact ih parent.index hlt (Nat.lt_trans hlt hindex) nodes
    rw [chain_eq arena hindex]
    constructor
    · intro h
      cases h with
      | outside hnone => exact absurd (hnode.symm.trans hnone) (Option.some_ne_none _)
      | parent hsome hrest =>
        obtain rfl := Option.some.inj (hnode.symm.trans hsome)
        rw [(hparent _).mp hrest]
    · rintro rfl
      exact .parent hnode ((hparent _).mpr rfl)

end

/-! ## The calls -/

/-- The calls that have made an arena of the empty one, each with the handle it was answered with.  A
call extends the empty binding or a handle that an earlier call was answered with. -/
inductive MadeBy : List (Extension × Handle) → Arena → Prop
  | empty : MadeBy [] .empty
  | extend {calls : List (Extension × Handle)} {arena : Arena} (call : Extension)
    (h : MadeBy calls arena) (hparent : ∀ known ∈ call.parent, known ∈ calls.map Prod.snd) :
    MadeBy (calls ++ [(call, (arena.extend call.parent call.values).1)])
      (arena.extend call.parent call.values).2

/-- The lists of values of the calls from the root down to a binding. -/
inductive PathTo (calls : List (Extension × Handle)) : Option Handle → List Assignments → Prop
  | root : PathTo calls none []
  | node {call : Extension} {handle : Handle} {lists : List Assignments}
    (hcall : (call, handle) ∈ calls) (h : PathTo calls call.parent lists) :
    PathTo calls (some handle) (lists ++ [call.values])

namespace MadeBy

variable {calls : List (Extension × Handle)} {arena : Arena}

/-- The handles are numbered in the order of the calls. -/
lemma handles_eq (h : MadeBy calls arena) :
    arena.size = calls.length ∧ calls.map Prod.snd = (List.range calls.length).map Handle.mk := by
  induction h with
  | empty => exact ⟨rfl, rfl⟩
  | @extend calls arena call h hparent ih =>
    obtain ⟨hsize, hhandles⟩ := ih
    constructor
    · rw [List.length_append, ← hsize]
      exact Array.size_push _
    · rw [List.map_append, hhandles, List.length_append, List.length_singleton, List.range_succ,
        List.map_append, ← hsize]
      rfl

lemma index_lt (h : MadeBy calls arena) {handle : Handle} (hmem : handle ∈ calls.map Prod.snd) :
    handle.index < arena.size := by
  obtain ⟨hsize, hhandles⟩ := h.handles_eq
  rw [hhandles, List.mem_map] at hmem
  obtain ⟨index, hindex, rfl⟩ := hmem
  rw [hsize]
  exact List.mem_range.mp hindex

/-- Handles are told apart in 32 bits if there are not too many. -/
lemma nodup_words (h : MadeBy calls arena) (hcount : calls.length < 2 ^ 32) :
    ((calls.map Prod.snd).map Handle.word).Nodup := by
  rw [h.handles_eq.2, List.map_map]
  apply List.Nodup.map_on _ List.nodup_range
  intro i hi j hj hword
  have hlt : ∀ k ∈ List.range calls.length, k < 2 ^ 32 := fun k hk =>
    Nat.lt_trans (List.mem_range.mp hk) hcount
  have hnumber : (Handle.mk i).word.toNat = (Handle.mk j).word.toNat :=
    congrArg UInt32.toNat hword
  rwa [Handle.toNat_word (hlt i hi), Handle.toNat_word (hlt j hj)] at hnumber

/-- Every handle answers one call only. -/
lemma eq_of_mem (h : MadeBy calls arena) {call other : Extension} {handle : Handle}
    (hcall : (call, handle) ∈ calls) (hother : (other, handle) ∈ calls) : call = other := by
  have hnodup : (calls.map Prod.snd).Nodup := by
    rw [h.handles_eq.2]
    exact List.nodup_range.map fun i j hij => Handle.mk.inj hij
  exact congrArg Prod.fst (List.inj_on_of_nodup_map hnodup hcall hother rfl)

/-- The parent of a call was known to it. -/
lemma parent_known (h : MadeBy calls arena) {call : Extension} {handle : Handle}
    (hcall : (call, handle) ∈ calls) : ∀ known ∈ call.parent, known ∈ calls.map Prod.snd := by
  induction h with
  | empty => cases hcall
  | @extend calls arena last h hparent ih =>
    intro known hknown
    rw [List.map_append]
    apply List.mem_append_left
    rcases List.mem_append.mp hcall with hold | hnew
    · exact ih hold known hknown
    · obtain rfl := congrArg Prod.fst (List.mem_singleton.mp hnew)
      exact hparent known hknown

/-- **The node of a call** holds what the call gave. -/
theorem getElem?_index (h : MadeBy calls arena) {call : Extension} {handle : Handle}
    (hcall : (call, handle) ∈ calls) :
    arena.nodes[handle.index]? = some ⟨call.parent, call.values⟩ := by
  induction h with
  | empty => cases hcall
  | @extend calls arena last h hparent ih =>
    rcases List.mem_append.mp hcall with hold | hnew
    · have hlt := h.index_lt (List.mem_map_of_mem hold)
      rw [(extends_extend arena last.parent last.values).node_eq handle.index hlt, ih hold]
    · obtain ⟨rfl, rfl⟩ := Prod.mk.inj (List.mem_singleton.mp hnew)
      have hknown : arena.known call.parent = call.parent :=
        known_eq fun known hknown => h.index_lt (hparent known hknown)
      show (arena.nodes.push ⟨arena.known call.parent, call.values⟩)[arena.nodes.size]? = _
      rw [Array.getElem?_push_size, hknown]

/-- The arena is what the calls make of the empty one. -/
lemma arena_eq (h : MadeBy calls arena) : arena =
    calls.foldl (fun made (call, _) => (made.extend call.parent call.values).2) .empty := by
  induction h with
  | empty => rfl
  | extend call h hparent ih => rw [List.foldl_append, ← ih]; rfl

lemma extends_foldl (calls : List (Extension × Handle)) (arena : Arena) :
    (calls.foldl (fun made (call, _) => (made.extend call.parent call.values).2) arena).Extends
      arena := by
  induction calls generalizing arena with
  | nil => exact extends_refl arena
  | cons first rest ih => exact (ih _).trans (extends_extend arena _ _)

/-- More calls leave all nodes at their places. -/
lemma extends_of_append (h : MadeBy calls arena) {more : List (Extension × Handle)} {later : Arena}
    (hlater : MadeBy (calls ++ more) later) : later.Extends arena := by
  rw [hlater.arena_eq, List.foldl_append, ← h.arena_eq]
  exact extends_foldl more arena

section

variable (h : MadeBy calls arena) {call : Extension} {handle : Handle}
  (hcall : (call, handle) ∈ calls)

include h hcall

lemma exists_node : ∃ hindex : handle.index < arena.nodes.size,
    arena.nodes[handle.index] = ⟨call.parent, call.values⟩ := by
  have hnode := h.getElem?_index hcall
  exact Array.getElem?_eq_some_iff.mp hnode

/-- A handle's value of a variable is the call's own, or else its parent's. -/
lemma lookup_eq (v : Variable) : arena.lookup (some handle) v =
    (call.values.lookup v).or (arena.lookup call.parent v) := by
  obtain ⟨hindex, hnode⟩ := h.exists_node hcall
  rw [lookup, Option.bind_some, lookupAt_eq arena v hindex, hnode]

lemma materialize_eq : (arena.materialize (some handle)).values =
    (arena.materialize call.parent).values ++ call.values := by
  obtain ⟨hindex, hnode⟩ := h.exists_node hcall
  rw [materialize, Option.elim_some, valuesAt_eq arena hindex, hnode]

lemma parent_index_lt : ∀ parent ∈ call.parent, parent.index < handle.index := by
  obtain ⟨hindex, hnode⟩ := h.exists_node hcall
  exact fun parent hparent => arena.backward handle.index hindex parent (by rw [hnode]; exact hparent)

end

/-! ## Paths -/

/-- All values of a binding are those on the path to it. -/
lemma materialize_of_pathTo (h : MadeBy calls arena) {binding : Option Handle}
    {lists : List Assignments} (hpath : PathTo calls binding lists) :
    arena.materialize binding = ⟨lists.flatten⟩ := by
  induction hpath with
  | root => rfl
  | node hcall _ ih =>
    have hvalues := h.materialize_eq hcall
    rw [ih] at hvalues
    rw [List.flatten_append, List.flatten_singleton, ← hvalues]

lemma pathTo_unique (h : MadeBy calls arena) {binding : Option Handle}
    {lists other : List Assignments} (hpath : PathTo calls binding lists)
    (hother : PathTo calls binding other) : lists = other := by
  induction hpath generalizing other with
  | root =>
    cases hother
    rfl
  | node hcall _ ih =>
    cases hother with
    | node hsame hrest =>
      obtain rfl := h.eq_of_mem hcall hsame
      rw [ih hrest]

/-- **There is a path to every handle**, since its parent is an earlier one. -/
theorem exists_pathTo (h : MadeBy calls arena) {handle : Handle}
    (hmem : handle ∈ calls.map Prod.snd) : ∃ lists, PathTo calls (some handle) lists := by
  obtain ⟨index⟩ := handle
  induction index using Nat.strongRecOn with
  | ind index ih =>
    obtain ⟨⟨call, _⟩, hcall, rfl⟩ := List.mem_map.mp hmem
    obtain ⟨lists, hpath⟩ : ∃ lists, PathTo calls call.parent lists := by
      cases hparent : call.parent with
      | none => exact ⟨[], .root⟩
      | some parent =>
        exact ih parent.index (h.parent_index_lt hcall parent hparent)
          (h.parent_known hcall parent hparent)
    exact ⟨lists ++ [call.values], .node hcall hpath⟩

end MadeBy

/-- **Extensions form a tree that is never changed.**  Take an arena made by calls that extend known
bindings, fewer than there are handles.  No two handles are the same in 32 bits.  A handle's value of
a variable is the first that its own call gave, or else its parent's, and its values are those on the
path from the root to it.  The loops that look for these end: the one at the value, the other with the
nodes whose values these are, from the handle up.  And all this stays so in whatever arena more calls
make of this one. -/
theorem extensions_form_tree {calls : List (Extension × Handle)} {arena : Arena}
    (h : MadeBy calls arena) (hcount : calls.length < 2 ^ 32) :
    ((calls.map Prod.snd).map Handle.word).Nodup ∧
    ∀ call handle, (call, handle) ∈ calls →
      (∀ v, arena.lookup (some handle) v = (call.values.lookup v).or (arena.lookup call.parent v)) ∧
      (∃ lists, (∀ other, PathTo calls (some handle) other ↔ other = lists) ∧
        arena.materialize (some handle) = ⟨lists.flatten⟩) ∧
      ∀ more later, MadeBy (calls ++ more) later → (calls ++ more).length < 2 ^ 32 →
        (∀ v, later.lookup (some handle) v = arena.lookup (some handle) v ∧
          ∀ result, later.Searches v (some handle.word) result ↔
            result = arena.lookup (some handle) v) ∧
        later.materialize (some handle) = arena.materialize (some handle) ∧
        ∃ nodes, (∀ other, later.Climbs (some handle.word) other ↔ other = nodes) ∧
          arena.materialize (some handle) = ⟨nodes.reverse.flatMap BindingNode.values⟩ := by
  constructor
  · exact h.nodup_words hcount
  · intro call handle hcall
    have hmem : handle ∈ calls.map Prod.snd := List.mem_map_of_mem hcall
    obtain ⟨lists, hpath⟩ := h.exists_pathTo hmem
    refine ⟨h.lookup_eq hcall, ⟨lists, fun other => ?_, h.materialize_of_pathTo hpath⟩, ?_⟩
    · exact ⟨fun hother => h.pathTo_unique hother hpath, fun hother => hother ▸ hpath⟩
    · intro more later hlater hmore
      have hextends := h.extends_of_append hlater
      have hknows : arena.Knows (some handle) := fun known hknown =>
        Option.some.inj hknown ▸ h.index_lt hmem
      have hindex := Nat.lt_of_lt_of_le (h.index_lt hmem) hextends.size_le
      have hsize : later.size ≤ 2 ^ 32 := by
        rw [hlater.handles_eq.1]
        exact hmore.le
      refine ⟨fun v => ?_, hextends.materialize_eq hknows, later.chain handle.index,
        climbs_iff hsize hindex, ?_⟩
      · have hlookup := hextends.lookup_eq hknows v
        refine ⟨hlookup, fun result => ?_⟩
        rw [← hlookup]
        exact searches_iff hsize hindex v result
      · rw [← hextends.materialize_eq hknows, ← valuesAt_eq_chain]
        rfl

/-- Two nodes below one root.  The first of them shadows the root's value of a variable and gives the
other variable two values, of which the first counts; the second node changes nothing of that. -/
theorem extensions_form_tree_branches :
    let x : Variable := ⟨"x"⟩
    let y : Variable := ⟨"y"⟩
    let term (name : String) : Term := .iri ⟨name⟩
    let root : Extension := ⟨none, [(x, term "a")]⟩
    let left : Extension := ⟨some ⟨0⟩, [(x, term "b"), (y, term "c"), (y, term "d")]⟩
    let right : Extension := ⟨some ⟨0⟩, [(y, term "e")]⟩
    let calls : List (Extension × Handle) := [(root, ⟨0⟩), (left, ⟨1⟩)]
    ∃ arena later, MadeBy calls arena ∧ calls.length < 2 ^ 32 ∧
      MadeBy (calls ++ [(right, ⟨2⟩)]) later ∧
      (∀ result, later.Searches x (some (Handle.word ⟨1⟩)) result ↔ result = some (term "b")) ∧
      (∀ result, later.Searches y (some (Handle.word ⟨1⟩)) result ↔ result = some (term "c")) ∧
      later.materialize (some ⟨1⟩) = ⟨root.values ++ left.values⟩ := by
  intro x y term root left right calls
  let first := (Arena.empty.extend root.parent root.values).2
  let second := (first.extend left.parent left.values).2
  let third := (second.extend right.parent right.values).2
  have hfirst : MadeBy [(root, ⟨0⟩)] first := .extend root .empty (by simp [root])
  have hsecond : MadeBy calls second := .extend left hfirst (by simp [left])
  have hthird : MadeBy (calls ++ [(right, ⟨2⟩)]) third := .extend right hsecond (by simp [right, calls])
  have hcount : calls.length < 2 ^ 32 := by decide
  obtain ⟨-, htree⟩ := extensions_form_tree hsecond hcount
  obtain ⟨hlookup, ⟨lists, hpath, hvalues⟩, hlater⟩ := htree left ⟨1⟩ (by simp [calls])
  obtain ⟨hsearches, hsame, -⟩ := hlater _ third hthird (by decide)
  have hx : second.lookup (some ⟨1⟩) x = some (term "b") := hlookup x
  have hy : second.lookup (some ⟨1⟩) y = some (term "c") := hlookup y
  have hroot : PathTo calls (some ⟨0⟩) ([] ++ [root.values]) := .node (by simp [calls]) .root
  have hleft : PathTo calls (some ⟨1⟩) ([] ++ [root.values] ++ [left.values]) :=
    .node (by simp [calls]) hroot
  refine ⟨second, third, hsecond, hcount, hthird, fun result => ?_, fun result => ?_, ?_⟩
  · rw [(hsearches x).2 result, hx]
  · rw [(hsearches y).2 result, hy]
  · rw [hsame, hvalues, ← (hpath _).mp hleft]
    rfl

end Arena

end QuadStore
