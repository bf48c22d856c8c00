import Mathlib
import QuadStore.Proofs.NestedLoops
import QuadStore.Proofs.SetsInMemory

/-!
# Accounts of candidate sets

What is to come of steps on candidate sets is said here without memory (`Account`).  Every leaf has its
records by itself, a composite is the row of the leaves that were united in it, as they were then, and
for each leaf it is written down on which list it is.  Leaves that are made one from the other, by a clone
or by another binding, are on one list; a leaf that gets a record while it shares its list leaves it for
a new one.

Memory agrees with an account (`Agrees`) if it counts its holders right, the lists that are held have
names, and set by set one stands for the other.
-/

namespace QuadStore

/-! ## Sets by themselves -/

/-- The candidates of a leaf, read off its records place by place. -/
def Leaf.intoCandidates (leaf : Leaf) : List Match :=
  List.ofFn fun place : Fin leaf.records.length => ⟨leaf.records[place], leaf.parent⟩

lemma Leaf.intoCandidates_eq (leaf : Leaf) : leaf.intoCandidates = leaf.candidates := by
  have hrecords := @List.ofFn_getElem _ leaf.records
  rw [Leaf.candidates, ← hrecords, List.map_ofFn]
  rfl

namespace Composite

/-- The candidates of a composite, leaf by leaf. -/
def intoCandidates (composite : Composite) : List Match :=
  composite.members.flatMap Leaf.intoCandidates

lemma intoCandidates_eq (composite : Composite) :
    composite.intoCandidates = composite.candidates := by
  unfold intoCandidates candidates
  rw [funext Leaf.intoCandidates_eq]

/-- The composite of some leaves, added in turn. -/
def ofLeaves (pattern : TriplePattern) (leaves : List Leaf) : Composite :=
  leaves.foldl Composite.add (Composite.empty pattern)

lemma ofLeaves_concat (pattern : TriplePattern) (leaves : List Leaf) (leaf : Leaf) :
    ofLeaves pattern (leaves ++ [leaf]) = (ofLeaves pattern leaves).add leaf :=
  List.foldl_append

lemma ofLeaves_pattern (pattern : TriplePattern) (leaves : List Leaf) :
    (ofLeaves pattern leaves).pattern = pattern := by
  induction leaves using List.reverseRecOn with
  | nil => rfl
  | append_singleton leaves leaf ih =>
    rw [ofLeaves_concat, Composite.add]
    split <;> exact ih

/-- **A composite of leaves** has no empty member, counts its candidates, and has those of the leaves
one after the other. -/
theorem ofLeaves_spec (pattern : TriplePattern) (leaves : List Leaf) :
    (ofLeaves pattern leaves).members = leaves.filter (fun leaf => !leaf.records.isEmpty) ∧
      (ofLeaves pattern leaves).size = (ofLeaves pattern leaves).candidates.length ∧
      (ofLeaves pattern leaves).candidates = leaves.flatMap Leaf.candidates := by
  induction leaves using List.reverseRecOn with
  | nil => exact ⟨rfl, rfl, rfl⟩
  | append_singleton leaves leaf ih =>
    obtain ⟨hmembers, hsize, hcandidates⟩ := ih
    rw [ofLeaves_concat]
    refine ⟨?_, ?_, ?_⟩
    · rw [List.filter_append, ← hmembers]
      unfold Composite.add
      split <;> rename_i hempty <;> simp [hempty]
    · rw [Evaluation.candidates_add, List.length_append, ← hsize, Leaf.candidates, List.length_map]
      unfold Composite.add
      split
      · rename_i hempty
        rw [List.isEmpty_iff.mp hempty]
        rfl
      · rfl
    · rw [Evaluation.candidates_add, hcandidates, List.flatMap_append, List.flatMap_singleton]

end Composite

/-! ## What is to come of it -/

/-- A set in an account: a leaf with the name of the list it is on, or the leaves that were united, as
they were when they were. -/
abbrev AccountSet := Shelved SharedLeaf (List SharedLeaf)

/-- The leaves that stand under a name.  One without records is not kept in a composite. -/
def AccountSet.leaves : AccountSet → List SharedLeaf
  | .gone => []
  | .leaf leaf => [leaf]
  | .composite united => united.filter fun leaf => !leaf.leaf.records.isEmpty

/-- What was done with sets, told without memory. -/
structure Account where
  supply : ListSupply
  sets : List AccountSet

namespace Account

open Shelved (leafNamed compositeNamed)

def start : Account := ⟨⟨0⟩, []⟩

/-- The leaf at a place. -/
def leafAt (account : Account) (place : LeafPlace) : Option SharedLeaf :=
  account.sets[place.name]?.bind fun set => set.leaves[place.index]?

/-- Whether two leaves are on one list, if there are leaves at these places. -/
def sharesAt (account : Account) (place other : LeafPlace) : Option Bool := do
  return (← account.leafAt place).sharesRecords (← account.leafAt other)

/-- The set with a name: of the leaves that were united, their composite. -/
def read (pattern : TriplePattern) (account : Account) (name : Nat) :
    Option (Shelved Leaf Composite) :=
  account.sets[name]?.map
    (Shelved.map SharedLeaf.leaf fun united => .ofLeaves pattern (united.map SharedLeaf.leaf))

/-- Whether another leaf is on the list of the leaf with a name. -/
def shares (account : Account) (name : Nat) : Bool :=
  match leafNamed account.sets name with
  | some leaf =>
    ((account.sets.set name .gone).flatMap AccountSet.leaves).any fun other =>
      leaf.sharesRecords other
  | none => false

/-- A leaf gets a record, and leaves its list for a new one if the rule `moves` says so. -/
def write (moves : Account → Nat → Bool) (account : Account) (name : Nat) (leaf : SharedLeaf)
    (record : RecordId) : Account :=
  if moves account name then
    let (leaf, supply) := leaf.insert account.supply record
    ⟨supply, account.sets.set name (.leaf leaf)⟩
  else
    let leaf := { leaf with leaf := leaf.leaf.insert record }
    { account with sets := account.sets.set name (.leaf leaf) }

/-- A step. -/
def step (pattern : TriplePattern) (moves : Account → Nat → Bool) (account : Account) :
    SetStep → Option Account
  | .leaf records parent =>
    let (leaf, supply) := SharedLeaf.make account.supply ⟨pattern, records, parent⟩
    some ⟨supply, account.sets ++ [.leaf leaf]⟩
  | .withParent source parent => do
    let leaf ← account.leafAt source
    return { account with sets := account.sets ++ [.leaf (leaf.withParent parent)] }
  | .cloneLeaf source => do
    let leaf ← account.leafAt source
    return { account with sets := account.sets ++ [.leaf leaf] }
  | .cloneComposite name => do
    let united ← compositeNamed account.sets name
    return { account with sets := account.sets ++ [.composite united] }
  | .insert name record => do
    let leaf ← leafNamed account.sets name
    return account.write moves name leaf record
  | .union left right => do
    let first ← leafNamed account.sets left
    let second ← leafNamed (account.sets.set left .gone) right
    return { account with
      sets := (account.sets.set left .gone).set right .gone ++ [.composite [first, second]] }
  | .composite => some { account with sets := account.sets ++ [.composite []] }
  | .add name member => do
    let united ← compositeNamed account.sets name
    let leaf ← leafNamed account.sets member
    return { account with
      sets := (account.sets.set member .gone).set name (.composite (united ++ [leaf])) }
  | .drop name => do
    let _ ← account.sets[name]?
    return { account with sets := account.sets.set name .gone }

/-- The account of some steps. -/
def after (pattern : TriplePattern) (moves : Account → Nat → Bool) (steps : List SetStep) :
    Option Account :=
  steps.foldlM (step pattern moves) start

lemma after_concat (pattern : TriplePattern) (moves : Account → Nat → Bool) (steps : List SetStep)
    (next : SetStep) : after pattern moves (steps ++ [next]) =
      (after pattern moves steps).bind fun account => account.step pattern moves next := by
  rw [after, List.foldlM_append, ← after]
  simp only [List.foldlM_cons, List.foldlM_nil, bind_pure]
  rfl

end Account

/-! ## Memory and account agree -/

section

variable {α β γ δ : Type} {R : α → β → Prop} {S : γ → δ → Prop}

lemma rel_getElem? {l : List α} {l' : List β} (h : List.Forall₂ R l l') (i : Nat) :
    Option.Rel R l[i]? l'[i]? := by
  induction h generalizing i with
  | nil => exact .none
  | cons hhead _ ih =>
    cases i with
    | zero => exact .some hhead
    | succ i => exact ih i

lemma forall₂_set {l : List α} {l' : List β} (h : List.Forall₂ R l l') (i : Nat) {a : α} {b : β}
    (hab : R a b) : List.Forall₂ R (l.set i a) (l'.set i b) := by
  induction h generalizing i with
  | nil => exact .nil
  | cons hhead htail ih =>
    cases i with
    | zero => exact .cons hab htail
    | succ i => exact .cons hhead (ih i)

variable {x : Option α} {y : Option β} {f : α → Option γ} {g : β → Option δ}

lemma exists_of_rel_some {T : α → β → Prop} {a : α} {y : Option β} (h : Option.Rel T (some a) y) :
    ∃ b, y = some b ∧ T a b := by
  cases h with
  | some hab => exact ⟨_, rfl, hab⟩

lemma isSome_of_rel (h : Option.Rel R x y) : x.isSome = y.isSome := by
  cases h <;> rfl

lemma rel_bind (h : Option.Rel R x y)
    (hfg : ∀ a b, x = some a → y = some b → R a b → Option.Rel S (f a) (g b)) :
    Option.Rel S (x >>= f) (y >>= g) := by
  cases h with
  | some hab => exact hfg _ _ rfl rfl hab
  | none => exact .none

end

/-- The leaf of an account that a leaf in memory stands for, if the lists in memory have names. -/
def HeldLeaf.named (records : Address → List RecordId) (nameOf : Address → Nat) (leaf : HeldLeaf) :
    SharedLeaf := ⟨leaf.read records, nameOf leaf.list⟩

/-- The lists that are held have different names, of those that were given out. -/
structure Named (nameOf : Address → Nat) (used : Nat) (held : List Address) : Prop where
  lt : ∀ list ∈ held, nameOf list < used
  inj : ∀ list ∈ held, ∀ other ∈ held, nameOf list = nameOf other → list = other

namespace Named

variable {nameOf : Address → Nat} {used : Nat} {held : List Address} {list : Address}

lemma mono (h : Named nameOf used held) {fewer : List Address} (hfewer : fewer ⊆ held) :
    Named nameOf used fewer where
  lt list hlist := h.lt list (hfewer hlist)
  inj list hlist other hother := h.inj list (hfewer hlist) other (hfewer hother)

/-- A list that nobody holds can have the next name. -/
lemma cons (h : Named nameOf used held) (hlist : list ∉ held) :
    Named (Function.update nameOf list used) (used + 1) (list :: held) := by
  have hself : Function.update nameOf list used list = used := Function.update_self ..
  have hold : ∀ other ∈ held, Function.update nameOf list used other = nameOf other := by
    intro other hother
    have hne : other ≠ list := by
      rintro rfl
      exact hlist hother
    exact Function.update_of_ne hne ..
  constructor
  · intro other hother
    rcases List.mem_cons.mp hother with rfl | hother
    · rw [hself]
      exact Nat.lt_succ_self used
    · rw [hold other hother]
      exact Nat.lt_succ_of_lt (h.lt other hother)
  · intro a ha b hb hab
    rcases List.mem_cons.mp ha with ha | ha <;> rcases List.mem_cons.mp hb with hb | hb
    · rw [ha, hb]
    · rw [ha, hself, hold b hb] at hab
      exact absurd (hab ▸ h.lt b hb) (Nat.lt_irrefl used)
    · rw [hb, hself, hold a ha] at hab
      exact absurd (hab ▸ h.lt a ha) (Nat.lt_irrefl used)
    · rw [hold a ha, hold b hb] at hab
      exact h.inj a ha b hb hab

end Named

section

variable (pattern : TriplePattern) (records : Address → List RecordId) (nameOf : Address → Nat)

/-- A composite in memory is that of the leaves that were united. -/
structure CompositeAgrees (composite : HeldComposite) (united : List SharedLeaf) : Prop where
  read_eq : composite.read records = .ofLeaves pattern (united.map SharedLeaf.leaf)
  members_eq : composite.members.map (HeldLeaf.named records nameOf) =
    united.filter fun leaf => !leaf.leaf.records.isEmpty
  pattern_eq : ∀ member ∈ composite.members, member.pattern = pattern

/-- A set in memory is that of the account. -/
inductive SetAgrees : HeldSet → AccountSet → Prop
  | gone : SetAgrees .gone .gone
  | leaf {leaf : HeldLeaf} (hpattern : leaf.pattern = pattern) :
    SetAgrees (.leaf leaf) (.leaf (leaf.named records nameOf))
  | composite {composite : HeldComposite} {united : List SharedLeaf}
    (h : CompositeAgrees pattern records nameOf composite united) :
    SetAgrees (.composite composite) (.composite united)

end

/-- Memory and account agree. -/
structure Agrees (pattern : TriplePattern) (nameOf : Address → Nat) (pool : Pool)
    (account : Account) : Prop where
  counts : pool.memory.Counts (HeldSet.heldLists pool.sets)
  named : Named nameOf account.supply.used (HeldSet.heldLists pool.sets)
  sets : List.Forall₂ (SetAgrees pattern pool.memory.records nameOf) pool.sets account.sets

section

variable {pattern : TriplePattern} {records records' : Address → List RecordId}
  {nameOf nameOf' : Address → Nat} {set : HeldSet} {accounted : AccountSet} {sets : List HeldSet}
  {accounts : List AccountSet}

namespace SetAgrees

lemma leaves_eq (h : SetAgrees pattern records nameOf set accounted) :
    set.leaves.map (HeldLeaf.named records nameOf) = accounted.leaves ∧
      ∀ leaf ∈ set.leaves, leaf.pattern = pattern := by
  cases h with
  | gone => exact ⟨rfl, fun _ h => nomatch h⟩
  | leaf hpattern => exact ⟨rfl, List.forall_mem_singleton.mpr hpattern⟩
  | composite h => exact ⟨h.members_eq, h.pattern_eq⟩

/-- A set agrees as long as its lists stay as they are. -/
lemma congr (h : SetAgrees pattern records nameOf set accounted)
    (hsame : ∀ list ∈ set.lists, records' list = records list ∧ nameOf' list = nameOf list) :
    SetAgrees pattern records' nameOf' set accounted := by
  have hread : ∀ leaf ∈ set.leaves, leaf.read records' = leaf.read records := fun leaf hleaf => by
    rw [HeldLeaf.read, (hsame leaf.list (List.mem_map_of_mem hleaf)).1]
    rfl
  have hnamed : ∀ leaf ∈ set.leaves, leaf.named records' nameOf' = leaf.named records nameOf :=
    fun leaf hleaf => by
      rw [HeldLeaf.named, hread leaf hleaf, (hsame leaf.list (List.mem_map_of_mem hleaf)).2]
      rfl
  cases h with
  | gone => exact .gone
  | @leaf leaf hpattern =>
    rw [← hnamed leaf (List.mem_singleton_self leaf)]
    exact .leaf hpattern
  | @composite composite united h =>
    have hmembers : composite.read records' = composite.read records :=
      congrArg (Composite.mk composite.pattern · composite.size) (List.map_congr_left hread)
    exact .composite ⟨hmembers.trans h.read_eq, (List.map_congr_left hnamed).trans h.members_eq,
      h.pattern_eq⟩

end SetAgrees

lemma forall₂_congr (h : List.Forall₂ (SetAgrees pattern records nameOf) sets accounts)
    (hsame : ∀ list ∈ HeldSet.heldLists sets,
      records' list = records list ∧ nameOf' list = nameOf list) :
    List.Forall₂ (SetAgrees pattern records' nameOf') sets accounts := by
  induction h with
  | nil => exact .nil
  | cons hhead _ ih =>
    refine .cons (hhead.congr fun list hlist => hsame list ?_) (ih fun list hlist => hsame list ?_)
    · exact List.mem_append_left _ hlist
    · exact List.mem_append_right _ hlist

/-- The names of the lists that are held are those in the account. -/
lemma map_heldLists (h : List.Forall₂ (SetAgrees pattern records nameOf) sets accounts) :
    (HeldSet.heldLists sets).map nameOf =
      (accounts.flatMap AccountSet.leaves).map SharedLeaf.list := by
  induction h with
  | nil => rfl
  | @cons set accounted sets accounts hhead _ ih =>
    have hlists : set.lists.map nameOf = accounted.leaves.map SharedLeaf.list := by
      rw [← hhead.leaves_eq.1, HeldSet.lists, List.map_map, List.map_map]
      rfl
    rw [HeldSet.heldLists, List.flatMap_cons, List.map_append, List.flatMap_cons, List.map_append,
      hlists, ← ih]
    rfl

lemma rel_leafNamed (h : List.Forall₂ (SetAgrees pattern records nameOf) sets accounts)
    (name : Nat) : Option.Rel
      (fun leaf shared => leaf.pattern = pattern ∧ shared = leaf.named records nameOf)
      (Shelved.leafNamed sets name) (Shelved.leafNamed accounts name) := by
  refine rel_bind (rel_getElem? h name) fun set accounted _ _ hset => ?_
  cases hset with
  | leaf hpattern => exact .some ⟨hpattern, rfl⟩
  | gone | composite => exact .none

lemma rel_compositeNamed (h : List.Forall₂ (SetAgrees pattern records nameOf) sets accounts)
    (name : Nat) : Option.Rel (CompositeAgrees pattern records nameOf)
      (Shelved.compositeNamed sets name) (Shelved.compositeNamed accounts name) := by
  refine rel_bind (rel_getElem? h name) fun set accounted _ _ hset => ?_
  cases hset with
  | composite h => exact .some h
  | gone | leaf => exact .none

namespace CompositeAgrees

/-- A composite to which nothing was added yet. -/
lemma empty : CompositeAgrees pattern records nameOf (.empty pattern) [] :=
  ⟨rfl, rfl, fun _ hmember => nomatch hmember⟩

/-- A leaf of the pattern is added, and the composite holds nothing that was not held. -/
lemma add {memory : RecordMemory} {composite : HeldComposite} {leaf : HeldLeaf}
    {united : List SharedLeaf} {others : List Address}
    (h : CompositeAgrees pattern memory.records nameOf composite united)
    (hpattern : leaf.pattern = pattern)
    (hcounts : memory.Counts (leaf.list :: (composite.members.map HeldLeaf.list ++ others))) :
    ∃ composite' memory', composite.add memory leaf = some (composite', memory') ∧
      memory'.records = memory.records ∧
      CompositeAgrees pattern memory.records nameOf composite'
        (united ++ [leaf.named memory.records nameOf]) ∧
      memory'.Counts (composite'.members.map HeldLeaf.list ++ others) ∧
      composite'.members.map HeldLeaf.list ++ others ⊆
        leaf.list :: (composite.members.map HeldLeaf.list ++ others) := by
  have hsame : composite.pattern = pattern := by
    have hcomposite := congrArg Composite.pattern h.read_eq
    rwa [Composite.ofLeaves_pattern] at hcomposite
  obtain ⟨composite', memory', hadd, hrecords, hcounts', hmembers, hread⟩ :=
    HeldComposite.add_spec (hsame.trans hpattern.symm) hcounts
  refine ⟨composite', memory', hadd, hrecords, ⟨?_, ?_, ?_⟩, hcounts', ?_⟩
  · have hleaves : (united ++ [leaf.named memory.records nameOf]).map SharedLeaf.leaf =
        united.map SharedLeaf.leaf ++ [leaf.read memory.records] := List.map_append
    rw [hread, h.read_eq, hleaves, Composite.ofLeaves_concat]
  · rw [hmembers, List.map_append, h.members_eq, List.filter_append, ← List.map_singleton,
      List.filter_map]
    rfl
  · rw [hmembers]
    intro member hmember
    rcases List.mem_append.mp hmember with hold | hnew
    · exact h.pattern_eq member hold
    · rw [List.mem_singleton.mp (List.mem_of_mem_filter hnew), hpattern]
  · rw [hmembers, List.map_append, List.append_assoc]
    refine List.append_subset.mpr ⟨fun list hlist => ?_, List.append_subset.mpr ⟨?_, ?_⟩⟩
    · exact List.mem_cons_of_mem _ (List.mem_append_left _ hlist)
    · exact List.Subset.trans (List.map_subset _ (List.filter_subset_self _))
        (List.cons_subset_cons _ (List.nil_subset _))
    · exact fun list hlist => List.mem_cons_of_mem _ (List.mem_append_right _ hlist)

end CompositeAgrees

end

end QuadStore
