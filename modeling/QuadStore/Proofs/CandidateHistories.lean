import Mathlib
import QuadStore.Proofs.SetAccounts

/-!
# What becomes of candidate sets

Leaves are made, put under other bindings, cloned, given records and united, in any order.  All this
happens on record lists in memory that several leaves hold, and the leaves of a composite are held like
all others.  Whatever steps are taken, memory and account stay in step (`Agrees.step`), and so the sets
in memory are at any time those of the account, and two leaves share a list in memory if they are on one
list in the account (`sets_enumerate_and_share`).
-/

namespace QuadStore

/-! ## Step by step -/

namespace Agrees

open HeldSet

variable {pattern : TriplePattern} {nameOf : Address → Nat} {pool : Pool} {account : Account}

/-- Another set under a name, whose lists were held there before or are new. -/
lemma put {memory : RecordMemory} {supply : ListSupply} {name : Nat}
    {set next : HeldSet} {accounted : AccountSet} (hset : pool.sets[name]? = some set)
    (hcounts : memory.Counts (next.lists ++ heldLists (pool.sets.set name .gone)))
    (hnamed : Named nameOf supply.used (next.lists ++ heldLists (pool.sets.set name .gone)))
    (hothers : List.Forall₂ (SetAgrees pattern memory.records nameOf) (pool.sets.set name .gone)
      (account.sets.set name .gone))
    (hnext : SetAgrees pattern memory.records nameOf next accounted) :
    Agrees pattern nameOf ⟨memory, pool.sets.set name next⟩
      ⟨supply, account.sets.set name accounted⟩ := by
  have hput := heldLists_set_perm hset next
  have hsets := forall₂_set hothers name hnext
  rw [List.set_set, List.set_set] at hsets
  exact ⟨hcounts.perm hput.symm, hnamed.mono hput.subset, hsets⟩

variable (h : Agrees pattern nameOf pool account)

include h

/-- Where no list is written and nothing new is held, the names stay. -/
lemma keep {memory : RecordMemory} {sets : List HeldSet} {accounts : List AccountSet}
    (hrecords : memory.records = pool.memory.records) (hcounts : memory.Counts (heldLists sets))
    (hheld : heldLists sets ⊆ heldLists pool.sets)
    (hsets : List.Forall₂ (SetAgrees pattern pool.memory.records nameOf) sets accounts) :
    Agrees pattern nameOf ⟨memory, sets⟩ { account with sets := accounts } where
  counts := hcounts
  named := h.named.mono hheld
  sets := by
    show List.Forall₂ (SetAgrees pattern memory.records nameOf) sets accounts
    rwa [hrecords]

lemma leafAt_eq (place : LeafPlace) :
    Option.Rel (fun leaf shared => leaf.pattern = pattern ∧ leaf.list ∈ heldLists pool.sets ∧
      shared = leaf.named pool.memory.records nameOf) (pool.leafAt place) (account.leafAt place) := by
  refine rel_bind (rel_getElem? h.sets place.name) fun set accounted hset _ hagrees => ?_
  obtain ⟨hleaves, hpattern⟩ := hagrees.leaves_eq
  rw [← hleaves, List.getElem?_map]
  cases hleaf : set.leaves[place.index]? with
  | none => exact .none
  | some leaf =>
    have hmem := List.mem_of_getElem? hleaf
    exact .some ⟨hpattern leaf hmem, List.mem_flatMap.mpr
      ⟨set, List.mem_of_getElem? hset, List.mem_map_of_mem hmem⟩, rfl⟩

/-- Another leaf on a list that is held. -/
lemma keepLeaf (leaf : HeldLeaf) (hpattern : leaf.pattern = pattern)
    (hheld : leaf.list ∈ heldLists pool.sets) :
    Agrees pattern nameOf (pool.keep leaf) { account with
      sets := account.sets ++ [.leaf (leaf.named pool.memory.records nameOf)] } := by
  refine h.keep rfl ?_ ?_ (List.rel_append h.sets (.cons (.leaf hpattern) .nil))
  · rw [heldLists_append]
    exact (h.counts.retain leaf.list).perm (List.perm_append_singleton _ _).symm
  · rw [heldLists_append]
    exact List.append_subset.mpr ⟨List.Subset.refl _, List.cons_subset.mpr ⟨hheld, List.nil_subset _⟩⟩

/-- Leaves that are united, or added to what was united before, are held by the composite. -/
lemma unite {left right : Nat} {first second : HeldLeaf}
    (hfirst : Shelved.leafNamed pool.sets left = some first) (hpattern : first.pattern = pattern)
    (hsecond : Shelved.leafNamed (pool.sets.set left .gone) right = some second)
    (hpattern' : second.pattern = pattern) :
    ∃ later, pool.unite left right first second = some later ∧
      Agrees pattern nameOf later { account with
        sets := (account.sets.set left .gone).set right .gone ++
          [.composite [first.named pool.memory.records nameOf,
            second.named pool.memory.records nameOf]] } := by
  have hmoved := heldLists_perm (Shelved.leafNamed_eq_some hfirst)
  have hmoved' := heldLists_perm (Shelved.leafNamed_eq_some hsecond)
  have hempty : CompositeAgrees pattern pool.memory.records nameOf (.empty first.pattern) [] := by
    rw [hpattern]
    exact .empty
  obtain ⟨one, memory, hone, hrecords, hagrees, hcounts, hsubset⟩ :=
    hempty.add hpattern (h.counts.perm hmoved)
  have hmany := hcounts.perm (hmoved'.append_left _)
  rw [← hrecords] at hagrees
  obtain ⟨both, memory', hboth, hrecords', hagrees', hcounts', hsubset'⟩ :=
    hagrees.add hpattern' (hmany.perm List.perm_middle)
  rw [hrecords] at hagrees'
  refine ⟨⟨memory', (pool.sets.set left .gone).set right .gone ++ [.composite both]⟩, ?_,
    h.keep (hrecords'.trans hrecords) ?_ ?_ ?_⟩
  · simp only [Pool.unite, Option.bind_eq_bind, hone, Option.bind_some, hboth]
    rfl
  · rw [heldLists_append]
    exact hcounts'.perm List.perm_append_comm
  · rw [heldLists_append]
    calc heldLists ((pool.sets.set left .gone).set right .gone) ++ lists (.composite both)
      _ ⊆ lists (.composite both) ++ heldLists ((pool.sets.set left .gone).set right .gone) :=
        List.perm_append_comm.subset
      _ ⊆ lists (.composite one) ++ heldLists (pool.sets.set left .gone) :=
        List.Subset.trans hsubset' (List.perm_middle.symm.trans (hmoved'.append_left _).symm).subset
      _ ⊆ heldLists pool.sets := List.Subset.trans hsubset hmoved.symm.subset
  · refine List.rel_append (forall₂_set (forall₂_set h.sets left .gone) right .gone) ?_
    exact .cons (.composite hagrees') .nil

/-- A leaf that is added to what was united before is held by the composite. -/
lemma join {name member : Nat} {composite : HeldComposite} {leaf : HeldLeaf}
    {united : List SharedLeaf}
    (hcomposite : Shelved.compositeNamed pool.sets name = some composite)
    (hunited : CompositeAgrees pattern pool.memory.records nameOf composite united)
    (hleaf : Shelved.leafNamed pool.sets member = some leaf) (hpattern : leaf.pattern = pattern) :
    ∃ later, pool.join name member composite leaf = some later ∧
      Agrees pattern nameOf later { account with
        sets := (account.sets.set member .gone).set name
          (.composite (united ++ [leaf.named pool.memory.records nameOf])) } := by
  have hset := Shelved.compositeNamed_eq_some hcomposite
  have hset' := Shelved.leafNamed_eq_some hleaf
  have hne : member ≠ name := by
    rintro rfl
    cases hset.symm.trans hset'
  have hstays : (pool.sets.set member .gone)[name]? = some (.composite composite) := by
    rw [List.getElem?_set_ne hne, hset]
  have hmoved := heldLists_perm hset'
  have htaken := heldLists_perm hstays
  obtain ⟨more, memory, hmore, hrecords, hagrees, hcounts, hsubset⟩ := hunited.add hpattern
    ((h.counts.perm hmoved).perm (htaken.append_left _))
  have hput := heldLists_set_perm hstays (.composite more)
  refine ⟨⟨memory, (pool.sets.set member .gone).set name (.composite more)⟩, ?_,
    h.keep hrecords (hcounts.perm hput.symm) ?_ ?_⟩
  · simp only [Pool.join, Option.bind_eq_bind, hmore, Option.bind_some]
    rfl
  · calc heldLists ((pool.sets.set member .gone).set name (.composite more))
      _ ⊆ lists (.composite more) ++ heldLists ((pool.sets.set member .gone).set name .gone) :=
        hput.subset
      _ ⊆ heldLists pool.sets :=
        List.Subset.trans hsubset (hmoved.trans (htaken.append_left _)).symm.subset
  · exact forall₂_set (forall₂_set h.sets member .gone) name (.composite hagrees)

/-- Names for a leaf on a list that nobody else holds, while all other lists keep theirs. -/
lemma renamed {sets : List HeldSet} {accounts : List AccountSet} (memory : RecordMemory)
    (leaf : HeldLeaf) (hpattern : leaf.pattern = pattern)
    (hsets : List.Forall₂ (SetAgrees pattern pool.memory.records nameOf) sets accounts)
    (hheld : heldLists sets ⊆ heldLists pool.sets) (hlist : leaf.list ∉ heldLists sets)
    (hsame : ∀ list ∈ heldLists sets, memory.records list = pool.memory.records list) :
    let nameOf' := Function.update nameOf leaf.list account.supply.used
    List.Forall₂ (SetAgrees pattern memory.records nameOf') sets accounts ∧
      SetAgrees pattern memory.records nameOf' (.leaf leaf)
        (.leaf ⟨leaf.read memory.records, account.supply.used⟩) ∧
      Named nameOf' (account.supply.used + 1) (leaf.list :: heldLists sets) := by
  refine ⟨forall₂_congr hsets fun list hmem => ⟨hsame list hmem, ?_⟩, ?_,
    (h.named.mono hheld).cons hlist⟩
  · have hne : list ≠ leaf.list := by
      rintro rfl
      exact hlist hmem
    exact Function.update_of_ne hne ..
  · have hself : Function.update nameOf leaf.list account.supply.used leaf.list =
        account.supply.used := Function.update_self ..
    have hagrees : SetAgrees pattern memory.records
        (Function.update nameOf leaf.list account.supply.used) (.leaf leaf) _ := .leaf hpattern
    rwa [HeldLeaf.named, hself] at hagrees

/-- A leaf is made on a free place. -/
lemma make {free : Address} (hfree : pool.memory.holders free = 0) (records : List RecordId)
    (parent : Option Handle) :
    Agrees pattern (Function.update nameOf free account.supply.used)
      ⟨pool.memory.allocate free records, pool.sets ++ [.leaf ⟨pattern, free, parent⟩]⟩
      ⟨⟨account.supply.used + 1⟩,
        account.sets ++ [.leaf ⟨⟨pattern, records, parent⟩, account.supply.used⟩]⟩ := by
  have hlist : free ∉ heldLists pool.sets := h.counts.not_mem hfree
  have hrecords : (pool.memory.allocate free records).records free = records :=
    Function.update_self ..
  obtain ⟨hsets, hleaf, hnamed⟩ := h.renamed (pool.memory.allocate free records)
    ⟨pattern, free, parent⟩ rfl h.sets (List.Subset.refl _) hlist fun list hmem => by
      have hne : list ≠ free := by
        rintro rfl
        exact hlist hmem
      exact Function.update_of_ne hne ..
  rw [HeldLeaf.read, hrecords] at hleaf
  refine ⟨?_, ?_, List.rel_append hsets (.cons hleaf .nil)⟩
  · rw [heldLists_append]
    exact (h.counts.allocate hfree records).perm (List.perm_append_singleton _ _).symm
  · rw [heldLists_append]
    exact hnamed.mono (List.perm_append_singleton _ _).subset

/-- Whether a leaf shares its list is written in the account. -/
lemma not_mem_of_shares {name : Nat} {leaf : HeldLeaf}
    (hleaf : Shelved.leafNamed account.sets name = some (leaf.named pool.memory.records nameOf))
    (halone : account.shares name = false) : leaf.list ∉ heldLists (pool.sets.set name .gone) := by
  intro hmem
  have hname := List.mem_map_of_mem (f := nameOf) hmem
  rw [map_heldLists (forall₂_set h.sets name .gone)] at hname
  obtain ⟨other, hother, hlist⟩ := List.mem_map.mp hname
  unfold Account.shares at halone
  rw [hleaf] at halone
  have hshares := List.any_eq_false.mp halone other hother
  rw [SharedLeaf.sharesRecords, hlist] at hshares
  exact hshares (beq_self_eq_true _)

/-- A leaf gets a record: in the list it has, if it stays on it, and else in a new one. -/
lemma write {moves : Account → Nat → Bool}
    (hmoves : ∀ account name, account.shares name = true → moves account name = true)
    {free : Address} (hfree : pool.memory.holders free = 0) {name : Nat} {leaf : HeldLeaf}
    (hheld : Shelved.leafNamed pool.sets name = some leaf) (hpattern : leaf.pattern = pattern)
    (hleaf : Shelved.leafNamed account.sets name = some (leaf.named pool.memory.records nameOf))
    (record : RecordId) :
    ∃ nameOf', Agrees pattern nameOf' (pool.write free name leaf record)
      (account.write moves name (leaf.named pool.memory.records nameOf) record) := by
  have hset := Shelved.leafNamed_eq_some hheld
  have hperm := heldLists_perm hset
  have hothers := forall₂_set h.sets name .gone
  obtain ⟨hcounts, hnew, hrecords, hsame⟩ := (h.counts.perm hperm).insert hfree record
  have halone := fun hlist => (h.counts.perm hperm).insert_fst free hlist record
  unfold Pool.write Account.write
  generalize pool.memory.insert leaf.list free record = inserted at *
  obtain ⟨list, memory⟩ := inserted
  have hread : HeldLeaf.read memory.records { leaf with list } =
      (leaf.read pool.memory.records).insert record :=
    congrArg (Leaf.mk leaf.pattern · leaf.parent) hrecords
  dsimp only
  split
  · have hfewer := List.Subset.trans (List.subset_append_right _ _) hperm.symm.subset
    obtain ⟨hothers', hagrees, hnamed⟩ :=
      h.renamed memory { leaf with list } hpattern hothers hfewer hnew hsame
    rw [hread] at hagrees
    exact ⟨_, put hset hcounts hnamed hothers' hagrees⟩
  · rename_i hstays
    have hshares : account.shares name = false :=
      Bool.eq_false_iff.mpr fun hshares => hstays (hmoves account name hshares)
    obtain rfl : list = leaf.list := halone (h.not_mem_of_shares hleaf hshares)
    have hagrees : SetAgrees pattern memory.records nameOf (.leaf leaf) _ := .leaf hpattern
    rw [HeldLeaf.named, hread] at hagrees
    have hothers' := forall₂_congr hothers fun other hother => ⟨hsame other hother, rfl⟩
    exact ⟨nameOf, put hset hcounts (h.named.mono hperm.symm.subset) hothers' hagrees⟩

/-- A composite is made to which nothing was added yet. -/
lemma makeComposite : Agrees pattern nameOf ⟨pool.memory, pool.sets ++ [.composite (.empty pattern)]⟩
    { account with sets := account.sets ++ [.composite []] } := by
  have hheld : heldLists (pool.sets ++ [.composite (.empty pattern)]) = heldLists pool.sets :=
    (heldLists_append _ _).trans (List.append_nil _)
  refine h.keep rfl ?_ ?_ (List.rel_append h.sets (.cons (.composite .empty) .nil))
  · rw [hheld]
    exact h.counts
  · rw [hheld]
    exact List.Subset.refl _

/-- The members of a composite that is cloned are held once more. -/
lemma cloneComposite {name : Nat} {composite : HeldComposite} {united : List SharedLeaf}
    (hcomposite : Shelved.compositeNamed pool.sets name = some composite)
    (hunited : CompositeAgrees pattern pool.memory.records nameOf composite united) :
    Agrees pattern nameOf ⟨(lists (.composite composite)).foldl .retain pool.memory,
        pool.sets ++ [.composite composite]⟩
      { account with sets := account.sets ++ [.composite united] } := by
  obtain ⟨hcounts, hrecords⟩ := h.counts.retainAll (lists (.composite composite))
  refine h.keep hrecords ?_ ?_ (List.rel_append h.sets (.cons (.composite hunited) .nil))
  · rw [heldLists_append]
    exact hcounts.perm List.perm_append_comm
  · rw [heldLists_append]
    have hheld := heldLists_perm (Shelved.compositeNamed_eq_some hcomposite)
    exact List.append_subset.mpr ⟨List.Subset.refl _,
      List.Subset.trans (List.subset_append_left _ _) hheld.symm.subset⟩

/-- What is dropped is not held any more. -/
lemma drop {name : Nat} {set : HeldSet} (hset : pool.sets[name]? = some set) :
    Agrees pattern nameOf ⟨set.lists.foldl .release pool.memory, pool.sets.set name .gone⟩
      { account with sets := account.sets.set name .gone } := by
  have hperm := heldLists_perm hset
  obtain ⟨hcounts, hrecords⟩ := (h.counts.perm hperm).releaseAll
  exact h.keep hrecords hcounts
    (List.Subset.trans (List.subset_append_right _ _) hperm.symm.subset)
    (forall₂_set h.sets name .gone)

/-- **Memory and account stay in step**: a step is possible in memory if it is in the account, whatever
free place there is, and they agree after it. -/
theorem step {moves : Account → Nat → Bool}
    (hmoves : ∀ account name, account.shares name = true → moves account name = true)
    {free : Address} (hfree : pool.memory.holders free = 0) (next : SetStep) :
    Option.Rel (fun later later' => ∃ nameOf', Agrees pattern nameOf' later later')
      (pool.step pattern free next) (account.step pattern moves next) := by
  cases next with
  | leaf records parent => exact .some ⟨_, h.make hfree records parent⟩
  | withParent source parent =>
    refine rel_bind (h.leafAt_eq source) fun leaf shared _ _ hagrees => ?_
    obtain ⟨hpattern, hheld, rfl⟩ := hagrees
    exact .some ⟨nameOf, h.keepLeaf { leaf with parent } hpattern hheld⟩
  | cloneLeaf source =>
    refine rel_bind (h.leafAt_eq source) fun leaf shared _ _ hagrees => ?_
    obtain ⟨hpattern, hheld, rfl⟩ := hagrees
    exact .some ⟨nameOf, h.keepLeaf leaf hpattern hheld⟩
  | cloneComposite name =>
    refine rel_bind (rel_compositeNamed h.sets name) fun composite united hheld _ hagrees => ?_
    exact .some ⟨nameOf, h.cloneComposite hheld hagrees⟩
  | insert name record =>
    refine rel_bind (rel_leafNamed h.sets name) fun leaf shared hheld hleaf hagrees => ?_
    obtain ⟨hpattern, rfl⟩ := hagrees
    exact .some (h.write hmoves hfree hheld hpattern hleaf record)
  | union left right =>
    have hmoved := forall₂_set h.sets left .gone
    refine rel_bind (rel_leafNamed h.sets left) fun first shared hfirst _ hagrees => ?_
    refine rel_bind (rel_leafNamed hmoved right) fun second shared' hsecond _ hagrees' => ?_
    obtain ⟨hpattern, rfl⟩ := hagrees
    obtain ⟨hpattern', rfl⟩ := hagrees'
    obtain ⟨later, hlater, hafter⟩ := h.unite hfirst hpattern hsecond hpattern'
    rw [hlater]
    exact .some ⟨nameOf, hafter⟩
  | composite => exact .some ⟨nameOf, h.makeComposite⟩
  | add name member =>
    refine rel_bind (rel_compositeNamed h.sets name) fun composite united hheld _ hunited => ?_
    refine rel_bind (rel_leafNamed h.sets member) fun leaf shared hleaf _ hagrees => ?_
    obtain ⟨hpattern, rfl⟩ := hagrees
    obtain ⟨later, hlater, hafter⟩ := h.join hheld hunited hleaf hpattern
    rw [hlater]
    exact .some ⟨nameOf, hafter⟩
  | drop name =>
    refine rel_bind (rel_getElem? h.sets name) fun set accounted hset _ _ => ?_
    exact .some ⟨nameOf, h.drop hset⟩

lemma read_eq (name : Nat) : pool.read name = account.read pattern name := by
  have hrel := rel_getElem? h.sets name
  unfold Pool.read Account.read
  generalize pool.sets[name]? = set at hrel ⊢
  generalize account.sets[name]? = accounted at hrel ⊢
  cases hrel with
  | none => rfl
  | some hset =>
    cases hset with
    | gone | leaf => rfl
    | composite hagrees =>
      exact congrArg (fun composite => some (Shelved.composite composite)) hagrees.read_eq

/-- Two leaves share a list in memory exactly if they are on one list in the account. -/
lemma sharesAt_eq (place other : LeafPlace) :
    pool.sharesAt place other = account.sharesAt place other := by
  have hat := h.leafAt_eq place
  have hat' := h.leafAt_eq other
  unfold Pool.sharesAt Account.sharesAt
  generalize pool.leafAt place = leaf, account.leafAt place = told at hat ⊢
  generalize pool.leafAt other = leaf', account.leafAt other = told' at hat' ⊢
  cases hat with
  | none => rfl
  | some hagrees =>
    cases hat' with
    | none => rfl
    | some hagrees' =>
      obtain ⟨-, hheld, rfl⟩ := hagrees
      obtain ⟨-, hheld', rfl⟩ := hagrees'
      refine congrArg some (Bool.eq_iff_iff.mpr ?_)
      rw [HeldLeaf.sharesRecords, SharedLeaf.sharesRecords, beq_iff_eq, beq_iff_eq]
      exact ⟨congrArg nameOf, h.named.inj _ hheld _ hheld'⟩

end Agrees

lemma agrees_start (pattern : TriplePattern) :
    Agrees pattern (fun _ => 0) Pool.start Account.start where
  counts := .empty
  named := {
    lt := fun _ hlist => nomatch hlist
    inj := fun _ hlist => nomatch hlist }
  sets := .nil

section

variable {pattern : TriplePattern} (moves : Account → Nat → Bool)
  (hmoves : ∀ account name, account.shares name = true → moves account name = true)
  {steps : List SetStep}

include hmoves

/-- **Every history has an account**, with which memory agrees. -/
theorem Pool.MadeBy.exists_account {pool : Pool} (h : Pool.MadeBy pattern steps pool) :
    ∃ account nameOf, Account.after pattern moves steps = some account ∧
      Agrees pattern nameOf pool account := by
  induction h with
  | start => exact ⟨_, _, rfl, agrees_start pattern⟩
  | @step steps pool later next free _ hfree hstep ih =>
    obtain ⟨account, nameOf, hafter, hagrees⟩ := ih
    have hrel := hagrees.step hmoves hfree next
    rw [hstep] at hrel
    obtain ⟨account', hnext, nameOf', hlater⟩ := exists_of_rel_some hrel
    refine ⟨account', nameOf', ?_, hlater⟩
    rw [Account.after_concat, hafter]
    exact hnext

/-- **What can be told can be done.** -/
theorem Pool.exists_madeBy {account : Account} (h : Account.after pattern moves steps = some account) :
    ∃ pool, Pool.MadeBy pattern steps pool := by
  induction steps using List.reverseRecOn generalizing account with
  | nil => exact ⟨Pool.start, .start⟩
  | append_singleton steps next ih =>
    rw [Account.after_concat] at h
    obtain ⟨before, hbefore, hnext⟩ := Option.bind_eq_some_iff.mp h
    obtain ⟨pool, hpool⟩ := ih hbefore
    obtain ⟨account', nameOf, hafter, hagrees⟩ := hpool.exists_account moves hmoves
    obtain rfl := Option.some.inj (hbefore.symm.trans hafter)
    obtain ⟨free, hfree⟩ := hagrees.counts.exists_free
    have hpossible := isSome_of_rel (hagrees.step hmoves hfree next)
    rw [hnext] at hpossible
    obtain ⟨later, hstep⟩ := Option.isSome_iff_exists.mp hpossible
    exact ⟨later, .step free hpool hfree hstep⟩

end

/-- A record that is inserted is read at the end of that leaf's records, and nowhere else. -/
lemma Account.read_of_insert {pattern : TriplePattern} {moves : Account → Nat → Bool}
    {account later : Account} {name : Nat} {record : RecordId}
    (h : account.step pattern moves (.insert name record) = some later) :
    (∃ leaf, account.read pattern name = some (.leaf leaf) ∧
      later.read pattern name = some (.leaf (leaf.insert record))) ∧
    ∀ other ≠ name, later.read pattern other = account.read pattern other := by
  obtain ⟨leaf, hleaf, hlater⟩ := Option.bind_eq_some_iff.mp h
  obtain rfl := Option.some.inj hlater
  have hset := Shelved.leafNamed_eq_some hleaf
  have hlt := (List.getElem?_eq_some_iff.mp hset).1
  obtain ⟨written, hwritten, hsets⟩ : ∃ written : SharedLeaf,
      written.leaf = leaf.leaf.insert record ∧
        (account.write moves name leaf record).sets = account.sets.set name (.leaf written) := by
    unfold Account.write
    split
    · exact ⟨_, rfl, rfl⟩
    · exact ⟨_, rfl, rfl⟩
  refine ⟨⟨leaf.leaf, ?_, ?_⟩, fun other hother => ?_⟩
  · rw [Account.read, hset]
    rfl
  · rw [Account.read, hsets, List.getElem?_set_self hlt, ← hwritten]
    rfl
  · rw [Account.read, Account.read, hsets, List.getElem?_set_ne (Ne.symm hother)]

/-- A composite has no empty member, counts its candidates, and gives those of the leaves that were
united, in their order. -/
lemma Account.composite_of_read {pattern : TriplePattern} {account : Account} {name : Nat}
    {composite : Composite} (h : account.read pattern name = some (.composite composite)) :
    ∃ united, account.sets[name]? = some (.composite united) ∧
      (∀ member ∈ composite.members, member.records ≠ []) ∧
      composite.size = composite.candidates.length ∧
      composite.intoCandidates = composite.candidates ∧
      composite.candidates = united.flatMap fun leaf =>
        leaf.leaf.records.map fun record => ⟨record, leaf.leaf.parent⟩ := by
  obtain ⟨set, hset, hread⟩ := Option.map_eq_some_iff.mp h
  cases set with
  | gone | leaf => cases hread
  | composite united =>
    obtain rfl := Shelved.composite.inj hread
    obtain ⟨hmembers, hsize, hcandidates⟩ :=
      Composite.ofLeaves_spec pattern (united.map SharedLeaf.leaf)
    refine ⟨united, hset, fun member hmember => ?_, hsize, Composite.intoCandidates_eq _, ?_⟩
    · rw [hmembers] at hmember
      simpa using (List.mem_filter.mp hmember).2
    · rw [hcandidates, List.flatMap_map]
      rfl

/-- **Candidate sets enumerate what they count, and sharing is isolated.**  Take any steps on leaves of
one pattern, whatever free places memory gives.  They have an account, in which a leaf that gets a
record leaves its list for a new one if it shares it, and every set reads as it says there.  A composite
has no empty member, counts its matches, and gives the same ones either way: the records of the leaves
that were united, as they were then, in that order and each with its own leaf's parent.  Two leaves,
members of composites or not, share their records exactly if they are on one list in the account.  A
record that is inserted is added to that leaf, and every other set reads as before.  Memory always has a
free place, and with it a step can be taken if it can in the account.  All this would be the same if a
leaf took a new list for every record. -/
theorem sets_enumerate_and_share {pattern : TriplePattern} {steps : List SetStep} {pool : Pool}
    (h : Pool.MadeBy pattern steps pool) :
    ∃ account, Account.after pattern Account.shares steps = some account ∧
      (∀ name, pool.read name = account.read pattern name) ∧
      (∀ name composite, pool.read name = some (.composite composite) →
        ∃ united, account.sets[name]? = some (.composite united) ∧
          (∀ member ∈ composite.members, member.records ≠ []) ∧
          composite.size = composite.candidates.length ∧
          composite.intoCandidates = composite.candidates ∧
          composite.candidates = united.flatMap fun leaf =>
            leaf.leaf.records.map fun record => ⟨record, leaf.leaf.parent⟩) ∧
      (∀ name leaf, pool.read name = some (.leaf leaf) →
        leaf.size = leaf.candidates.length ∧ leaf.intoCandidates = leaf.candidates) ∧
      (∀ place other, pool.sharesAt place other = account.sharesAt place other) ∧
      (∀ name record free later, pool.memory.holders free = 0 →
        pool.step pattern free (.insert name record) = some later →
          (∃ leaf, pool.read name = some (.leaf leaf) ∧
            later.read name = some (.leaf (leaf.insert record))) ∧
          ∀ other ≠ name, later.read other = pool.read other) ∧
      (∃ free, pool.memory.holders free = 0) ∧
      (∀ next free, pool.memory.holders free = 0 →
        (pool.step pattern free next).isSome =
          (account.step pattern Account.shares next).isSome) ∧
      ∃ renamed, Account.after pattern (fun _ _ => true) steps = some renamed ∧
        (∀ name, pool.read name = renamed.read pattern name) ∧
        ∀ place other, pool.sharesAt place other = renamed.sharesAt place other := by
  obtain ⟨account, nameOf, hafter, hagrees⟩ := h.exists_account Account.shares fun _ _ hshares => hshares
  obtain ⟨renamed, nameOf', hafter', hagrees'⟩ :=
    h.exists_account (fun _ _ => true) fun _ _ _ => rfl
  refine ⟨account, hafter, hagrees.read_eq, fun name composite hread => ?_, fun name leaf _ => ?_,
    hagrees.sharesAt_eq, fun name record free later hfree hstep => ?_, hagrees.counts.exists_free,
    fun next free hfree => ?_, renamed, hafter', hagrees'.read_eq, hagrees'.sharesAt_eq⟩
  · exact Account.composite_of_read (hagrees.read_eq name ▸ hread)
  · exact ⟨(List.length_map _).symm, leaf.intoCandidates_eq⟩
  · have hrel := hagrees.step (fun _ _ hshares => hshares) hfree (.insert name record)
    rw [hstep] at hrel
    obtain ⟨account', hnext, _, hlater⟩ := exists_of_rel_some hrel
    simp only [hlater.read_eq, hagrees.read_eq]
    exact Account.read_of_insert hnext
  · exact isSome_of_rel (hagrees.step (fun _ _ hshares => hshares) hfree next)

/-- A leaf is put under two bindings and both are added to a composite, the first before and the second
after the leaf itself got a record and so left the list; a leaf without records is added between them.
The second member is cloned, and the leaf, alone on its list now, gets one record more. -/
theorem sets_enumerate_and_share_parted :
    let pattern : TriplePattern := ⟨.var ⟨"s"⟩, .var ⟨"p"⟩, .var ⟨"o"⟩⟩
    let steps : List SetStep := [.leaf [⟨0, 1⟩, ⟨0, 2⟩] none, .withParent ⟨0, 0⟩ (some ⟨0⟩),
      .withParent ⟨0, 0⟩ (some ⟨1⟩), .leaf [] none, .composite, .add 4 1, .add 4 3,
      .insert 0 ⟨0, 9⟩, .add 4 2, .cloneLeaf ⟨4, 1⟩, .insert 0 ⟨0, 8⟩]
    ∃ pool, Pool.MadeBy pattern steps pool ∧
      pool.read 0 = some (.leaf ⟨pattern, [⟨0, 1⟩, ⟨0, 2⟩, ⟨0, 9⟩, ⟨0, 8⟩], none⟩) ∧
      (∃ composite, pool.read 4 = some (.composite composite) ∧ composite.size = 4 ∧
        composite.intoCandidates = [⟨⟨0, 1⟩, some ⟨0⟩⟩, ⟨⟨0, 2⟩, some ⟨0⟩⟩, ⟨⟨0, 1⟩, some ⟨1⟩⟩,
          ⟨⟨0, 2⟩, some ⟨1⟩⟩]) ∧
      pool.sharesAt ⟨4, 0⟩ ⟨5, 0⟩ = some true ∧ pool.sharesAt ⟨4, 0⟩ ⟨0, 0⟩ = some false := by
  intro pattern steps
  let first : SharedLeaf := ⟨⟨pattern, [⟨0, 1⟩, ⟨0, 2⟩], some ⟨0⟩⟩, 0⟩
  let second : SharedLeaf := ⟨⟨pattern, [⟨0, 1⟩, ⟨0, 2⟩], some ⟨1⟩⟩, 0⟩
  have htold : Account.after pattern Account.shares steps = some ⟨⟨3⟩, [
      .leaf ⟨⟨pattern, [⟨0, 1⟩, ⟨0, 2⟩, ⟨0, 9⟩, ⟨0, 8⟩], none⟩, 2⟩, .gone, .gone, .gone,
      .composite [first, ⟨⟨pattern, [], none⟩, 1⟩, second], .leaf second]⟩ := by cbv
  obtain ⟨pool, hpool⟩ := Pool.exists_madeBy Account.shares (fun _ _ hshares => hshares) htold
  obtain ⟨account, hafter, hread, hcomposites, -, hshares, -⟩ := sets_enumerate_and_share hpool
  obtain rfl := Option.some.inj (htold.symm.trans hafter)
  have hunited : pool.read 4 = some (.composite _) := hread 4
  obtain ⟨united, hset, -, hsize, hinto, hcandidates⟩ := hcomposites 4 _ hunited
  obtain rfl := Shelved.composite.inj (Option.some.inj hset)
  rw [hcandidates] at hsize hinto
  exact ⟨pool, hpool, hread 0, ⟨_, hunited, hsize, hinto⟩, hshares _ _, hshares _ _⟩

end QuadStore
