import Mathlib
import QuadStore.Proofs.BuildingPredicates

/-!
# Languages asked for at the same time

The cache of languages is shared by all who build predicates, and a call for a language takes its lock
twice at most: once to look the language up, and again to put it in if it was not there.  Whatever is
done under the lock is done at once, but between the two sections of one call any others may take
theirs.  So several calls may miss the same language, and those that come to put it in after the first
find it there.

`SharedCache.Step` is one such section, or a new call, and a `SharedCache.Run` is any number of them in
any order.  What a run keeps is that the cache holds the languages of the calls that were answered, each
once and with its own predicate (`SharedCache.Exact`).  As calls made one after the other are a run as
well (`SharedCache.exists_run_inTurn`), nothing can be told from the cache but which calls were answered.
-/

namespace QuadStore

/-! ## Putting a language in -/

namespace LanguageCache

variable (cache : LanguageCache) (key : String) (predicate : Predicate)

lemma find?_insertNew (other : String) : (cache.insertNew key predicate).find? other =
    (cache.find? other).or (if other = key then some predicate else none) := by
  unfold insertNew
  cases hfind : cache.find? key with
  | some cached =>
    by_cases hother : other = key
    · rw [hother, hfind, Option.some_or]
    · rw [if_neg hother, Option.or_none]
  | none =>
    show (cache.entries ++ [(key, predicate)]).lookup other = _
    rw [List.lookup_append, List.lookup_cons]
    by_cases hother : other = key
    · simp [hother, find?]
    · simp [hother, beq_eq_false_iff_ne.mpr hother, find?]

lemma size_insertNew : (cache.insertNew key predicate).size =
    if cache.find? key = none then cache.size + 1 else cache.size := by
  unfold insertNew
  cases hfind : cache.find? key with
  | some cached => simp
  | none => simp [size]

lemma prefix_insertNew : cache.entries <+: (cache.insertNew key predicate).entries := by
  unfold insertNew
  split
  · exact List.prefix_refl _
  · exact List.prefix_append _ _

end LanguageCache

/-! ## Calls and their steps -/

/-- How far a call has come. -/
inductive CallPhase where
  /-- Its language is still to be looked up. -/
  | asked
  /-- Its language was looked up in vain. -/
  | missed
  | answered (predicate : Predicate)

/-- A call for the predicate of a tag's language. -/
structure LanguageCall where
  tag : Option String
  phase : CallPhase

namespace LanguageCall

/-- The language that is asked for. -/
def key (call : LanguageCall) : String := LanguageCache.key call.tag

/-- What the call has returned. -/
def answer? (call : LanguageCall) : Option Predicate :=
  match call.phase with
  | .answered predicate => some predicate
  | _ => none

/-- How many steps the call has before it at most. -/
def stepsLeft (call : LanguageCall) : Nat :=
  match call.phase with
  | .asked => 2
  | .missed => 1
  | .answered _ => 0

lemma stepsLeft_pos {call : LanguageCall} (h : call.answer? = none) : 0 < call.stepsLeft := by
  obtain ⟨tag, phase⟩ := call
  cases phase with
  | asked => exact Nat.two_pos
  | missed => exact Nat.one_pos
  | answered predicate => cases h

end LanguageCall

/-- A new call, or a section of a call under the lock.  Calls are numbered as they are made. -/
inductive CacheEvent where
  | ask (tag : Option String)
  | read (call : Nat)
  | write (call : Nat)
  deriving DecidableEq

/-- Whether an event is a step of the call with a number. -/
def CacheEvent.isStepOf (number : Nat) : CacheEvent → Bool
  | ask _ => false
  | read call => call == number
  | write call => call == number

/-- A cache with all calls that were made to it. -/
structure SharedCache where
  cache : LanguageCache
  calls : List LanguageCall

namespace SharedCache

/-- The cache before anyone has called. -/
def start : SharedCache := ⟨.empty, []⟩

/-- What can happen next. -/
inductive Step : SharedCache → CacheEvent → SharedCache → Prop
  | ask (shared : SharedCache) (tag : Option String) :
    Step shared (.ask tag) { shared with calls := shared.calls ++ [⟨tag, .asked⟩] }
  | found {shared : SharedCache} {number : Nat} {tag : Option String} {cached : Predicate}
    (hcall : shared.calls[number]? = some ⟨tag, .asked⟩)
    (hfind : shared.cache.find? (LanguageCache.key tag) = some cached) :
    Step shared (.read number)
      { shared with calls := shared.calls.set number ⟨tag, .answered cached⟩ }
  | missed {shared : SharedCache} {number : Nat} {tag : Option String}
    (hcall : shared.calls[number]? = some ⟨tag, .asked⟩)
    (hfind : shared.cache.find? (LanguageCache.key tag) = none) :
    Step shared (.read number) { shared with calls := shared.calls.set number ⟨tag, .missed⟩ }
  | written {shared : SharedCache} {number : Nat} {tag : Option String}
    (hcall : shared.calls[number]? = some ⟨tag, .missed⟩) :
    -- The call returns the predicate it has made, also where the entry is that of another call.
    Step shared (.write number)
      { cache := shared.cache.insertNew (LanguageCache.key tag)
          (LanguageCache.predicateOf (LanguageCache.key tag))
        calls := shared.calls.set number
          ⟨tag, .answered (LanguageCache.predicateOf (LanguageCache.key tag))⟩ }

/-- Any number of steps, in any order. -/
inductive Run (shared : SharedCache) : List CacheEvent → SharedCache → Prop
  | refl : Run shared [] shared
  | step {events : List CacheEvent} {reached later : SharedCache} {event : CacheEvent}
    (h : Run shared events reached) (hstep : Step reached event later) :
    Run shared (events ++ [event]) later

variable {shared later : SharedCache} {event : CacheEvent} {number : Nat} {tag : Option String}

/-! ## Calls return -/

/-- A call that has not returned can go on, whatever the others have done. -/
lemma exists_step {call : LanguageCall} (hcall : shared.calls[number]? = some call)
    (hunanswered : call.answer? = none) :
    ∃ event later, event.isStepOf number = true ∧ Step shared event later := by
  have hread : (CacheEvent.read number).isStepOf number = true := beq_self_eq_true number
  have hwrite : (CacheEvent.write number).isStepOf number = true := beq_self_eq_true number
  obtain ⟨tag, phase⟩ := call
  cases phase with
  | asked =>
    cases hfind : shared.cache.find? (LanguageCache.key tag) with
    | some cached => exact ⟨.read number, _, hread, .found hcall hfind⟩
    | none => exact ⟨.read number, _, hread, .missed hcall hfind⟩
  | missed => exact ⟨.write number, _, hwrite, .written hcall⟩
  | answered predicate => cases hunanswered

/-- How many steps the call with a number has before it at most, if it is made at all. -/
def stepsLeft (shared : SharedCache) (number : Nat) : Nat :=
  shared.calls[number]?.elim 2 LanguageCall.stepsLeft

lemma stepsLeft_set {call : LanguageCall} (next : LanguageCall)
    (hcall : shared.calls[number]? = some call)
    (hless : next.stepsLeft < call.stepsLeft) (cache : LanguageCache) (other : Nat) :
    (if (number == other) = true then 1 else 0) +
      stepsLeft ⟨cache, shared.calls.set number next⟩ other ≤ shared.stepsLeft other := by
  have hlt : number < shared.calls.length := (List.getElem?_eq_some_iff.mp hcall).1
  unfold stepsLeft
  rw [List.getElem?_set, if_pos hlt]
  by_cases hother : number = other
  · subst hother
    rw [if_pos (beq_self_eq_true number), if_pos rfl, hcall, Option.elim_some, Option.elim_some]
    omega
  · rw [if_neg (by simpa using hother), if_neg hother, Nat.zero_add]

/-- A step is one less for the call that takes it. -/
lemma Step.stepsLeft_le (h : Step shared event later) (other : Nat) :
    (if event.isStepOf other = true then 1 else 0) + later.stepsLeft other ≤
      shared.stepsLeft other := by
  cases h with
  | ask tag =>
    rw [CacheEvent.isStepOf, if_neg Bool.false_ne_true, Nat.zero_add]
    unfold stepsLeft
    rw [List.getElem?_append]
    split
    · exact Nat.le_refl _
    · rename_i hlt
      rw [List.getElem?_eq_none (Nat.le_of_not_lt hlt), List.getElem?_singleton]
      split <;> exact Nat.le_refl _
  | @found number tag cached hcall _ =>
    exact stepsLeft_set ⟨tag, .answered cached⟩ hcall Nat.two_pos _ other
  | @missed number tag hcall _ =>
    exact stepsLeft_set ⟨tag, .missed⟩ hcall Nat.one_lt_two _ other
  | @written number tag hcall =>
    exact stepsLeft_set ⟨tag, .answered _⟩ hcall Nat.one_pos _ other

/-- **No call takes more than two steps.** -/
theorem Run.countP_le {events : List CacheEvent} (h : Run start events shared) (number : Nat) :
    events.countP (·.isStepOf number) + shared.stepsLeft number ≤ 2 := by
  induction h with
  | refl => exact Nat.le_refl 2
  | step _ hstep ih =>
    have hless := hstep.stepsLeft_le number
    rw [List.countP_append, List.countP_singleton]
    omega

/-! ## What the cache holds -/

/-- The languages of the calls that have returned. -/
def answeredKeys (shared : SharedCache) : Finset String :=
  ((shared.calls.filter (·.answer?.isSome)).map LanguageCall.key).toFinset

lemma answeredKeys_append (shared : SharedCache) (cache : LanguageCache) (call : LanguageCall) :
    answeredKeys ⟨cache, shared.calls ++ [call]⟩ =
      if call.answer?.isSome then insert call.key shared.answeredKeys else shared.answeredKeys := by
  unfold answeredKeys
  rw [List.filter_append, List.map_append, List.toFinset_append]
  split <;> rename_i hanswered
  · simp [hanswered]
  · simp [hanswered]

/-- Where a call goes on that has not returned, its language comes to the others if it returns now. -/
lemma answeredKeys_set {call : LanguageCall} (hcall : shared.calls[number]? = some call)
    (hunanswered : call.answer? = none) (cache : LanguageCache) (next : LanguageCall) :
    answeredKeys ⟨cache, shared.calls.set number next⟩ =
      if next.answer?.isSome then insert next.key shared.answeredKeys else shared.answeredKeys := by
  obtain ⟨hlt, rfl⟩ := List.getElem?_eq_some_iff.mp hcall
  have hbefore := (List.getElem_cons_eraseIdx_perm hlt).symm
  have hafter := List.set_perm_cons_eraseIdx hlt next
  unfold answeredKeys
  rw [List.toFinset_eq_of_perm _ _ ((hbefore.filter _).map _),
    List.toFinset_eq_of_perm _ _ ((hafter.filter _).map _)]
  split <;> rename_i hanswered
  · simp [hunanswered, hanswered]
  · simp [hunanswered, hanswered]

/-- The cache holds the languages of the calls that have returned, each once and with its predicate,
which is also what the calls have returned. -/
structure Exact (shared : SharedCache) : Prop where
  find?_eq : ∀ key, shared.cache.find? key =
    if key ∈ shared.answeredKeys then some (LanguageCache.predicateOf key) else none
  size_eq : shared.cache.size = shared.answeredKeys.card
  answer_eq : ∀ call ∈ shared.calls, ∀ predicate ∈ call.answer?,
    predicate = LanguageCache.predicateOf call.key

namespace Exact

lemma start : start.Exact where
  find?_eq _ := rfl
  size_eq := rfl
  answer_eq := by
    intro call hcall
    cases hcall

/-- A call returns and its language is put in, unless it is there. -/
lemma answer (h : shared.Exact) {phase : CallPhase}
    (hcall : shared.calls[number]? = some ⟨tag, phase⟩)
    (hunanswered : (LanguageCall.mk tag phase).answer? = none) :
    Exact ⟨shared.cache.insertNew (LanguageCache.key tag)
        (LanguageCache.predicateOf (LanguageCache.key tag)),
      shared.calls.set number
        ⟨tag, .answered (LanguageCache.predicateOf (LanguageCache.key tag))⟩⟩ where
  find?_eq key := by
    rw [LanguageCache.find?_insertNew, h.find?_eq, answeredKeys_set hcall hunanswered]
    by_cases hkey : key = LanguageCache.key tag
    · subst hkey
      by_cases hmem : LanguageCache.key tag ∈ shared.answeredKeys
      · simp [LanguageCall.answer?, LanguageCall.key, hmem]
      · simp [LanguageCall.answer?, LanguageCall.key, hmem]
    · simp [LanguageCall.answer?, LanguageCall.key, hkey]
  size_eq := by
    rw [LanguageCache.size_insertNew, h.find?_eq, answeredKeys_set hcall hunanswered, h.size_eq]
    by_cases hkey : LanguageCache.key tag ∈ shared.answeredKeys
    · simp [LanguageCall.answer?, LanguageCall.key, hkey]
    · simp [LanguageCall.answer?, LanguageCall.key, hkey]
  answer_eq := by
    intro call hmem predicate hpredicate
    rcases List.mem_or_eq_of_mem_set hmem with hold | rfl
    · exact h.answer_eq call hold predicate hpredicate
    · exact (Option.some.inj hpredicate).symm

end Exact

/-- **Every step keeps the cache exact.** -/
theorem Step.exact (hstep : Step shared event later) (h : shared.Exact) : later.Exact := by
  cases hstep with
  | ask tag =>
    have hkeys := answeredKeys_append shared shared.cache ⟨tag, .asked⟩
    refine ⟨fun key => ?_, ?_, fun call hmem predicate hpredicate => ?_⟩
    · rw [hkeys]
      exact h.find?_eq key
    · rw [hkeys]
      exact h.size_eq
    · rcases List.mem_append.mp hmem with hold | hnew
      · exact h.answer_eq call hold predicate hpredicate
      · obtain rfl := List.mem_singleton.mp hnew
        cases hpredicate
  | @found number tag cached hcall hfind =>
    have hentry := h.find?_eq (LanguageCache.key tag)
    rw [hfind] at hentry
    split at hentry
    · obtain rfl := Option.some.inj hentry
      -- The call would not change the cache if it put the language in once more.
      have hanswer := h.answer hcall rfl
      rwa [LanguageCache.insertNew, hfind] at hanswer
    · cases hentry
  | @missed number tag hcall hfind =>
    have hkeys := answeredKeys_set hcall rfl shared.cache ⟨tag, .missed⟩
    refine ⟨fun key => ?_, ?_, fun call hmem predicate hpredicate => ?_⟩
    · rw [hkeys]
      exact h.find?_eq key
    · rw [hkeys]
      exact h.size_eq
    · rcases List.mem_or_eq_of_mem_set hmem with hold | rfl
      · exact h.answer_eq call hold predicate hpredicate
      · cases hpredicate
  | written hcall => exact h.answer hcall rfl

theorem Run.exact {events : List CacheEvent} (hrun : Run shared events later) (h : shared.Exact) :
    later.Exact := by
  induction hrun with
  | refl => exact h
  | step _ hstep ih => exact hstep.exact ih

/-- **Entries stay**, each at its place. -/
theorem Run.prefix_entries {events : List CacheEvent} (h : Run shared events later) :
    shared.cache.entries <+: later.cache.entries := by
  induction h with
  | refl => exact List.prefix_refl _
  | step _ hstep ih =>
    refine ih.trans ?_
    cases hstep with
    | ask | found | missed => exact List.prefix_refl _
    | written => exact LanguageCache.prefix_insertNew _ _ _

/-! ## Calls one after the other -/

/-- A call that no other interferes with. -/
lemma Run.exists_alone {events : List CacheEvent} (h : Run shared events later)
    (tag : Option String) : ∃ events, Run shared events
      ⟨(later.cache.predicate tag).2,
        later.calls ++ [⟨tag, .answered (later.cache.predicate tag).1⟩]⟩ := by
  have hcall : (later.calls ++ [(⟨tag, .asked⟩ : LanguageCall)])[later.calls.length]? =
      some ⟨tag, .asked⟩ := by simp
  have hask := h.step (.ask later tag)
  unfold LanguageCache.predicate
  cases hfind : later.cache.find? (LanguageCache.key tag) with
  | some cached => exact ⟨_, by simpa using hask.step (.found hcall hfind)⟩
  | none =>
    have hmissed := hask.step (.missed hcall hfind)
    have hcall' : ((later.calls ++ [(⟨tag, .asked⟩ : LanguageCall)]).set later.calls.length
        ⟨tag, .missed⟩)[later.calls.length]? = some ⟨tag, .missed⟩ := by simp
    exact ⟨_, by simpa using hmissed.step (.written hcall')⟩

/-- **Calls made one after the other** are a run, in which all return. -/
theorem exists_run_inTurn (tags : List (Option String)) : ∃ events shared, Run start events shared ∧
    shared.cache = tags.foldl (fun cache tag => (cache.predicate tag).2) .empty ∧
    shared.answeredKeys = (tags.map LanguageCache.key).toFinset := by
  induction tags using List.reverseRecOn with
  | nil => exact ⟨[], start, .refl, rfl, rfl⟩
  | append_singleton tags tag ih =>
    obtain ⟨events, shared, hrun, hcache, hkeys⟩ := ih
    obtain ⟨more, hmore⟩ := hrun.exists_alone tag
    refine ⟨more, _, hmore, ?_, ?_⟩
    · rw [List.foldl_append, ← hcache]
      rfl
    · rw [answeredKeys_append, hkeys, List.map_append, List.toFinset_append]
      simp [LanguageCall.answer?, LanguageCall.key]

/-- The calls that have returned would have made the same cache one after the other. -/
theorem Exact.eq_inTurn (h : shared.Exact) {tags : List (Option String)}
    (htags : tags.Perm ((shared.calls.filter (·.answer?.isSome)).map LanguageCall.tag)) :
    let inTurn := tags.foldl (fun cache tag => (cache.predicate tag).2) LanguageCache.empty
    (∀ key, inTurn.find? key = shared.cache.find? key) ∧ inTurn.size = shared.cache.size := by
  obtain ⟨_, turned, hrun, hcache, hkeys⟩ := exists_run_inTurn tags
  have hturned := hrun.exact .start
  have hsame : turned.answeredKeys = shared.answeredKeys := by
    rw [hkeys, List.toFinset_eq_of_perm _ _ (htags.map LanguageCache.key), List.map_map]
    rfl
  rw [← hcache]
  refine ⟨fun key => ?_, ?_⟩
  · rw [hturned.find?_eq, h.find?_eq, hsame]
  · rw [hturned.size_eq, h.size_eq, hsame]

/-- Once all calls have returned, theirs are all languages that were asked for. -/
lemma answeredKeys_eq (h : ∀ call ∈ shared.calls, call.answer?.isSome) :
    shared.answeredKeys = (shared.calls.map LanguageCall.key).toFinset := by
  unfold answeredKeys
  rw [List.filter_eq_self.mpr h]

/-- **Languages can be asked for at the same time.**  Take any calls, some of them perhaps not finished,
and any order of their steps.  A call that has returned has returned the predicate of its language, and
one that has not can take its next step and has taken no two.  Every entry of the cache is the predicate
of its language; it stays, and stays where it is, whatever happens later.  The cache is what the calls
that have returned would have made of it one after the other, in any order; so once all have, it has as
many entries as there are languages that were asked for. -/
theorem lookups_transparent {events : List CacheEvent} (h : Run start events shared) :
    (∀ call ∈ shared.calls, ∀ predicate ∈ call.answer?,
      predicate = .text .objectLanguage (LanguageCache.key call.tag)) ∧
    (∀ number call, shared.calls[number]? = some call → call.answer? = none →
      events.countP (·.isStepOf number) < 2 ∧
      ∃ event later, event.isStepOf number = true ∧ Step shared event later) ∧
    (∀ key predicate, shared.cache.find? key = some predicate →
      predicate = .text .objectLanguage key ∧
      ∀ more later, Run shared more later → later.cache.find? key = some predicate) ∧
    (∀ more later, Run shared more later → shared.cache.entries <+: later.cache.entries) ∧
    (∀ tags : List (Option String),
      tags.Perm ((shared.calls.filter (·.answer?.isSome)).map LanguageCall.tag) →
      let inTurn := tags.foldl (fun cache tag => (cache.predicate tag).2) LanguageCache.empty
      (∀ key, inTurn.find? key = shared.cache.find? key) ∧ inTurn.size = shared.cache.size) ∧
    ((∀ call ∈ shared.calls, call.answer?.isSome) →
      shared.cache.size = (shared.calls.map fun call => LanguageCache.key call.tag).toFinset.card) := by
  have hexact := h.exact .start
  refine ⟨hexact.answer_eq, fun number call hcall hunanswered => ⟨?_, ?_⟩,
    fun key predicate hfind => ⟨?_, fun more later hmore => ?_⟩, fun more later hmore => ?_,
    fun tags htags => ?_, fun hall => ?_⟩
  · have hsteps := h.countP_le number
    have hleft := LanguageCall.stepsLeft_pos hunanswered
    rw [stepsLeft, hcall, Option.elim_some] at hsteps
    omega
  · exact exists_step hcall hunanswered
  · rw [hexact.find?_eq] at hfind
    split at hfind
    · exact (Option.some.inj hfind).symm
    · cases hfind
  · obtain ⟨new, hnew⟩ := hmore.prefix_entries
    rw [LanguageCache.find?, ← hnew, List.lookup_append]
    exact Option.or_eq_some_iff.mpr (.inl hfind)
  · exact hmore.prefix_entries
  · exact hexact.eq_inTurn htags
  · rw [hexact.size_eq, answeredKeys_eq hall]
    rfl

/-- Two calls, one without a tag and one with an empty one, miss their language, which is the same, and
both of them put it in. -/
theorem lookups_transparent_race :
    let noTag : LanguageCall := ⟨none, .answered (.text .objectLanguage noLanguage)⟩
    let emptyTag : LanguageCall := ⟨some "", .answered (.text .objectLanguage noLanguage)⟩
    let english : LanguageCall := ⟨some "en", .answered (.text .objectLanguage "en")⟩
    ∃ cache, Run start [.ask none, .ask (some ""), .ask (some "en"), .read 1, .read 0, .write 0,
        .read 2, .write 1, .write 2] ⟨cache, [noTag, emptyTag, english]⟩ ∧
      cache.find? noLanguage = some (.text .objectLanguage noLanguage) ∧ cache.size = 2 := by
  intro noTag emptyTag english
  have hasked : Run start [.ask none, .ask (some ""), .ask (some "en")]
      ⟨.empty, [⟨none, .asked⟩, ⟨some "", .asked⟩, ⟨some "en", .asked⟩]⟩ :=
    ((Run.refl.step (.ask _ none)).step (.ask _ (some ""))).step (.ask _ (some "en"))
  have hmissed : Run start [.ask none, .ask (some ""), .ask (some "en"), .read 1, .read 0]
      ⟨.empty, [⟨none, .missed⟩, ⟨some "", .missed⟩, ⟨some "en", .asked⟩]⟩ :=
    (hasked.step (@Step.missed _ 1 _ rfl rfl)).step (@Step.missed _ 0 _ rfl rfl)
  have hfirst : Run start [.ask none, .ask (some ""), .ask (some "en"), .read 1, .read 0, .write 0,
        .read 2] ⟨⟨[(noLanguage, .text .objectLanguage noLanguage)]⟩,
        [noTag, ⟨some "", .missed⟩, ⟨some "en", .missed⟩]⟩ :=
    (hmissed.step (@Step.written _ 0 none rfl)).step (@Step.missed _ 2 _ rfl rfl)
  have hsecond : Run start [.ask none, .ask (some ""), .ask (some "en"), .read 1, .read 0, .write 0,
        .read 2, .write 1] ⟨⟨[(noLanguage, .text .objectLanguage noLanguage)]⟩,
        [noTag, emptyTag, ⟨some "en", .missed⟩]⟩ :=
    hfirst.step (@Step.written _ 1 (some "") rfl)
  have hraced : Run start [.ask none, .ask (some ""), .ask (some "en"), .read 1, .read 0, .write 0,
        .read 2, .write 1, .write 2]
      ⟨⟨[(noLanguage, .text .objectLanguage noLanguage), ("en", .text .objectLanguage "en")]⟩,
        [noTag, emptyTag, english]⟩ :=
    hsecond.step (@Step.written _ 2 (some "en") rfl)
  obtain ⟨-, -, -, -, hturned, hsize⟩ := lookups_transparent hraced
  have hfind := (hturned [none, some "", some "en"] (List.Perm.refl _)).1 noLanguage
  refine ⟨_, hraced, hfind.symm.trans rfl, (hsize ?_).trans (by decide)⟩
  simp [noTag, emptyTag, english, LanguageCall.answer?]

end SharedCache

end QuadStore
