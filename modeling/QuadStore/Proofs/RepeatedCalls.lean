import Mathlib.Data.List.Basic
import Mathlib.Tactic.Lemma

/-!
# Calling again and again

A scan gives its records, and the solutions of a query their rows, one to a call.  A caller may go on
calling after the end or after a failure, so what is to be said of all calls has to be said of any number
of them.  `calls` makes that many, whatever they answer.

What one call keeps, all keep (`calls_invariant`).  So if a call that does not give an item ends what is
called, and nothing more comes of what has ended, then the answers are items, perhaps a failure, and then
nothing for good (`exists_answers_of_ends`).
-/

namespace QuadStore

section

variable {ι τ σ : Type} (next : τ → σ → Option ι × τ × σ)

/-- The answers to so many calls in a row, one to each, and what is left after them. -/
def calls : Nat → τ → σ → List (Option ι) × τ × σ
  | 0, called, state => ([], called, state)
  | count + 1, called, state =>
    let (answer, called, state) := next called state
    let (answers, called, state) := calls count called state
    (answer :: answers, called, state)

variable {next}

lemma calls_succ (count : Nat) (called : τ) (state : σ) :
    calls next (count + 1) called state =
      ((next called state).1 :: (calls next count (next called state).2.1 (next called state).2.2).1,
        (calls next count (next called state).2.1 (next called state).2.2).2) := rfl

lemma calls_add (count more : Nat) (called : τ) (state : σ) :
    calls next (count + more) called state =
      ((calls next count called state).1 ++
          (calls next more (calls next count called state).2.1 (calls next count called state).2.2).1,
        (calls next more (calls next count called state).2.1 (calls next count called state).2.2).2) := by
  induction count generalizing called state with
  | zero => simp [calls]
  | succ count ih => rw [Nat.succ_add, calls_succ, ih, calls_succ, List.cons_append]

/-- **What a call keeps, all calls keep.** -/
theorem calls_invariant {I : τ → σ → Prop}
    (hstep : ∀ called state, I called state → I (next called state).2.1 (next called state).2.2)
    (count : Nat) {called : τ} {state : σ} (h : I called state) :
    I (calls next count called state).2.1 (calls next count called state).2.2 := by
  induction count generalizing called state with
  | zero => exact h
  | succ count ih => exact ih (hstep called state h)

/-- What is called on a state that has more to it answers alike if one call does. -/
lemma calls_project {σ' : Type} {next' : τ → σ' → Option ι × τ × σ'} {f : σ' → σ}
    (hstep : ∀ called state, next called (f state) =
      ((next' called state).1, (next' called state).2.1, f (next' called state).2.2))
    (count : Nat) (called : τ) (state : σ') :
    calls next count called (f state) =
      ((calls next' count called state).1, (calls next' count called state).2.1,
        f (calls next' count called state).2.2) := by
  induction count generalizing called state with
  | zero => rfl
  | succ count ih => rw [calls_succ, hstep, ih, calls_succ]

end

/-! ## Items, a failure, the end -/

section

variable {ε α τ σ : Type} {next : τ → σ → Option (Except ε α) × τ × σ} {ended : τ → Prop}

lemma calls_of_ended
    (hended : ∀ called state, ended called →
      (next called state).1 = none ∧ ended (next called state).2.1)
    (count : Nat) {called : τ} (h : ended called) (state : σ) :
    (calls next count called state).1 = List.replicate count none := by
  induction count generalizing called state with
  | zero => rfl
  | succ count ih =>
    obtain ⟨hanswer, hnext⟩ := hended called state h
    rw [calls_succ, hanswer, ih hnext, List.replicate_succ]

/-- **Items, perhaps a failure, and then nothing** is what is answered, if every call without an item
ends what is called and nothing comes of what has ended. -/
theorem exists_answers_of_ends
    (hended : ∀ called state, ended called →
      (next called state).1 = none ∧ ended (next called state).2.1)
    (hends : ∀ called state, (∀ item, (next called state).1 ≠ some (.ok item)) →
      ended (next called state).2.1)
    (count : Nat) (called : τ) (state : σ) :
    ∃ (items : List α) (failure? : Option ε) (rest : Nat), (calls next count called state).1 =
      items.map (some ∘ .ok) ++ (failure?.map (some ∘ .error)).toList ++ List.replicate rest none := by
  induction count generalizing called state with
  | zero => exact ⟨[], none, 0, rfl⟩
  | succ count ih =>
    rw [calls_succ]
    rcases hanswer : (next called state).1 with _ | failure | item
    · have hnext := hends called state (by simp [hanswer])
      rw [calls_of_ended hended count hnext]
      exact ⟨[], none, count + 1, rfl⟩
    · have hnext := hends called state (by simp [hanswer])
      rw [calls_of_ended hended count hnext]
      exact ⟨[], some failure, count, rfl⟩
    · obtain ⟨items, failure?, rest, hrest⟩ := ih (next called state).2.1 (next called state).2.2
      exact ⟨item :: items, failure?, rest, by rw [hrest]; rfl⟩

end

end QuadStore
