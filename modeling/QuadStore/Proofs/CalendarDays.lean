import Mathlib
import QuadStore.Calendar

/-!
# Counting days

The number of days between two dates is what one counts when going from the one to the other day by
day, and the calendar only has to say which day follows which (`Date.next`).  The number of a date that
is computed from year, month and day in closed form, with a leap day for every fourth year and its two
exceptions, is shown to go up by one from each day to the next (`Date.ordinal_next`).  Since every date
is reached from the first day of the year 0 in this way, differences of such numbers are numbers of days
(`Date.daysTo_iff`), and the epoch is the day with the number 0 (`Date.epoch_daysTo_iff`).
-/

namespace QuadStore.Calendar

/-! ## Months and years -/

lemma daysInMonth_pos (year month : Nat) : 1 ≤ daysInMonth year month := by
  unfold daysInMonth
  split
  · split <;> omega
  · split <;> omega

/-- A month begins where the one before it ends. -/
lemma daysBeforeMonth_succ (year : Nat) {month : Nat} (h : 1 ≤ month) :
    daysBeforeMonth year (month + 1) = daysBeforeMonth year month + daysInMonth year month := by
  have hdrop : (List.range (month + 1)).drop 1 = (List.range month).drop 1 ++ [month] := by
    rw [List.range_succ, List.drop_append_of_le_length (by simpa using h)]
  rw [daysBeforeMonth, hdrop, List.foldl_append]
  rfl

/-- The months of a year make 365 days, or 366. -/
lemma daysBeforeMonth_thirteen (year : Nat) :
    daysBeforeMonth year 13 = if isLeap year then 366 else 365 := by
  have hmonths : (List.range 13).drop 1 = [1, 2, 3, 4, 5, 6, 7, 8, 9, 10, 11, 12] := rfl
  rw [daysBeforeMonth, hmonths]
  cases hleap : isLeap year <;> simp [daysInMonth, hleap]

/-- Rounding up a quotient, one more is reached just after a multiple. -/
lemma roundedUp_succ (year : Nat) {period : Nat} (h : 0 < period) :
    (year + 1 + (period - 1)) / period =
      (year + (period - 1)) / period + if year % period = 0 then 1 else 0 := by
  have hsum : year + 1 + (period - 1) = year + (period - 1) + 1 := by omega
  rw [hsum, Nat.succ_div]
  congr 1
  have hdvd : period ∣ year + (period - 1) + 1 ↔ year % period = 0 := by
    rw [show year + (period - 1) + 1 = year + period by omega, Nat.dvd_add_self_right,
      Nat.dvd_iff_mod_eq_zero]
  exact if_congr hdvd rfl rfl

/-- A year begins where the one before it ends. -/
lemma daysBeforeYear_succ (year : Nat) :
    daysBeforeYear (year + 1) = daysBeforeYear year + daysBeforeMonth year 13 := by
  have hfour : (year + 1 + 3) / 4 = (year + 3) / 4 + if year % 4 = 0 then 1 else 0 :=
    roundedUp_succ year (Nat.succ_pos _)
  have hcentury : (year + 1 + 99) / 100 = (year + 99) / 100 + if year % 100 = 0 then 1 else 0 :=
    roundedUp_succ year (Nat.succ_pos _)
  have hcenturies : (year + 1 + 399) / 400 =
      (year + 399) / 400 + if year % 400 = 0 then 1 else 0 :=
    roundedUp_succ year (Nat.succ_pos _)
  have hfewer : (year + 99) / 100 ≤ 365 * year + (year + 3) / 4 := by omega
  have hleap : isLeap year = true ↔ year % 4 = 0 ∧ (year % 100 ≠ 0 ∨ year % 400 = 0) := by
    simp [isLeap]
  have hnested : (year % 100 = 0 → year % 4 = 0) ∧ (year % 400 = 0 → year % 100 = 0) := by omega
  rw [daysBeforeMonth_thirteen, daysBeforeYear, daysBeforeYear, hfour, hcentury, hcenturies]
  simp only [hleap]
  generalize (year + 3) / 4 = fours at *
  generalize (year + 99) / 100 = centuries at *
  generalize (year + 399) / 400 = fourCenturies at *
  split_ifs <;> omega

lemma daysBeforeMonth_mono (year : Nat) : Monotone (daysBeforeMonth year) := by
  refine monotone_nat_of_le_succ fun month => ?_
  by_cases h : 1 ≤ month
  · rw [daysBeforeMonth_succ year h]
    exact Nat.le_add_right _ _
  · obtain rfl : month = 0 := by omega
    exact le_rfl

/-- A date lies before the next year. -/
lemma Date.ordinal_lt (date : Date) : date.ordinal < daysBeforeYear (date.year + 1) := by
  obtain ⟨hfirst, hlast⟩ := date.month_valid
  have hday := date.day_valid
  have hnext := daysBeforeMonth_succ date.year hfirst
  have hend : daysBeforeMonth date.year (date.month + 1) ≤ daysBeforeMonth date.year 13 :=
    daysBeforeMonth_mono date.year (by omega)
  rw [daysBeforeYear_succ, ordinal]
  omega

/-! ## The next day -/

namespace Date

/-- The first day of the year 0. -/
def first : Date := ⟨0, 1, 1, by decide, by decide⟩

/-- The day with the number 0. -/
def epoch : Date := ⟨1970, 1, 1, by decide, by decide⟩

/-- The day after a date: the next of the month, or the first of the next month or year. -/
def next (date : Date) : Date :=
  if hday : date.day < daysInMonth date.year date.month then
    ⟨date.year, date.month, date.day + 1, date.month_valid, by omega⟩
  else if hmonth : date.month < 12 then
    ⟨date.year, date.month + 1, 1, by omega, le_rfl, daysInMonth_pos _ _⟩
  else ⟨date.year + 1, 1, 1, by omega, le_rfl, daysInMonth_pos _ _⟩

/-- Going on day by day so many times leads from one date to the other, or back from the other if the
number is negative. -/
def DaysTo (start finish : Date) (days : Int) : Prop :=
  (∃ n : Nat, days = n ∧ next^[n] start = finish) ∨
    ∃ n : Nat, days = -n ∧ next^[n] finish = start

/-- **The next day has the next number.** -/
lemma ordinal_next (date : Date) : date.next.ordinal = date.ordinal + 1 := by
  obtain ⟨year, month, day, hmonth, hday⟩ := date
  have hbefore := daysBeforeMonth_succ year hmonth.1
  unfold next
  by_cases hlast : day < daysInMonth year month
  · rw [dif_pos hlast]
    simp only [ordinal]
    omega
  · rw [dif_neg hlast]
    by_cases hdecember : month < 12
    · rw [dif_pos hdecember]
      simp only [ordinal]
      omega
    · obtain rfl : month = 12 := by omega
      have hend : daysBeforeMonth year 13 = daysBeforeMonth year 12 + daysInMonth year 12 := hbefore
      have hyear := daysBeforeYear_succ year
      have hjanuary : daysBeforeMonth (year + 1) 1 = 0 := rfl
      rw [dif_neg hdecember]
      simp only [ordinal]
      omega

lemma ordinal_iterate_next (n : Nat) (date : Date) :
    (next^[n] date).ordinal = date.ordinal + n := by
  induction n with
  | zero => rfl
  | succ n ih => rw [Function.iterate_succ_apply', ordinal_next, ih, Nat.add_assoc]

/-- Every date but the first follows another one. -/
lemma exists_next_eq {date : Date} (h : date ≠ first) : ∃ previous : Date, previous.next = date := by
  obtain ⟨year, month, day, hmonth, hday⟩ := date
  by_cases hfirst : day = 1
  · subst hfirst
    by_cases hjanuary : month = 1
    · subst hjanuary
      obtain ⟨previous, rfl⟩ : ∃ previous, year = previous + 1 := by
        cases year with
        | zero => exact absurd rfl h
        | succ previous => exact ⟨previous, rfl⟩
      refine ⟨⟨previous, 12, 31, by decide, by decide, le_rfl⟩, ?_⟩
      rfl
    · obtain ⟨previous, rfl⟩ : ∃ previous, month = previous + 1 := ⟨month - 1, by omega⟩
      refine ⟨⟨year, previous, daysInMonth year previous, by omega, daysInMonth_pos _ _, le_rfl⟩, ?_⟩
      rw [next, dif_neg (lt_irrefl _), dif_pos (show previous < 12 by omega)]
  · obtain ⟨previous, rfl⟩ : ∃ previous, day = previous + 1 := ⟨day - 1, by omega⟩
    refine ⟨⟨year, month, previous, hmonth, by omega⟩, ?_⟩
    rw [next, dif_pos (show previous < daysInMonth year month by omega)]

/-- Every date is reached from the first one. -/
lemma iterate_next_first (date : Date) : next^[date.ordinal] first = date := by
  induction hordinal : date.ordinal generalizing date with
  | zero =>
    by_contra hne
    obtain ⟨previous, rfl⟩ := exists_next_eq (Ne.symm hne)
    rw [ordinal_next] at hordinal
    omega
  | succ n ih =>
    obtain ⟨previous, rfl⟩ : ∃ previous : Date, previous.next = date := by
      apply exists_next_eq
      rintro rfl
      cases hordinal
    rw [ordinal_next, Nat.add_right_cancel_iff] at hordinal
    rw [Function.iterate_succ_apply', ih previous hordinal]

lemma ordinal_injective : Function.Injective ordinal := by
  intro a b h
  rw [← iterate_next_first a, h, iterate_next_first]

/-- **Differences of numbers are numbers of days.** -/
theorem daysTo_iff {start finish : Date} {days : Int} :
    start.DaysTo finish days ↔ days = finish.ordinal - start.ordinal := by
  constructor
  · rintro (⟨n, rfl, rfl⟩ | ⟨n, rfl, rfl⟩) <;> rw [ordinal_iterate_next] <;> omega
  · intro hdays
    rcases le_total start.ordinal finish.ordinal with hle | hle
    · refine .inl ⟨finish.ordinal - start.ordinal, by omega, ?_⟩
      rw [← ordinal_injective.eq_iff, ordinal_iterate_next]
      omega
    · refine .inr ⟨start.ordinal - finish.ordinal, by omega, ?_⟩
      rw [← ordinal_injective.eq_iff, ordinal_iterate_next]
      omega

/-- The number of a date since the epoch is the number of days from the epoch to it. -/
theorem epoch_daysTo_iff {date : Date} {days : Int} :
    epoch.DaysTo date days ↔ days = date.sinceEpoch := by
  rw [daysTo_iff]
  rfl

end Date

end QuadStore.Calendar
