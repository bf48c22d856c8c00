import Mathlib
import QuadStore.Proofs.DateReading

/-!
# Dates are converted exactly

A date of a year of at most four digits, with or without a time of day and with or without an offset,
has a documented written form (`DateTime.written`), in which the year has four digits and every other
number two.  It is read as the instant that it stands for (`written_date_converted`): the days since the
epoch, the time of day and the offset each contribute to the milliseconds what they are worth, and of a
fraction the first three digits count.  No date is too far from the epoch, also if its offset moves it
out of the years that can be written; and an instant before the epoch is no less exact than one after
it, since it is a whole number of milliseconds.
-/

namespace QuadStore.Calendar

open Text

/-! ## What stands for an instant -/

/-- A time of day, as precisely as it is given. -/
inductive ClockTime where
  | hour (hour : Fin 24)
  | minute (hour : Fin 24) (minute : Fin 60)
  | second (hour : Fin 24) (minute second : Fin 60)
  /-- The digits of the fraction, of which there is at least one. -/
  | fraction (hour : Fin 24) (minute second : Fin 60) (first : Fin 10) (others : List (Fin 10))

/-- An offset from universal time, if one is given. -/
inductive ZoneOffset where
  | unwritten
  | universal
  | offset (west : Bool) (hours : Fin 26) (minutes : Fin 60)

/-- A date, perhaps with a time of day and an offset. -/
structure DateTime where
  date : Date
  year_lt : date.year < 10000
  clock : Option ClockTime
  zone : ZoneOffset

/-- The milliseconds from midnight to a time of day.  Digits that a fraction lacks are zeros, and those
after the third do not count. -/
def ClockTime.millis : ClockTime → Int
  | hour h => 3600000 * h
  | minute h m => 3600000 * h + 60000 * m
  | second h m s => 3600000 * h + 60000 * m + 1000 * s
  | fraction h m s first others =>
    3600000 * h + 60000 * m + 1000 * s +
      (100 * first + 10 * others.getD 0 0 + others.getD 1 0 : Int)

/-- The milliseconds by which the clocks of a zone are ahead of universal time. -/
def ZoneOffset.millis : ZoneOffset → Int
  | unwritten => 0
  | universal => 0
  | offset west h m => (if west then -1 else 1) * (60 * h + m) * 60000

/-- The milliseconds from the epoch to the instant that a date stands for. -/
def DateTime.millis (value : DateTime) : Int :=
  86400000 * value.date.sinceEpoch + value.clock.elim 0 ClockTime.millis - value.zone.millis

/-! ## How it is written -/

/-- A number in so many digits. -/
def fixedWidth : Nat → Nat → List Char
  | 0, _ => []
  | width + 1, n => fixedWidth width (n / 10) ++ [Nat.digitChar (n % 10)]

/-- A time of day in its documented form. -/
def ClockTime.written : ClockTime → ClockText
  | hour h => .hour (fixedWidth 2 h)
  | minute h m => .minute (fixedWidth 2 h) (fixedWidth 2 m)
  | second h m s => .second (fixedWidth 2 h) (fixedWidth 2 m) (fixedWidth 2 s)
  | fraction h m s first others =>
    .fraction (fixedWidth 2 h) (fixedWidth 2 m) (fixedWidth 2 s)
      ((first :: others).map fun digit : Fin 10 => Nat.digitChar digit)

/-- An offset in its documented form. -/
def ZoneOffset.written : ZoneOffset → ZoneText
  | unwritten => .nothing
  | universal => .universal
  | offset west h m => .offset west (fixedWidth 2 h) (fixedWidth 2 m)

/-- A date in its documented form. -/
def DateTime.written (value : DateTime) : DateText where
  day := fixedWidth 4 value.date.year ++ '-' ::
    (fixedWidth 2 value.date.month ++ '-' :: fixedWidth 2 value.date.day)
  clock := value.clock.map ClockTime.written
  zone := value.zone.written

/-! ## Digits -/

lemma isDigit_digitChar {d : Nat} (h : d < 10) : isDigit (Nat.digitChar d) = true := by
  interval_cases d <;> rfl

lemma digitValue_digitChar {d : Nat} (h : d < 10) : digitValue (Nat.digitChar d) = d := by
  interval_cases d <;> rfl

lemma length_fixedWidth (width n : Nat) : (fixedWidth width n).length = width := by
  induction width generalizing n with
  | zero => rfl
  | succ width ih => rw [fixedWidth, List.length_append, ih, List.length_singleton]

lemma isDigit_of_mem_fixedWidth {width n : Nat} {c : Char} (h : c ∈ fixedWidth width n) :
    isDigit c = true := by
  induction width generalizing n with
  | zero => cases h
  | succ width ih =>
    rcases List.mem_append.mp h with h | h
    · exact ih h
    · rw [List.mem_singleton.mp h]
      exact isDigit_digitChar (Nat.mod_lt n (by decide))

lemma decimalValue_fixedWidth {width n : Nat} (h : n < 10 ^ width) :
    decimalValue (fixedWidth width n) = n := by
  induction width generalizing n with
  | zero =>
    obtain rfl : n = 0 := by simpa using h
    rfl
  | succ width ih =>
    have hbefore : n / 10 < 10 ^ width := by
      rw [Nat.pow_succ] at h
      omega
    rw [fixedWidth, decimalValue_concat, ih hbefore, digitValue_digitChar (Nat.mod_lt n (by decide))]
    omega

/-- A number of so many digits is read back. -/
lemma numeral_fixedWidth (width : Nat) {n : Nat} (h : n < 10 ^ (width + 1)) :
    Numeral (fixedWidth (width + 1) n) n := by
  refine ⟨⟨?_, fun c hc => isDigit_of_mem_fixedWidth hc⟩, decimalValue_fixedWidth h⟩
  rw [← List.length_pos_iff, length_fixedWidth]
  exact Nat.succ_pos width

/-- A number below a hundred is read back from two digits. -/
lemma numeral_two {bound : Nat} (n : Fin bound) (h : bound ≤ 100) : Numeral (fixedWidth 2 n) n :=
  numeral_fixedWidth 1 (lt_of_lt_of_le n.isLt h)

/-! ## What the written form denotes -/

/-- A date shows itself. -/
lemma dayShows_written (value : DateTime) : DayShows value.written.day value.date := by
  obtain ⟨-, hmonth⟩ := value.date.month_valid
  obtain ⟨-, hday⟩ := value.date.day_valid
  have hdays : daysInMonth value.date.year value.date.month ≤ 31 := by
    unfold daysInMonth
    split_ifs <;> decide
  exact ⟨fixedWidth 4 value.date.year, fixedWidth 2 value.date.month, fixedWidth 2 value.date.day, rfl,
    length_fixedWidth 4 _, length_fixedWidth 2 _, length_fixedWidth 2 _,
    numeral_fixedWidth 3 value.year_lt, numeral_fixedWidth 1 (by omega),
    numeral_fixedWidth 1 (by omega)⟩

lemma digits_map_digitChar (first : Fin 10) (others : List (Fin 10)) :
    Digits ((first :: others).map fun digit : Fin 10 => Nat.digitChar digit) := by
  refine ⟨by simp, fun c hc => ?_⟩
  obtain ⟨digit, -, rfl⟩ := List.mem_map.mp hc
  exact isDigit_digitChar digit.isLt

/-- Zeros take the place of the digits that a fraction lacks. -/
lemma thousandths_map_digitChar (first : Fin 10) (others : List (Fin 10)) :
    (thousandths ((first :: others).map fun digit : Fin 10 => Nat.digitChar digit) : Int) =
      100 * first + 10 * others.getD 0 0 + others.getD 1 0 := by
  have hzero : digitValue '0' = 0 := rfl
  have hvalue : ∀ digit : Fin 10, digitValue (Nat.digitChar digit) = digit :=
    fun digit => digitValue_digitChar digit.isLt
  match others with
  | [] =>
    simp [thousandths, decimalValue, hvalue, hzero]
    omega
  | [second] =>
    simp [thousandths, decimalValue, hvalue, hzero]
    omega
  | second :: third :: others =>
    simp [thousandths, decimalValue, hvalue]
    omega

/-- A time of day shows itself, in whole milliseconds. -/
lemma ClockTime.written_shows (clock : ClockTime) :
    clock.written.Shows (milliNanos * clock.millis) := by
  cases clock with
  | hour h =>
    have hmillis : milliNanos * (hour h).millis = clockNanos h 0 0 0 := by
      simp [clockNanos_eq, millis]
    rw [hmillis]
    exact .hour (numeral_two h (by decide)) h.isLt
  | minute h m =>
    have hmillis : milliNanos * (minute h m).millis = clockNanos h m 0 0 := by
      simp [clockNanos_eq, millis]
    rw [hmillis]
    exact .minute (numeral_two h (by decide)) h.isLt (numeral_two m (by decide)) m.isLt
  | second h m s =>
    have hmillis : milliNanos * (second h m s).millis = clockNanos h m s 0 := by
      simp [clockNanos_eq, millis]
    rw [hmillis]
    exact .second (numeral_two h (by decide)) h.isLt (numeral_two m (by decide)) m.isLt
      (numeral_two s (by decide)) s.isLt
  | fraction h m s first others =>
    have hmillis : milliNanos * (fraction h m s first others).millis = clockNanos h m s
        (thousandths ((first :: others).map fun digit : Fin 10 => Nat.digitChar digit)) := by
      rw [clockNanos_eq, thousandths_map_digitChar, millis]
    rw [hmillis]
    exact .fraction (numeral_two h (by decide)) h.isLt (numeral_two m (by decide)) m.isLt
      (numeral_two s (by decide)) s.isLt (digits_map_digitChar first others)

/-- The sign of an offset is that of its hours and of its minutes, also when there are no hours. -/
lemma offset?_signed (west : Bool) {hours minutes : Int} (hhours : 0 ≤ hours ∧ hours ≤ 25)
    (hminutes : 0 ≤ minutes ∧ minutes ≤ 59) :
    (if west then offset? (-hours) (-minutes) else offset? hours minutes) =
      some ((if west then -1 else 1) * (60 * hours + minutes) * 60) := by
  cases west with
  | false =>
    have hsigns : ¬ (0 < hours ∧ minutes < 0 ∨ hours < 0 ∧ 0 < minutes) := by omega
    simp only [Bool.false_eq_true, if_false, offset?, if_neg hsigns]
    rw [if_pos (by omega), Option.some.injEq]
    omega
  | true =>
    have hsigns : ¬ (0 < -hours ∧ -minutes < 0 ∨ -hours < 0 ∧ 0 < -minutes) := by omega
    simp only [if_true, offset?, if_neg hsigns]
    rw [if_pos (by omega), Option.some.injEq]
    omega

/-- A zone shows itself, in whole seconds. -/
lemma ZoneOffset.written_shows (zone : ZoneOffset) :
    ∃ offset, zone.written.Shows offset ∧ zone.millis = 1000 * offset := by
  cases zone with
  | unwritten => exact ⟨0, .nothing, rfl⟩
  | universal => exact ⟨0, .universal, rfl⟩
  | offset west h m =>
    refine ⟨_, .offset (.unsigned (numeral_two h (by decide))) (.unsigned (numeral_two m (by decide)))
      (offset?_signed west (by omega) (by omega)), ?_⟩
    rw [millis]
    omega

/-- The written form of a date denotes the instant that the date stands for. -/
lemma DateTime.written_denotes (value : DateTime) :
    value.written.Denotes (milliNanos * value.millis) := by
  obtain ⟨offset, hoffset, hmillis⟩ := value.zone.written_shows
  refine ⟨value.date, milliNanos * value.clock.elim 0 ClockTime.millis, offset,
    dayShows_written value, ?_, hoffset, ?_⟩
  · cases hclock : value.clock with
    | none => simp [written, hclock]
    | some clock => simpa [written, hclock] using clock.written_shows
  · rw [millis, hmillis]
    unfold milliNanos secondNanos daySeconds
    omega

/-! ## Blanks around it -/

lemma isBlank_eq_false_of_isDigit {c : Char} (h : isDigit c = true) : isBlank c = false := by
  obtain ⟨hlower, hupper⟩ := isDigit_iff.mp h
  simp only [isBlank, Bool.or_eq_false_iff, Bool.and_eq_false_iff, decide_eq_false_iff_not,
    beq_eq_false_iff_ne]
  omega

/-- Blanks on both sides of a text that has none are cut off. -/
lemma trim_surrounded {before text after : List Char} (hbefore : ∀ c ∈ before, isBlank c = true)
    (htext : ∀ c ∈ text, isBlank c = false) (hafter : ∀ c ∈ after, isBlank c = true)
    (hne : text ≠ []) : trim (before ++ text ++ after) = text := by
  have hdrop : ∀ {rest : List Char}, rest ≠ [] → (∀ c ∈ rest, isBlank c = false) →
      ∀ more, (rest ++ more).dropWhile isBlank = rest ++ more := by
    intro rest hrest hnone more
    obtain ⟨c, rest, rfl⟩ := List.exists_cons_of_ne_nil hrest
    rw [List.cons_append, List.dropWhile_cons_of_neg (by simp [hnone c List.mem_cons_self])]
  rw [trim, trimEnd, List.append_assoc, List.dropWhile_append_of_pos hbefore, hdrop hne htext,
    List.reverse_append, List.dropWhile_append_of_pos (by simpa using hafter)]
  have hreverse := hdrop (List.reverse_ne_nil_iff.mpr hne) (by simpa using htext) []
  rw [List.append_nil] at hreverse
  rw [hreverse, List.reverse_reverse]

/-- A written date has no blanks in it. -/
lemma DateTime.isBlank_eq_false (value : DateTime) :
    ∀ c ∈ value.written.text, isBlank c = false := by
  have hdigits : ∀ {width n : Nat}, ∀ c ∈ fixedWidth width n, isBlank c = false :=
    fun c hc => isBlank_eq_false_of_isDigit (isDigit_of_mem_fixedWidth hc)
  have hclock : ∀ c ∈ DateText.clockText value.written.clock, isBlank c = false := by
    show ∀ c ∈ DateText.clockText (value.clock.map ClockTime.written), isBlank c = false
    cases value.clock with
    | none => exact List.forall_mem_nil _
    | some clock =>
      refine List.forall_mem_cons.mpr ⟨by decide, ?_⟩
      exact ClockText.forall_mem_text (fun _ => isBlank_eq_false_of_isDigit) (by decide) (by decide)
        clock.written_shows.numeric
  have hzone : ∀ c ∈ value.written.zone.text, isBlank c = false := by
    show ∀ c ∈ value.zone.written.text, isBlank c = false
    cases value.zone with
    | unwritten => exact List.forall_mem_nil _
    | universal => exact List.forall_mem_singleton.mpr (by decide)
    | offset west h m =>
      refine List.forall_mem_cons.mpr ⟨by cases west <;> decide, ?_⟩
      exact List.forall_mem_append.mpr ⟨hdigits, List.forall_mem_cons.mpr ⟨by decide, hdigits⟩⟩
  have hday : ∀ c ∈ value.written.day, isBlank c = false := by
    simp only [written, List.forall_mem_append, List.forall_mem_cons]
    exact ⟨hdigits, by decide, hdigits, by decide, hdigits⟩
  exact List.forall_mem_append.mpr ⟨hday, List.forall_mem_append.mpr ⟨hclock, hzone⟩⟩

/-! ## Conversion -/

/-- **A written date is converted exactly.**  Its day is as many days from the epoch as one counts in the
calendar; and its milliseconds are neither rounded, also before the epoch, nor too many. -/
theorem written_date_converted (value : DateTime) {before after : List Char}
    (hbefore : ∀ c ∈ before, isBlank c = true) (hafter : ∀ c ∈ after, isBlank c = true) :
    (∀ days, Date.epoch.DaysTo value.date days ↔ days = value.date.sinceEpoch) ∧
      nanos? (before ++ value.written.text ++ after) = some (milliNanos * value.millis) ∧
      millis? (before ++ value.written.text ++ after) = some value.millis := by
  have hne : value.written.text ≠ [] := by
    rw [← List.length_pos_iff, DateText.text, List.length_append, (dayShows_written value).length]
    omega
  have htrim := trim_surrounded hbefore value.isBlank_eq_false hafter hne
  refine ⟨fun days => Date.epoch_daysTo_iff, ?_, ?_⟩
  · exact nanos?_eq_some_iff.mpr ⟨value.written, htrim.symm, value.written_denotes⟩
  · exact millis?_eq_some_iff.mpr ⟨value.written, htrim.symm, value.written_denotes⟩

/-- Far to the east the first day of the year 0 begins in the year before. -/
def beforeYearZero : DateTime where
  date := .first
  year_lt := by decide
  clock := some (.fraction 0 0 0 0 [0, 1, 9])
  zone := .offset false 25 59

/-- The instant lies before the epoch, has a fraction that is cut off, and has blanks around it. -/
theorem written_date_converted_before_year_zero :
    (∀ c ∈ ['\t'], isBlank c = true) ∧ (∀ c ∈ [' ', '\n'], isBlank c = true) ∧
      ['\t'] ++ beforeYearZero.written.text ++ [' ', '\n'] =
        "\t0000-01-01T00:00:00.0019+25:59 \n".toList ∧
      (∀ days, Date.epoch.DaysTo beforeYearZero.date days ↔ days = -719528) ∧
      millis? (['\t'] ++ beforeYearZero.written.text ++ [' ', '\n']) = some (-62167312739999) := by
  have hbefore : ∀ c ∈ ['\t'], isBlank c = true := by simp [isBlank]
  have hafter : ∀ c ∈ [' ', '\n'], isBlank c = true := by simp [isBlank]
  obtain ⟨hdays, -, hmillis⟩ := written_date_converted beforeYearZero hbefore hafter
  have hday : beforeYearZero.date.sinceEpoch = -719528 := by decide +kernel
  have hvalue : beforeYearZero.millis = -62167312739999 := by decide +kernel
  rw [hday] at hdays
  rw [hvalue] at hmillis
  exact ⟨hbefore, hafter, by decide +kernel, hdays, hmillis⟩

end QuadStore.Calendar
