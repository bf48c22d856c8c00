import Mathlib
import QuadStore.Calendar
import QuadStore.Proofs.CalendarDays

/-!
# Which texts are dates

The reader of dates takes a text apart at fixed places and at separators, and then reads the pieces by
general readers of numbers.  Here the texts that it accepts are described the other way round: by what
may be written (`DateText`), and by what is denoted by it (`DateText.Denotes`).  A number of a clock may
have any digits, also many or a single one; a number of a zone may have a sign besides; and nothing need
follow the `T`.

The reader accepts just the texts that denote something, and its answer is what they denote
(`nanos?_eq_some_iff`).  Such an instant is a whole number of milliseconds and one that is kept in
64 bits, so that nothing is lost when it is cut down (`millis?_eq_some_iff`).
-/

namespace QuadStore

/-! ## Taking texts apart -/

namespace Text

lemma splitOnce_eq_none_iff {separator : Char} {text : List Char} :
    splitOnce separator text = none ↔ separator ∉ text := by
  induction text with
  | nil => simp [splitOnce]
  | cons c rest ih =>
    rw [splitOnce]
    by_cases hc : c = separator
    · simp [hc]
    · rw [if_neg hc, Option.map_eq_none_iff, ih, List.mem_cons, not_or]
      exact (and_iff_right (Ne.symm hc)).symm

/-- The first separator is the one with none before it. -/
lemma splitOnce_eq_some_iff {separator : Char} {text before after : List Char} :
    splitOnce separator text = some (before, after) ↔
      text = before ++ separator :: after ∧ separator ∉ before := by
  induction text generalizing before with
  | nil => simp [splitOnce]
  | cons c rest ih =>
    rw [splitOnce]
    cases before with
    | nil =>
      by_cases hc : c = separator
      · simp [hc, eq_comm]
      · simp [hc]
    | cons d before =>
      by_cases hc : c = separator
      · subst hc
        simp +contextual
      · rw [if_neg hc, List.cons_append, List.cons.injEq, List.mem_cons, not_or,
          Option.map_eq_some_iff]
        constructor
        · rintro ⟨⟨b, a⟩, hsplit, heq⟩
          cases heq
          obtain ⟨rfl, hbefore⟩ := ih.mp hsplit
          exact ⟨⟨rfl, rfl⟩, Ne.symm hc, hbefore⟩
        · rintro ⟨⟨rfl, rfl⟩, -, hbefore⟩
          exact ⟨_, ih.mpr ⟨rfl, hbefore⟩, rfl⟩

/-- Splitting everywhere is splitting once and then the rest. -/
lemma splitAll_eq (separator : Char) (text : List Char) :
    splitAll separator text =
      match splitOnce separator text with
      | none => [text]
      | some (before, after) => before :: splitAll separator after := by
  induction text with
  | nil => rfl
  | cons c rest ih =>
    rw [splitAll, splitOnce]
    by_cases hc : c = separator
    · rw [if_pos hc, if_pos hc]
    · rw [if_neg hc, if_neg hc, ih]
      cases splitOnce separator rest <;> rfl

lemma splitAll_ne_nil (separator : Char) (text : List Char) : splitAll separator text ≠ [] := by
  rw [splitAll_eq]
  cases splitOnce separator text <;> simp

lemma splitAll_eq_singleton_iff {separator : Char} {text piece : List Char} :
    splitAll separator text = [piece] ↔ text = piece ∧ separator ∉ piece := by
  rw [splitAll_eq]
  cases hsplit : splitOnce separator text with
  | none =>
    have hnone := splitOnce_eq_none_iff.mp hsplit
    simp only [List.cons.injEq, and_true]
    exact ⟨fun h => ⟨h, h ▸ hnone⟩, And.left⟩
  | some found =>
    obtain ⟨htext, -⟩ := splitOnce_eq_some_iff.mp hsplit
    refine iff_of_false (by simp [splitAll_ne_nil]) ?_
    rintro ⟨rfl, hnone⟩
    rw [← splitOnce_eq_none_iff, hsplit] at hnone
    cases hnone

lemma splitAll_eq_cons_cons_iff {separator : Char} {text piece next : List Char}
    {pieces : List (List Char)} :
    splitAll separator text = piece :: next :: pieces ↔
      ∃ rest, text = piece ++ separator :: rest ∧ separator ∉ piece ∧
        splitAll separator rest = next :: pieces := by
  rw [splitAll_eq]
  cases hsplit : splitOnce separator text with
  | none =>
    refine iff_of_false (by simp) ?_
    rintro ⟨rest, htext, -⟩
    rw [splitOnce_eq_none_iff, htext] at hsplit
    simp at hsplit
  | some found =>
    obtain ⟨before, after⟩ := found
    simp only [List.cons.injEq]
    constructor
    · rintro ⟨rfl, hrest⟩
      obtain ⟨htext, hpiece⟩ := splitOnce_eq_some_iff.mp hsplit
      exact ⟨after, htext, hpiece, hrest⟩
    · rintro ⟨rest, htext, hpiece, hrest⟩
      rw [splitOnce_eq_some_iff.mpr ⟨htext, hpiece⟩] at hsplit
      cases hsplit
      exact ⟨rfl, hrest⟩

/-! ## Numbers -/

/-- A row of at least one digit. -/
structure Digits (text : List Char) : Prop where
  ne_nil : text ≠ []
  isDigit : ∀ c ∈ text, isDigit c = true

/-- A row of digits that writes a number. -/
structure Numeral (text : List Char) (n : Nat) : Prop where
  digits : Digits text
  value : decimalValue text = n

/-- A number that is written with or without a sign. -/
inductive SignedNumeral : List Char → Int → Prop where
  | unsigned {text : List Char} {n : Nat} (numeral : Numeral text n) : SignedNumeral text n
  | plus {text : List Char} {n : Nat} (numeral : Numeral text n) : SignedNumeral ('+' :: text) n
  | minus {text : List Char} {n : Nat} (numeral : Numeral text n) : SignedNumeral ('-' :: text) (-n)

/-- A character that is no digit is not part of a number. -/
lemma Digits.notMem {text : List Char} (h : Digits text) {c : Char} (hc : Text.isDigit c = false) :
    c ∉ text := by
  intro hmem
  rw [h.isDigit c hmem] at hc
  cases hc

lemma decimalValue_concat (digits : List Char) (c : Char) :
    decimalValue (digits ++ [c]) = decimalValue digits * 10 + digitValue c := by
  rw [decimalValue, List.foldl_append]
  rfl

lemma isDigit_iff {c : Char} : isDigit c = true ↔ 48 ≤ c.toNat ∧ c.toNat ≤ 57 := by
  rw [isDigit, Bool.and_eq_true, decide_eq_true_iff, decide_eq_true_iff]
  exact Iff.rfl

lemma digitValue_lt {c : Char} (h : isDigit c = true) : digitValue c < 10 := by
  obtain ⟨-, hupper⟩ := isDigit_iff.mp h
  have hzero : '0'.toNat = 48 := rfl
  rw [digitValue]
  omega

/-- So many digits write numbers below that power of ten. -/
lemma decimalValue_lt {digits : List Char} (h : ∀ c ∈ digits, isDigit c = true) :
    decimalValue digits < 10 ^ digits.length := by
  induction digits using List.reverseRecOn with
  | nil => exact Nat.one_pos
  | append_singleton digits c ih =>
    have hlast : digitValue c < 10 := digitValue_lt (h c (by simp))
    have hbefore : decimalValue digits < 10 ^ digits.length :=
      ih fun d hd => h d (List.mem_append_left _ hd)
    rw [decimalValue_concat, List.length_append, List.length_singleton, Nat.pow_succ]
    omega

lemma decimal?_eq_some_iff {text : List Char} {n : Nat} :
    decimal? text = some n ↔ Numeral text n := by
  have hrefused : (text.isEmpty || !text.all isDigit) = true ↔ ¬ Digits text := by
    rw [Bool.or_eq_true, List.isEmpty_iff, Bool.not_eq_true', ← Bool.not_eq_true, List.all_eq_true]
    constructor
    · rintro (hempty | hother) hdigits
      · exact hdigits.ne_nil hempty
      · exact hother hdigits.isDigit
    · intro hdigits
      by_contra hnot
      rw [not_or, not_not] at hnot
      exact hdigits ⟨hnot.1, hnot.2⟩
  unfold decimal?
  by_cases h : Digits text
  · rw [if_neg (fun hempty => hrefused.mp hempty h), Option.some.injEq]
    exact ⟨fun hvalue => ⟨h, hvalue⟩, fun hnumeral => hnumeral.value⟩
  · rw [if_pos (hrefused.mpr h)]
    exact iff_of_false nofun fun hnumeral => h hnumeral.digits

/-- Without a plus sign there are only digits. -/
lemma natural?_eq_some_iff {text : List Char} (h : '+' ∉ text) {n : Nat} :
    natural? text = some n ↔ Numeral text n := by
  rw [← decimal?_eq_some_iff]
  unfold natural?
  split
  · simp at h
  · rfl

lemma integer?_eq_some_iff {text : List Char} {z : Int} :
    integer? text = some z ↔ SignedNumeral text z := by
  constructor
  · intro h
    unfold integer? at h
    split at h <;> obtain ⟨n, hn, rfl⟩ := Option.map_eq_some_iff.mp h
    · exact .plus (decimal?_eq_some_iff.mp hn)
    · exact .minus (decimal?_eq_some_iff.mp hn)
    · exact .unsigned (decimal?_eq_some_iff.mp hn)
  · rintro (hnumeral | hnumeral | hnumeral)
    · have hdecimal := decimal?_eq_some_iff.mpr hnumeral
      unfold integer?
      split
      · exact absurd List.mem_cons_self (hnumeral.digits.notMem (by decide))
      · exact absurd List.mem_cons_self (hnumeral.digits.notMem (by decide))
      · rw [hdecimal]
        rfl
    · rw [integer?, decimal?_eq_some_iff.mpr hnumeral]
      rfl
    · rw [integer?, decimal?_eq_some_iff.mpr hnumeral]
      rfl

/-- A colon is not part of a number either, with or without a sign. -/
lemma SignedNumeral.colon_notMem {text : List Char} {z : Int} (h : SignedNumeral text z) :
    ':' ∉ text := by
  cases h with
  | unsigned numeral => exact numeral.digits.notMem (by decide)
  | plus numeral | minus numeral =>
    simpa using numeral.digits.notMem (by decide : isDigit ':' = false)

end Text

namespace Calendar

open Text

/-! ## What may be written -/

/-- A clock as it is written: up to three numbers, and a fraction after the third. -/
inductive ClockText where
  | nothing
  | hour (hour : List Char)
  | minute (hour minute : List Char)
  | second (hour minute second : List Char)
  | fraction (hour minute second fraction : List Char)

/-- A zone as it is written. -/
inductive ZoneText where
  | nothing
  | universal
  | offset (west : Bool) (hours minutes : List Char)

/-- A date as it is written, with what follows a `T` if there is one, and with a zone. -/
structure DateText where
  day : List Char
  clock : Option ClockText
  zone : ZoneText

/-- The characters of a clock. -/
def ClockText.text : ClockText → List Char
  | nothing => []
  | hour h => h
  | minute h m => h ++ ':' :: m
  | second h m s => h ++ ':' :: (m ++ ':' :: s)
  | fraction h m s f => h ++ ':' :: (m ++ ':' :: (s ++ '.' :: f))

/-- The characters of a zone. -/
def ZoneText.text : ZoneText → List Char
  | nothing => []
  | universal => ['Z']
  | offset west h m => (if west then '-' else '+') :: (h ++ ':' :: m)

/-- The characters between a day and a zone. -/
def DateText.clockText : Option ClockText → List Char
  | none => []
  | some clock => 'T' :: clock.text

/-- The characters of a date. -/
def DateText.text (date : DateText) : List Char :=
  date.day ++ (DateText.clockText date.clock ++ date.zone.text)

/-! ## What it denotes -/

/-- A day is written with four digits for the year and two each for the month and the day. -/
def DayShows (text : List Char) (date : Date) : Prop :=
  ∃ year month day, text = year ++ '-' :: (month ++ '-' :: day) ∧ year.length = 4 ∧
    month.length = 2 ∧ day.length = 2 ∧ Numeral year date.year ∧ Numeral month date.month ∧
    Numeral day date.day

/-- The nanoseconds from midnight to a time of day. -/
def clockNanos (hour minute second milli : Nat) : Int :=
  secondNanos * (3600 * hour + 60 * minute + second) + milliNanos * milli

/-- A time of day is one of milliseconds. -/
lemma clockNanos_eq (hour minute second milli : Nat) :
    clockNanos hour minute second milli =
      milliNanos * (3600000 * hour + 60000 * minute + 1000 * second + milli) := by
  unfold clockNanos secondNanos milliNanos
  omega

/-- A clock shows a time of day, in nanoseconds from midnight. -/
inductive ClockText.Shows : ClockText → Int → Prop where
  | nothing : Shows .nothing 0
  | hour {h : List Char} {hour : Nat} (hourNumeral : Numeral h hour) (hour_lt : hour < 24) :
    Shows (.hour h) (clockNanos hour 0 0 0)
  | minute {h m : List Char} {hour minute : Nat} (hourNumeral : Numeral h hour) (hour_lt : hour < 24)
    (minuteNumeral : Numeral m minute) (minute_lt : minute < 60) :
    Shows (.minute h m) (clockNanos hour minute 0 0)
  | second {h m s : List Char} {hour minute second : Nat} (hourNumeral : Numeral h hour)
    (hour_lt : hour < 24) (minuteNumeral : Numeral m minute) (minute_lt : minute < 60)
    (secondNumeral : Numeral s second) (second_lt : second < 60) :
    Shows (.second h m s) (clockNanos hour minute second 0)
  | fraction {h m s f : List Char} {hour minute second : Nat} (hourNumeral : Numeral h hour)
    (hour_lt : hour < 24) (minuteNumeral : Numeral m minute) (minute_lt : minute < 60)
    (secondNumeral : Numeral s second) (second_lt : second < 60)
    (fractionDigits : Digits f) :
    Shows (.fraction h m s f) (clockNanos hour minute second (thousandths f))

/-- A zone shows an offset, in seconds. -/
inductive ZoneText.Shows : ZoneText → Int → Prop where
  | nothing : Shows .nothing 0
  | universal : Shows .universal 0
  | offset {west : Bool} {h m : List Char} {hours minutes offset : Int}
    (hoursNumeral : SignedNumeral h hours) (minutesNumeral : SignedNumeral m minutes)
    (offset_eq : (if west then offset? (-hours) (-minutes) else offset? hours minutes) = some offset) :
    Shows (.offset west h m) offset

/-- A date denotes an instant, in nanoseconds from the epoch. -/
def DateText.Denotes (text : DateText) (nanos : Int) : Prop :=
  ∃ (date : Date) (clock offset : Int), DayShows text.day date ∧
    (text.clock.elim (clock = 0) fun written => written.Shows clock) ∧ text.zone.Shows offset ∧
    nanos = secondNanos * (daySeconds * date.sinceEpoch - offset) + clock

/-! ## The reader -/

lemma Date.of?_eq_some_iff {year month day : Nat} {date : Date} :
    Date.of? year month day = some date ↔
      date.year = year ∧ date.month = month ∧ date.day = day := by
  constructor
  · intro h
    unfold Date.of? at h
    split at h
    · split at h
      · cases h
        exact ⟨rfl, rfl, rfl⟩
      · cases h
    · cases h
  · rintro ⟨rfl, rfl, rfl⟩
    rw [Date.of?, dif_pos date.month_valid, dif_pos date.day_valid]

lemma date?_eq_some_iff {text : List Char} {date : Date} :
    date? text = some date ↔ DayShows text date := by
  constructor
  · intro h
    unfold date? at h
    split at h
    · rename_i y1 y2 y3 y4 m1 m2 d1 d2
      simp only [Option.bind_eq_bind, Option.bind_eq_some_iff, decimal?_eq_some_iff,
        Date.of?_eq_some_iff] at h
      obtain ⟨year, hyear, month, hmonth, day, hday, rfl, rfl, rfl⟩ := h
      exact ⟨[y1, y2, y3, y4], [m1, m2], [d1, d2], rfl, rfl, rfl, rfl, hyear, hmonth, hday⟩
    · cases h
  · rintro ⟨year, month, day, rfl, hyearLength, hmonthLength, hdayLength, hyear, hmonth, hday⟩
    obtain ⟨y1, y2, y3, y4, rfl⟩ : ∃ a b c d, year = [a, b, c, d] := by
      match year, hyearLength with
      | [a, b, c, d], _ => exact ⟨a, b, c, d, rfl⟩
    obtain ⟨m1, m2, rfl⟩ := List.length_eq_two.mp hmonthLength
    obtain ⟨d1, d2, rfl⟩ := List.length_eq_two.mp hdayLength
    simp only [List.cons_append, List.nil_append, date?, decimal?_eq_some_iff.mpr hyear,
      decimal?_eq_some_iff.mpr hmonth, decimal?_eq_some_iff.mpr hday, Option.bind_eq_bind,
      Option.bind_some]
    exact Date.of?_eq_some_iff.mpr ⟨rfl, rfl, rfl⟩

lemma DayShows.length {text : List Char} {date : Date} (h : DayShows text date) :
    text.length = 10 := by
  obtain ⟨year, month, day, rfl, hyear, hmonth, hday, -⟩ := h
  simp [hyear, hmonth, hday]

/-! ### Clocks -/

lemma clockNumber?_eq_some {text : List Char} (h : '+' ∉ text) {n : Nat} :
    clockNumber? text = some n ↔ Numeral text n ∧ n ≤ 255 := by
  rw [clockNumber?, Option.filter_eq_some_iff, natural?_eq_some_iff h, decide_eq_true_iff]

/-- Every number of a clock that is small enough is read. -/
lemma clockNumber?_of_numeral {text : List Char} {n : Nat} (h : Numeral text n) (hn : n ≤ 255) :
    clockNumber? text = some n :=
  (clockNumber?_eq_some (h.digits.notMem (by decide))).mpr ⟨h, hn⟩

/-- Three digits count, and there are three of them. -/
lemma thousandths_lt {fraction : List Char} (h : Digits fraction) : thousandths fraction < 1000 := by
  have hdigits : ∀ c ∈ (fraction ++ ['0', '0']).take 3, isDigit c = true := by
    intro c hc
    rcases List.mem_append.mp (List.mem_of_mem_take hc) with hc | hc
    · exact h.isDigit c hc
    · fin_cases hc <;> decide
  calc
    thousandths fraction < 10 ^ ((fraction ++ ['0', '0']).take 3).length := decimalValue_lt hdigits
    _ ≤ 10 ^ 3 := Nat.pow_le_pow_right (by decide) (List.length_take_le _ _)

lemma timeOfDay?_eq_some_iff {hour minute second milli : Nat} {nanos : Int} :
    timeOfDay? hour minute (second, milli) = some nanos ↔
      hour < 24 ∧ minute < 60 ∧ second < 60 ∧ milli < 1000 ∧
        nanos = clockNanos hour minute second milli := by
  rw [timeOfDay?, clockNanos]
  by_cases h : hour < 24 ∧ minute < 60 ∧ second < 60 ∧ milli < 1000
  · rw [if_pos h, Option.some.injEq, eq_comm]
    tauto
  · rw [if_neg h]
    refine iff_of_false nofun ?_
    tauto

lemma seconds?_of_numeral {text : List Char} {second : Nat} (h : Numeral text second)
    (hsecond : second ≤ 255) : seconds? text = some (second, 0) := by
  rw [seconds?, splitOnce_eq_none_iff.mpr (h.digits.notMem (by decide))]
  simp only [clockNumber?_of_numeral h hsecond, Option.map_some]

lemma seconds?_of_fraction {whole fraction : List Char} {second : Nat} (h : Numeral whole second)
    (hsecond : second ≤ 255) (hfraction : Digits fraction) :
    seconds? (whole ++ '.' :: fraction) = some (second, thousandths fraction) := by
  have hsplit : splitOnce '.' (whole ++ '.' :: fraction) = some (whole, fraction) :=
    splitOnce_eq_some_iff.mpr ⟨rfl, h.digits.notMem (by decide)⟩
  have haccepted : (fraction.isEmpty || !fraction.all isDigit) = false := by
    simpa [hfraction.ne_nil] using hfraction.isDigit
  rw [seconds?, hsplit]
  simp only [haccepted, clockNumber?_of_numeral h hsecond, Option.map_some]
  rfl

lemma seconds?_cases {text : List Char} (h : '+' ∉ text) {second milli : Nat}
    (hseconds : seconds? text = some (second, milli)) :
    (Numeral text second ∧ milli = 0) ∨
      ∃ whole fraction, text = whole ++ '.' :: fraction ∧ Numeral whole second ∧ Digits fraction ∧
        milli = thousandths fraction := by
  unfold seconds? at hseconds
  split at hseconds
  · obtain ⟨n, hn, heq⟩ := Option.map_eq_some_iff.mp hseconds
    cases heq
    exact .inl ⟨((clockNumber?_eq_some h).mp hn).1, rfl⟩
  · rename_i whole fraction hsplit
    obtain ⟨rfl, -⟩ := splitOnce_eq_some_iff.mp hsplit
    split at hseconds
    · cases hseconds
    · rename_i hfraction
      obtain ⟨n, hn, heq⟩ := Option.map_eq_some_iff.mp hseconds
      cases heq
      have hwhole : '+' ∉ whole := fun hmem => h (List.mem_append_left _ hmem)
      simp only [Bool.or_eq_true, List.isEmpty_iff, Bool.not_eq_true', not_or, Bool.not_eq_false,
        List.all_eq_true] at hfraction
      exact .inr ⟨whole, fraction, rfl, ((clockNumber?_eq_some hwhole).mp hn).1,
        ⟨hfraction.1, hfraction.2⟩, rfl⟩

/-- The numbers of a clock are rows of digits. -/
def ClockText.Numeric : ClockText → Prop
  | nothing => True
  | hour h => Digits h
  | minute h m => Digits h ∧ Digits m
  | second h m s => Digits h ∧ Digits m ∧ Digits s
  | fraction h m s f => Digits h ∧ Digits m ∧ Digits s ∧ Digits f

/-- The texts between the colons of a clock. -/
def ClockText.pieces : ClockText → List (List Char)
  | nothing => [[]]
  | hour h => [h]
  | minute h m => [h, m]
  | second h m s => [h, m, s]
  | fraction h m s f => [h, m, s ++ '.' :: f]

lemma ClockText.Shows.numeric {clock : ClockText} {nanos : Int} (h : clock.Shows nanos) :
    clock.Numeric := by
  cases h with
  | nothing => trivial
  | hour h => exact h.digits
  | minute h _ m => exact ⟨h.digits, m.digits⟩
  | second h _ m _ s => exact ⟨h.digits, m.digits, s.digits⟩
  | fraction h _ m _ s _ f => exact ⟨h.digits, m.digits, s.digits, f⟩

/-- The colons of a clock are those between its numbers. -/
lemma ClockText.splitAll_text {clock : ClockText} (h : clock.Numeric) :
    splitAll ':' clock.text = clock.pieces := by
  have hcolon : ∀ {text : List Char}, Digits text → ':' ∉ text :=
    fun hdigits => hdigits.notMem (by decide)
  cases clock with
  | nothing => rfl
  | hour t => exact splitAll_eq_singleton_iff.mpr ⟨rfl, hcolon h⟩
  | minute t m =>
    exact splitAll_eq_cons_cons_iff.mpr ⟨_, rfl, hcolon h.1,
      splitAll_eq_singleton_iff.mpr ⟨rfl, hcolon h.2⟩⟩
  | second t m s =>
    exact splitAll_eq_cons_cons_iff.mpr ⟨_, rfl, hcolon h.1,
      splitAll_eq_cons_cons_iff.mpr ⟨_, rfl, hcolon h.2.1,
        splitAll_eq_singleton_iff.mpr ⟨rfl, hcolon h.2.2⟩⟩⟩
  | fraction t m s f =>
    have hlast : ':' ∉ s ++ '.' :: f := by
      simpa [hcolon h.2.2.2] using hcolon h.2.2.1
    exact splitAll_eq_cons_cons_iff.mpr ⟨_, rfl, hcolon h.1,
      splitAll_eq_cons_cons_iff.mpr ⟨_, rfl, hcolon h.2.1,
        splitAll_eq_singleton_iff.mpr ⟨rfl, hlast⟩⟩⟩

/-- What a clock shows is read. -/
lemma ClockText.Shows.clock?_text {clock : ClockText} {nanos : Int} (h : clock.Shows nanos) :
    clock? clock.text = some nanos := by
  have hsplit := splitAll_text h.numeric
  cases h with
  | nothing => rfl
  | hour hourNumeral hour_lt =>
    rw [clock?, if_neg (by simpa [text] using hourNumeral.digits.ne_nil), hsplit]
    simp only [pieces, clockNumber?_of_numeral hourNumeral (by omega), Option.bind_eq_bind,
      Option.bind_some]
    exact timeOfDay?_eq_some_iff.mpr ⟨hour_lt, by decide, by decide, by decide, rfl⟩
  | minute hourNumeral hour_lt minuteNumeral minute_lt =>
    rw [clock?, if_neg (by simp [text]), hsplit]
    simp only [pieces, clockNumber?_of_numeral hourNumeral (by omega),
      clockNumber?_of_numeral minuteNumeral (by omega), Option.bind_eq_bind, Option.bind_some]
    exact timeOfDay?_eq_some_iff.mpr ⟨hour_lt, minute_lt, by decide, by decide, rfl⟩
  | second hourNumeral hour_lt minuteNumeral minute_lt secondNumeral second_lt =>
    rw [clock?, if_neg (by simp [text]), hsplit]
    simp only [pieces, clockNumber?_of_numeral hourNumeral (by omega),
      clockNumber?_of_numeral minuteNumeral (by omega),
      seconds?_of_numeral secondNumeral (by omega), Option.bind_eq_bind, Option.bind_some]
    exact timeOfDay?_eq_some_iff.mpr ⟨hour_lt, minute_lt, second_lt, by decide, rfl⟩
  | fraction hourNumeral hour_lt minuteNumeral minute_lt secondNumeral second_lt fractionDigits =>
    rw [clock?, if_neg (by simp [text]), hsplit]
    simp only [pieces, clockNumber?_of_numeral hourNumeral (by omega),
      clockNumber?_of_numeral minuteNumeral (by omega),
      seconds?_of_fraction secondNumeral (by omega) fractionDigits, Option.bind_eq_bind,
      Option.bind_some]
    exact timeOfDay?_eq_some_iff.mpr
      ⟨hour_lt, minute_lt, second_lt, thousandths_lt fractionDigits, rfl⟩

/-- What is read is shown by a clock. -/
lemma exists_shows_of_clock? {text : List Char} (hplus : '+' ∉ text) {nanos : Int}
    (h : clock? text = some nanos) : ∃ clock : ClockText, clock.text = text ∧ clock.Shows nanos := by
  unfold clock? at h
  split at h
  · rename_i hempty
    cases h
    exact ⟨.nothing, (List.isEmpty_iff.mp hempty).symm, .nothing⟩
  · split at h
    · rename_i hour hsplit
      obtain ⟨rfl, -⟩ := splitAll_eq_singleton_iff.mp hsplit
      simp only [Option.bind_eq_bind, Option.bind_eq_some_iff, timeOfDay?_eq_some_iff,
        clockNumber?_eq_some hplus] at h
      obtain ⟨n, ⟨hhour, -⟩, hlt, -, -, -, rfl⟩ := h
      exact ⟨.hour text, rfl, .hour hhour hlt⟩
    · rename_i hour minute hsplit
      obtain ⟨rest, rfl, -, hrest⟩ := splitAll_eq_cons_cons_iff.mp hsplit
      obtain ⟨rfl, -⟩ := splitAll_eq_singleton_iff.mp hrest
      simp only [List.mem_append, List.mem_cons, not_or] at hplus
      simp only [Option.bind_eq_bind, Option.bind_eq_some_iff, timeOfDay?_eq_some_iff,
        clockNumber?_eq_some hplus.1, clockNumber?_eq_some hplus.2.2] at h
      obtain ⟨n, ⟨hhour, -⟩, k, ⟨hminute, -⟩, hn, hk, -, -, rfl⟩ := h
      exact ⟨.minute hour rest, rfl, .minute hhour hn hminute hk⟩
    · rename_i hour minute second hsplit
      obtain ⟨rest, rfl, -, hrest⟩ := splitAll_eq_cons_cons_iff.mp hsplit
      obtain ⟨rest, rfl, -, hrest⟩ := splitAll_eq_cons_cons_iff.mp hrest
      obtain ⟨rfl, -⟩ := splitAll_eq_singleton_iff.mp hrest
      simp only [List.mem_append, List.mem_cons, not_or] at hplus
      simp only [Option.bind_eq_bind, Option.bind_eq_some_iff, timeOfDay?_eq_some_iff, Prod.exists,
        clockNumber?_eq_some hplus.1, clockNumber?_eq_some hplus.2.2.1] at h
      obtain ⟨n, ⟨hhour, -⟩, k, ⟨hminute, -⟩, i, j, hseconds, hn, hk, hi, -, rfl⟩ := h
      rcases seconds?_cases hplus.2.2.2.2 hseconds with ⟨hsecond, rfl⟩ |
        ⟨whole, fraction, rfl, hsecond, hfraction, rfl⟩
      · exact ⟨.second hour minute rest, rfl, .second hhour hn hminute hk hsecond hi⟩
      · exact ⟨.fraction hour minute whole fraction, rfl,
          .fraction hhour hn hminute hk hsecond hi hfraction⟩
    · cases h

/-! ### Zones -/

lemma zoneNumber?_eq_some_iff {text : List Char} {z : Int} :
    zoneNumber? text = some z ↔ SignedNumeral text z ∧ -128 ≤ z ∧ z ≤ 127 := by
  rw [zoneNumber?, Option.filter_eq_some_iff, integer?_eq_some_iff, decide_eq_true_iff]

/-- The minutes of an offset have the sign of its hours, whatever sign they were given. -/
lemma offset?_eq_some {hours minutes offset : Int} (h : offset? hours minutes = some offset) :
    hours.natAbs ≤ 25 ∧ minutes.natAbs ≤ 59 ∧
      (offset = 3600 * hours + 60 * minutes ∨ offset = 3600 * hours - 60 * minutes) := by
  unfold offset? at h
  split at h
  · rename_i hbounds
    have hoffset := Option.some.inj h
    refine ⟨hbounds.1, hbounds.2, ?_⟩
    split at hoffset
    · exact .inr (by omega)
    · exact .inl (by omega)
  · cases h

/-- What a zone shows is read. -/
lemma ZoneText.Shows.zone?_text {zone : ZoneText} {offset : Int} (h : zone.Shows offset) :
    zone? zone.text = some offset := by
  cases h with
  | nothing => rfl
  | universal => rfl
  | @offset west h m hours minutes _ hoursNumeral minutesNumeral offset_eq =>
    have hsplit : splitOnce ':' (h ++ ':' :: m) = some (h, m) :=
      splitOnce_eq_some_iff.mpr ⟨rfl, hoursNumeral.colon_notMem⟩
    have hbounds : hours.natAbs ≤ 25 ∧ minutes.natAbs ≤ 59 := by
      cases west with
      | false => exact ⟨(offset?_eq_some offset_eq).1, (offset?_eq_some offset_eq).2.1⟩
      | true =>
        obtain ⟨hhours, hminutes, -⟩ := offset?_eq_some offset_eq
        rw [Int.natAbs_neg] at hhours hminutes
        exact ⟨hhours, hminutes⟩
    have hhours : zoneNumber? h = some hours :=
      zoneNumber?_eq_some_iff.mpr ⟨hoursNumeral, by omega, by omega⟩
    have hminutes : zoneNumber? m = some minutes :=
      zoneNumber?_eq_some_iff.mpr ⟨minutesNumeral, by omega, by omega⟩
    cases west with
    | false | true => simpa [text, zone?, hsplit, hhours, hminutes] using offset_eq

/-- What is read is shown by a zone. -/
lemma exists_shows_of_zone? {text : List Char} {offset : Int} (h : zone? text = some offset) :
    ∃ zone : ZoneText, zone.text = text ∧ zone.Shows offset := by
  unfold zone? at h
  split at h
  · cases h
    exact ⟨.nothing, rfl, .nothing⟩
  · cases h
    exact ⟨.universal, rfl, .universal⟩
  · simp only [Option.bind_eq_bind, Option.bind_eq_some_iff, Prod.exists, splitOnce_eq_some_iff,
      zoneNumber?_eq_some_iff] at h
    obtain ⟨hourText, minuteText, ⟨rfl, -⟩, hours, ⟨hhours, -⟩, minutes, ⟨hminutes, -⟩, h⟩ := h
    split at h
    · rename_i hsign
      subst hsign
      exact ⟨.offset false hourText minuteText, rfl, .offset hhours hminutes h⟩
    · split at h
      · rename_i hsign
        subst hsign
        exact ⟨.offset true hourText minuteText, rfl, .offset hhours hminutes h⟩
      · cases h

/-! ### Dates -/

lemma startsZone_of_isDigit {c : Char} (h : isDigit c = true) : startsZone c = false := by
  by_contra hzone
  simp only [startsZone, Bool.not_eq_false, Bool.or_eq_true, beq_iff_eq] at hzone
  rcases hzone with (rfl | rfl) | rfl <;> cases h

/-- A clock is made of digits, colons and points. -/
lemma ClockText.forall_mem_text {p : Char → Prop} (hdigit : ∀ c, isDigit c = true → p c)
    (hcolon : p ':') (hpoint : p '.') {clock : ClockText} (h : clock.Numeric) :
    ∀ c ∈ clock.text, p c := by
  have hdigits : ∀ {text : List Char}, Digits text → ∀ c ∈ text, p c :=
    fun hdigits c hc => hdigit c (hdigits.isDigit c hc)
  cases clock with
  | nothing => exact List.forall_mem_nil _
  | hour => exact hdigits h
  | minute =>
    simp only [text, List.forall_mem_append, List.forall_mem_cons]
    exact ⟨hdigits h.1, hcolon, hdigits h.2⟩
  | second =>
    simp only [text, List.forall_mem_append, List.forall_mem_cons]
    exact ⟨hdigits h.1, hcolon, hdigits h.2.1, hcolon, hdigits h.2.2⟩
  | fraction =>
    simp only [text, List.forall_mem_append, List.forall_mem_cons]
    exact ⟨hdigits h.1, hcolon, hdigits h.2.1, hcolon, hdigits h.2.2.1, hpoint, hdigits h.2.2.2⟩

/-- Nothing in a clock begins a zone. -/
lemma ClockText.startsZone_eq_false {clock : ClockText} (h : clock.Numeric) :
    ∀ c ∈ clock.text, startsZone c = false :=
  forall_mem_text (fun _ => startsZone_of_isDigit) (by decide) (by decide) h

/-- A zone begins like one. -/
lemma ZoneText.span_text (zone : ZoneText) :
    zone.text.takeWhile (!startsZone ·) = [] ∧ zone.text.dropWhile (!startsZone ·) = zone.text := by
  cases zone with
  | nothing => exact ⟨rfl, rfl⟩
  | universal => exact ⟨rfl, rfl⟩
  | offset west h m => cases west <;> exact ⟨rfl, rfl⟩

/-- A zone is cut off where it begins, whether there is a clock before it or not. -/
lemma splitZone_clockText {clock : Option ClockText} (zone : ZoneText)
    (h : ∀ written ∈ clock, written.Numeric) :
    splitZone (DateText.clockText clock ++ zone.text) =
      ((clock.map ClockText.text).getD [], zone.text) := by
  cases clock with
  | none =>
    cases zone with
    | nothing => rfl
    | universal => rfl
    | offset west h m => cases west <;> rfl
  | some written =>
    have hwritten : ∀ c ∈ written.text, (!startsZone c) = true := by
      simpa using ClockText.startsZone_eq_false (h written rfl)
    rw [DateText.clockText, List.cons_append, splitZone, List.takeWhile_append_of_pos hwritten,
      List.dropWhile_append_of_pos hwritten, zone.span_text.1, zone.span_text.2, List.append_nil]
    rfl

lemma nanos?_eq (text : List Char) :
    nanos? text = (date? ((trim text).take 10)).bind fun date =>
      (clock? (splitZone ((trim text).drop 10)).1).bind fun clock =>
        (zone? (splitZone ((trim text).drop 10)).2).bind fun offset =>
          some (secondNanos * (daySeconds * date.sinceEpoch - offset) + clock) := rfl

/-- What is read after a day is a clock, if there is a `T`, and a zone. -/
lemma exists_of_splitZone {rest : List Char} {nanos offset : Int}
    (hclock : clock? (splitZone rest).1 = some nanos) (hzone : zone? (splitZone rest).2 = some offset) :
    ∃ (clock : Option ClockText) (zone : ZoneText), DateText.clockText clock ++ zone.text = rest ∧
      clock.elim (nanos = 0) (fun written => written.Shows nanos) ∧ zone.Shows offset := by
  obtain ⟨zone, hzoneText, hzoneShows⟩ := exists_shows_of_zone? hzone
  cases hsplit : splitZone rest with
  | mk clockText zoneText =>
    rw [hsplit] at hclock hzoneText
    unfold splitZone at hsplit
    split at hsplit <;> cases hsplit
    · rename_i rest
      have hplus : '+' ∉ rest.takeWhile (!startsZone ·) := by
        intro hmem
        have hstarts := List.mem_takeWhile_imp hmem
        cases hstarts
      obtain ⟨clock, hclockText, hclockShows⟩ := exists_shows_of_clock? hplus hclock
      refine ⟨some clock, zone, ?_, hclockShows, hzoneShows⟩
      rw [DateText.clockText, hclockText, hzoneText, List.cons_append,
        List.takeWhile_append_dropWhile]
    · cases hclock
      exact ⟨none, zone, hzoneText, rfl, hzoneShows⟩

/-- **The reader gives what is denoted**, and accepts nothing else. -/
theorem nanos?_eq_some_iff {text : List Char} {nanos : Int} :
    nanos? text = some nanos ↔ ∃ date : DateText, date.text = trim text ∧ date.Denotes nanos := by
  rw [nanos?_eq]
  constructor
  · intro h
    simp only [Option.bind_eq_some_iff, Option.some.injEq, date?_eq_some_iff] at h
    obtain ⟨date, hday, nanos, hclock, offset, hoffset, rfl⟩ := h
    obtain ⟨clock, zone, hrest, hclock, hzone⟩ := exists_of_splitZone hclock hoffset
    refine ⟨⟨(trim text).take 10, clock, zone⟩, ?_, date, nanos, offset, hday, hclock, hzone, rfl⟩
    rw [DateText.text, hrest, List.take_append_drop]
  · rintro ⟨written, htext, date, clock, offset, hday, hclock, hoffset, rfl⟩
    have hnumeric : ∀ shown ∈ written.clock, shown.Numeric := by
      intro shown hshown
      rw [Option.mem_def.mp hshown] at hclock
      exact hclock.numeric
    have hread : clock? ((written.clock.map ClockText.text).getD []) = some clock := by
      cases hwritten : written.clock with
      | none =>
        rw [hwritten] at hclock
        rw [hclock]
        rfl
      | some shown =>
        rw [hwritten] at hclock
        exact hclock.clock?_text
    rw [← htext, DateText.text, ← hday.length, List.take_left, List.drop_left,
      splitZone_clockText written.zone hnumeric, date?_eq_some_iff.mpr hday, Option.bind_some, hread,
      Option.bind_some, hoffset.zone?_text, Option.bind_some]

/-! ### Milliseconds -/

/-- A clock shows milliseconds, and fewer than a day has. -/
lemma ClockText.Shows.exists_millis {clock : ClockText} {nanos : Int} (h : clock.Shows nanos) :
    ∃ millis, nanos = milliNanos * millis ∧ 0 ≤ millis ∧ millis < 86400000 := by
  have hmillis : ∀ {hour minute second milli : Nat}, hour < 24 → minute < 60 → second < 60 →
      milli < 1000 → ∃ millis, clockNanos hour minute second milli = milliNanos * millis ∧
        0 ≤ millis ∧ millis < 86400000 := by
    intro hour minute second milli hhour hminute hsecond hmilli
    exact ⟨_, clockNanos_eq hour minute second milli, by omega, by omega⟩
  cases h with
  | nothing => exact ⟨0, rfl, le_rfl, by decide⟩
  | hour _ hour_lt => exact hmillis hour_lt (by decide) (by decide) (by decide)
  | minute _ hour_lt _ minute_lt => exact hmillis hour_lt minute_lt (by decide) (by decide)
  | second _ hour_lt _ minute_lt _ second_lt =>
    exact hmillis hour_lt minute_lt second_lt (by decide)
  | fraction _ hour_lt _ minute_lt _ second_lt fractionDigits =>
    exact hmillis hour_lt minute_lt second_lt (thousandths_lt fractionDigits)

lemma ZoneText.Shows.natAbs_le {zone : ZoneText} {offset : Int} (h : zone.Shows offset) :
    offset.natAbs ≤ 93540 := by
  cases h with
  | nothing => decide
  | universal => decide
  | @offset west _ _ hours minutes _ _ _ offset_eq =>
    cases west with
    | false =>
      obtain ⟨hhours, hminutes, hoffset⟩ := offset?_eq_some offset_eq
      omega
    | true =>
      obtain ⟨hhours, hminutes, hoffset⟩ := offset?_eq_some offset_eq
      omega

/-- Four digits write years below 10000, and so dates near enough to the epoch. -/
lemma DayShows.sinceEpoch_bounds {text : List Char} {date : Date} (h : DayShows text date) :
    -719528 ≤ date.sinceEpoch ∧ date.sinceEpoch < 3000000 := by
  obtain ⟨year, month, day, -, hyearLength, -, -, hyear, -⟩ := h
  have hlt : date.year < 10 ^ 4 := by
    rw [← hyear.value, ← hyearLength]
    exact decimalValue_lt hyear.digits.isDigit
  have hordinal := date.ordinal_lt
  unfold daysBeforeYear at hordinal
  unfold Date.sinceEpoch epochOrdinal
  omega

/-- An instant that is denoted is one of milliseconds, and one that can be kept. -/
lemma DateText.Denotes.exists_millis {text : DateText} {nanos : Int} (h : text.Denotes nanos) :
    ∃ millis, nanos = milliNanos * millis ∧ millisOfNanos? nanos = some millis := by
  obtain ⟨date, clock, offset, hday, hclock, hoffset, rfl⟩ := h
  obtain ⟨millis, rfl, hpositive, hlt⟩ :
      ∃ millis, clock = milliNanos * millis ∧ 0 ≤ millis ∧ millis < 86400000 := by
    cases hwritten : text.clock with
    | none =>
      rw [hwritten] at hclock
      exact ⟨0, hclock, le_rfl, by decide⟩
    | some written =>
      rw [hwritten] at hclock
      exact hclock.exists_millis
  have hzone := hoffset.natAbs_le
  have hdate := hday.sinceEpoch_bounds
  have hnanos : secondNanos * (daySeconds * date.sinceEpoch - offset) + milliNanos * millis =
      milliNanos * (1000 * (daySeconds * date.sinceEpoch - offset) + millis) := by
    unfold secondNanos milliNanos
    omega
  refine ⟨_, hnanos, ?_⟩
  rw [hnanos, millisOfNanos?, Int.mul_tdiv_cancel_left _ (by decide)]
  unfold daySeconds
  exact if_pos (by omega)

/-- **Nothing is lost in milliseconds**, neither before nor after the epoch. -/
theorem millis?_eq_some_iff {text : List Char} {millis : Int} :
    millis? text = some millis ↔
      ∃ date : DateText, date.text = trim text ∧ date.Denotes (milliNanos * millis) := by
  rw [millis?, Option.bind_eq_some_iff, ← nanos?_eq_some_iff]
  constructor
  · rintro ⟨nanos, hnanos, hmillis⟩
    obtain ⟨date, -, hdenotes⟩ := nanos?_eq_some_iff.mp hnanos
    obtain ⟨millis', rfl, hmillis'⟩ := hdenotes.exists_millis
    rw [hmillis'] at hmillis
    cases hmillis
    exact hnanos
  · intro hnanos
    obtain ⟨date, -, hdenotes⟩ := nanos?_eq_some_iff.mp hnanos
    obtain ⟨millis', heq, hmillis⟩ := hdenotes.exists_millis
    obtain rfl : millis = millis' := by
      unfold milliNanos at heq
      omega
    exact ⟨_, hnanos, hmillis⟩

end Calendar

end QuadStore
