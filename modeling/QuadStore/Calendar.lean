import QuadStore.Text

/-!
# Dates and instants

Years, months and days of the proleptic Gregorian calendar, and the instants that are written as dates
or as dates with a time of day.  An instant is computed in nanoseconds since the epoch, the first of
January 1970, and then cut down to milliseconds, which are kept in 64 bits.

## Main definitions

* `isLeap`, `daysInMonth`: the shape of a year.
* `Date`: a valid date of a year from 0 on.
* `Date.sinceEpoch`: the days from the epoch to a date, negative before it.
* `nanos?`: the instant that a text denotes.
* `millisOfNanos?`: an instant in milliseconds, if it can be kept.
* `millis?`: the instant that a text denotes, in milliseconds.
-/

namespace QuadStore.Calendar

/-! ## The Gregorian calendar -/

/-- Every fourth year is a leap year, but of the full centuries only every fourth. -/
def isLeap (year : Nat) : Bool := year % 4 == 0 && (year % 100 != 0 || year % 400 == 0)

/-- The number of days of a month, counted from 1. -/
def daysInMonth (year month : Nat) : Nat :=
  if month = 2 then (if isLeap year then 29 else 28)
  else if month = 4 ∨ month = 6 ∨ month = 9 ∨ month = 11 then 30
  else 31

/-- A day of the calendar. -/
structure Date where
  year : Nat
  month : Nat
  day : Nat
  month_valid : 1 ≤ month ∧ month ≤ 12
  day_valid : 1 ≤ day ∧ day ≤ daysInMonth year month
  deriving DecidableEq, Repr

/-- The date with these numbers, if there is one. -/
def Date.of? (year month day : Nat) : Option Date :=
  if hm : 1 ≤ month ∧ month ≤ 12 then
    if hd : 1 ≤ day ∧ day ≤ daysInMonth year month then some ⟨year, month, day, hm, hd⟩ else none
  else none

/-- The days of the years before a year: 365 each, and one more for each leap year. -/
def daysBeforeYear (year : Nat) : Nat :=
  365 * year + (year + 3) / 4 - (year + 99) / 100 + (year + 399) / 400

/-- The days of a year before a month. -/
def daysBeforeMonth (year month : Nat) : Nat :=
  ((List.range month).drop 1).foldl (fun days m => days + daysInMonth year m) 0

/-- The days from the first of January of the year 0 to a date. -/
def Date.ordinal (date : Date) : Nat :=
  daysBeforeYear date.year + daysBeforeMonth date.year date.month + (date.day - 1)

/-- The days from the first of January of the year 0 to the epoch. -/
def epochOrdinal : Nat := 719528

/-- The days from the epoch to a date. -/
def Date.sinceEpoch (date : Date) : Int := (date.ordinal : Int) - epochOrdinal

/-! ## Instants written as dates

A form is a date of exactly ten characters, then optionally `T` and a clock, then optionally a zone.  A
clock is an hour, optionally followed by minutes and by seconds with a fraction, of which three digits
count.  A zone is `Z`, or a sign, hours, a colon and minutes; without one the time is taken as universal
time.

The numbers of a clock and of a zone are read by the general readers of small integers, so a sign,
leading zeros and a single digit are accepted there, though no form that is documented has them.
-/

/-- The seconds of a day. -/
def daySeconds : Int := 86400

/-- The nanoseconds of a second. -/
def secondNanos : Int := 1000000000

/-- The nanoseconds of a millisecond. -/
def milliNanos : Int := 1000000

/-- The date written as four digits of the year, two of the month and two of the day. -/
def date? : List Char → Option Date
  | [y1, y2, y3, y4, '-', m1, m2, '-', d1, d2] => do
    let year ← Text.decimal? [y1, y2, y3, y4]
    let month ← Text.decimal? [m1, m2]
    let day ← Text.decimal? [d1, d2]
    Date.of? year month day
  | _ => none

/-- A number of a clock: at most 255, after an optional plus sign. -/
def clockNumber? (text : List Char) : Option Nat :=
  (Text.natural? text).filter (· ≤ 255)

/-- The first three digits of a fraction, those it lacks being zeros: thousandths. -/
def thousandths (fraction : List Char) : Nat :=
  Text.decimalValue ((fraction ++ ['0', '0']).take 3)

/-- Seconds and milliseconds, the latter written as a fraction of any length. -/
def seconds? (text : List Char) : Option (Nat × Nat) :=
  match Text.splitOnce '.' text with
  | none => (clockNumber? text).map (·, 0)
  | some (whole, fraction) =>
    if fraction.isEmpty || !fraction.all Text.isDigit then none
    else (clockNumber? whole).map (·, thousandths fraction)

/-- The nanoseconds from midnight to a time of day.  The day has no twenty-fifth hour and its end
is not its own: the hour is below 24. -/
def timeOfDay? (hour minute : Nat) : Nat × Nat → Option Int
  | (second, milli) =>
    if hour < 24 ∧ minute < 60 ∧ second < 60 ∧ milli < 1000 then
      some (secondNanos * (3600 * hour + 60 * minute + second) + milliNanos * milli)
    else none

/-- The nanoseconds from midnight that a clock shows; an empty clock shows midnight. -/
def clock? (text : List Char) : Option Int :=
  if text.isEmpty then some 0
  else match Text.splitAll ':' text with
    | [hour] => do timeOfDay? (← clockNumber? hour) 0 (0, 0)
    | [hour, minute] => do timeOfDay? (← clockNumber? hour) (← clockNumber? minute) (0, 0)
    | [hour, minute, second] => do
      timeOfDay? (← clockNumber? hour) (← clockNumber? minute) (← seconds? second)
    | _ => none

/-- A number of a zone: from -128 to 127, after an optional sign. -/
def zoneNumber? (text : List Char) : Option Int :=
  (Text.integer? text).filter fun n => -128 ≤ n ∧ n ≤ 127

/-- The offset of these hours and minutes, in seconds.  Minutes of the opposite sign to
non-zero hours take the sign of the hours. -/
def offset? (hours minutes : Int) : Option Int :=
  if hours.natAbs ≤ 25 ∧ minutes.natAbs ≤ 59 then
    let minutes := if 0 < hours ∧ minutes < 0 ∨ hours < 0 ∧ 0 < minutes then -minutes else minutes
    some (3600 * hours + 60 * minutes)
  else none

/-- The offset from universal time that a zone stands for, in seconds. -/
def zone? : List Char → Option Int
  | [] => some 0
  | ['Z'] => some 0
  | sign :: rest => do
    let (hours, minutes) ← Text.splitOnce ':' rest
    let hours ← zoneNumber? hours
    let minutes ← zoneNumber? minutes
    if sign = '+' then offset? hours minutes
    else if sign = '-' then offset? (-hours) (-minutes)
    else none

/-- Whether a character begins a zone. -/
def startsZone (c : Char) : Bool := c == 'Z' || c == '+' || c == '-'

/-- The clock and the zone after a date.  A zone after a `T` begins at the first character that
can begin one. -/
def splitZone : List Char → List Char × List Char
  | 'T' :: rest => (rest.takeWhile (!startsZone ·), rest.dropWhile (!startsZone ·))
  | rest => ([], rest)

/-- The nanoseconds from the epoch to the instant that a text denotes, blanks around it aside. -/
def nanos? (text : List Char) : Option Int := do
  let text := Text.trim text
  let date ← date? (text.take 10)
  let (clock, zone) := splitZone (text.drop 10)
  let clock ← clock? clock
  let offset ← zone? zone
  return secondNanos * (daySeconds * date.sinceEpoch - offset) + clock

/-- An instant in milliseconds, cut off towards the epoch, if it is an integer of 64 bits. -/
def millisOfNanos? (nanos : Int) : Option Int :=
  let millis := nanos.tdiv milliNanos
  if -9223372036854775808 ≤ millis ∧ millis < 9223372036854775808 then some millis else none

/-- The milliseconds from the epoch to the instant that a text denotes, blanks around it aside. -/
def millis? (text : List Char) : Option Int := (nanos? text).bind millisOfNanos?

end QuadStore.Calendar
