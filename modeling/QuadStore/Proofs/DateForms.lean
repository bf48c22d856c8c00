import Mathlib
import QuadStore.Record
import QuadStore.Proofs.DateReading

/-!
# Dates in other than the documented form

The documented form of a date has numbers of two digits, apart from the year, and an hour after the `T`
(`DocumentedForm`).  More is accepted than that, since the numbers of a clock and of a zone are read by
general readers of numbers, and since the midnight of a date without a clock is also that of a date
whose clock is empty.

But no more than that.  A text that is accepted has only one reading (`DateText.eq_of_text_eq`), and this
reading shows where the text departs from the documented form: it has a `T` that nothing follows, or a
number that is not just two digits (`accepted_forms`).  A date that is not accepted is indexed as a text.
-/

namespace QuadStore.Calendar

open Text

/-! ## The documented form -/

/-- Two digits. -/
def TwoDigits (text : List Char) : Prop := text.length = 2 ∧ ∀ c ∈ text, isDigit c = true

/-- The numbers of a clock. -/
def ClockText.numbers : ClockText → List (List Char)
  | nothing => []
  | hour h => [h]
  | minute h m => [h, m]
  | second h m s => [h, m, s]
  | fraction h m s _ => [h, m, s]

/-- The numbers of a zone. -/
def ZoneText.numbers : ZoneText → List (List Char)
  | nothing => []
  | universal => []
  | offset _ h m => [h, m]

/-- The numbers of a date after its day. -/
def DateText.numbers (date : DateText) : List (List Char) :=
  (date.clock.map ClockText.numbers).getD [] ++ date.zone.numbers

/-- A day as it is documented: four digits, two and two. -/
def DocumentedDay (text : List Char) : Prop :=
  ∃ year month day, text = year ++ '-' :: (month ++ '-' :: day) ∧ year.length = 4 ∧
    (∀ c ∈ year, isDigit c = true) ∧ TwoDigits month ∧ TwoDigits day

/-- A date as it is documented. -/
structure DateText.Documented (date : DateText) : Prop where
  day : DocumentedDay date.day
  /-- An hour follows the `T`. -/
  clock : date.clock ≠ some .nothing
  numbers : ∀ number ∈ date.numbers, TwoDigits number
  fraction : ∀ {h m s f}, date.clock = some (.fraction h m s f) → Digits f

/-- A text has the form `yyyy-MM-dd[THH[:mm[:ss[.fff]]]][Z|+hh:mm|-hh:mm]`. -/
def DocumentedForm (text : List Char) : Prop := ∃ date : DateText, date.text = text ∧ date.Documented

/-! ## One reading -/

/-- A zone whose first colon is the one between its numbers. -/
def ZoneText.Separable : ZoneText → Prop
  | nothing => True
  | universal => True
  | offset _ h _ => ':' ∉ h

/-- A date whose parts can be told from its text. -/
structure DateText.Separable (date : DateText) : Prop where
  day : date.day.length = 10
  clock : ∀ written ∈ date.clock, written.Numeric
  zone : date.zone.Separable

/-- A clock is told by its characters. -/
lemma ClockText.eq_of_text_eq {a b : ClockText} (ha : a.Numeric) (hb : b.Numeric)
    (h : a.text = b.text) : a = b := by
  have hpieces : a.pieces = b.pieces := by rw [← splitAll_text ha, h, splitAll_text hb]
  have hpoint : ∀ {s s' f : List Char}, Digits s → s ≠ s' ++ '.' :: f := by
    rintro s s' f hdigits rfl
    exact hdigits.notMem (c := '.') (by decide) (by simp)
  cases a <;> cases b <;>
    simp only [pieces, List.cons.injEq, reduceCtorEq, and_false, and_true] at hpieces
  case nothing.nothing => rfl
  case nothing.hour => exact absurd hpieces.symm hb.ne_nil
  case hour.nothing => exact absurd hpieces ha.ne_nil
  case hour.hour => rw [hpieces]
  case minute.minute => rw [hpieces.1, hpieces.2]
  case second.second => rw [hpieces.1, hpieces.2.1, hpieces.2.2]
  case second.fraction => exact absurd hpieces.2.2 (hpoint ha.2.2)
  case fraction.second => exact absurd hpieces.2.2.symm (hpoint hb.2.2)
  -- Between the colons the seconds and their fraction are one piece.
  case fraction.fraction h m s f _ _ s' f' =>
    obtain ⟨rfl, rfl, hseconds⟩ := hpieces
    have hsplit : splitOnce '.' (s ++ '.' :: f) = some (s, f) :=
      splitOnce_eq_some_iff.mpr ⟨rfl, ha.2.2.1.notMem (by decide)⟩
    rw [splitOnce_eq_some_iff.mpr ⟨hseconds, hb.2.2.1.notMem (by decide)⟩] at hsplit
    cases hsplit
    rfl

/-- A zone is told by its characters. -/
lemma ZoneText.eq_of_text_eq {a b : ZoneText} (ha : a.Separable) (hb : b.Separable)
    (h : a.text = b.text) : a = b := by
  have hsign : ∀ west : Bool, 'Z' ≠ if west then '-' else '+' := by decide
  have hsigns : ∀ west west' : Bool,
      ((if west then '-' else '+') = if west' then '-' else '+') → west = west' := by decide
  cases a <;> cases b <;> simp only [text, List.cons.injEq, reduceCtorEq] at h
  case nothing.nothing => rfl
  case universal.universal => rfl
  case universal.offset => exact absurd h.1 (hsign _)
  case offset.universal => exact absurd h.1.symm (hsign _)
  case offset.offset west h m west' h' m' =>
    obtain ⟨hwest, hnumbers⟩ := h
    obtain rfl := hsigns _ _ hwest
    have hsplit : splitOnce ':' (h ++ ':' :: m) = some (h, m) := splitOnce_eq_some_iff.mpr ⟨rfl, ha⟩
    rw [splitOnce_eq_some_iff.mpr ⟨hnumbers, hb⟩] at hsplit
    cases hsplit
    rfl

/-- **A date is told by its characters.** -/
theorem DateText.eq_of_text_eq {a b : DateText} (ha : a.Separable) (hb : b.Separable)
    (h : a.text = b.text) : a = b := by
  obtain ⟨hday, hrest⟩ := List.append_inj h (ha.day.trans hb.day.symm)
  have hsplit := congrArg splitZone hrest
  rw [splitZone_clockText _ ha.clock, splitZone_clockText _ hb.clock, Prod.mk.injEq] at hsplit
  have hzone : a.zone = b.zone := ZoneText.eq_of_text_eq ha.zone hb.zone hsplit.2
  rw [hzone] at hrest
  -- The zones are cut off where they begin, but a clock without characters is cut off like none at all;
  -- the `T` tells them apart.
  have hclock : a.clock = b.clock := by
    have htext := List.append_cancel_right hrest
    cases hwritten : a.clock <;> cases hwritten' : b.clock <;>
      simp only [hwritten, hwritten', DateText.clockText, List.cons.injEq, reduceCtorEq, true_and]
        at htext
    case none.none => rfl
    case some.some =>
      rw [ClockText.eq_of_text_eq (ha.clock _ hwritten) (hb.clock _ hwritten') htext]
  cases a
  cases b
  cases hday
  cases hclock
  cases hzone
  rfl

lemma TwoDigits.digits {text : List Char} (h : TwoDigits text) : Digits text :=
  ⟨List.ne_nil_of_length_pos (by rw [h.1]; decide), h.2⟩

/-- The documented form has only one reading. -/
lemma DateText.Documented.separable {date : DateText} (h : date.Documented) : date.Separable := by
  have hnumbers := List.forall_mem_append.mp h.numbers
  refine ⟨?_, ?_, ?_⟩
  · obtain ⟨year, month, day, hday, hyear, -, hmonth, hday'⟩ := h.day
    simp [hday, hyear, hmonth.1, hday'.1]
  · intro written hwritten
    have htwo := hnumbers.1
    rw [Option.mem_def.mp hwritten, Option.map_some, Option.getD_some] at htwo
    cases written <;> simp only [ClockText.numbers, List.forall_mem_cons] at htwo
    case nothing => trivial
    case hour => exact htwo.1.digits
    case minute => exact ⟨htwo.1.digits, htwo.2.1.digits⟩
    case second => exact ⟨htwo.1.digits, htwo.2.1.digits, htwo.2.2.1.digits⟩
    case fraction =>
      exact ⟨htwo.1.digits, htwo.2.1.digits, htwo.2.2.1.digits, h.fraction hwritten⟩
  · have htwo := hnumbers.2
    cases hzone : date.zone with
    | nothing | universal => trivial
    | offset west hours minutes =>
      rw [hzone, ZoneText.numbers, List.forall_mem_cons] at htwo
      exact htwo.1.digits.notMem (by decide)

/-- What denotes an instant has only one reading. -/
lemma DateText.Denotes.separable {date : DateText} {nanos : Int} (h : date.Denotes nanos) :
    date.Separable := by
  obtain ⟨day, clock, offset, hday, hclock, hoffset, -⟩ := h
  refine ⟨hday.length, ?_, ?_⟩
  · intro written hwritten
    rw [Option.mem_def.mp hwritten] at hclock
    exact hclock.numeric
  · cases hzone : date.zone with
    | nothing | universal => trivial
    | offset west hours minutes =>
      rw [hzone] at hoffset
      cases hoffset with
      | offset hoursNumeral => exact hoursNumeral.colon_notMem

/-- Whether a text has the documented form is seen from its reading. -/
lemma DateText.Separable.documentedForm_iff {date : DateText} (h : date.Separable) :
    DocumentedForm date.text ↔ date.Documented := by
  constructor
  · rintro ⟨other, htext, hdocumented⟩
    rwa [← eq_of_text_eq hdocumented.separable h htext]
  · exact fun hdocumented => ⟨date, rfl, hdocumented⟩

/-- What denotes an instant departs from the documented form in no more than two ways. -/
lemma DateText.Denotes.documented_iff {date : DateText} {nanos : Int} (h : date.Denotes nanos) :
    date.Documented ↔ date.clock ≠ some .nothing ∧ ∀ number ∈ date.numbers, TwoDigits number := by
  constructor
  · exact fun hdocumented => ⟨hdocumented.clock, hdocumented.numbers⟩
  · rintro ⟨hclock, hnumbers⟩
    obtain ⟨shown, time, offset, hday, hshows, -⟩ := h
    refine ⟨?_, hclock, hnumbers, ?_⟩
    · obtain ⟨year, month, day, htext, hlength, hmonthLength, hdayLength, hyear, hmonth, hday⟩ := hday
      exact ⟨year, month, day, htext, hlength, hyear.digits.isDigit,
        ⟨hmonthLength, hmonth.digits.isDigit⟩, ⟨hdayLength, hday.digits.isDigit⟩⟩
    · intro hour minute second fraction hfraction
      rw [hfraction] at hshows
      exact hshows.numeric.2.2.2

/-! ## What is accepted -/

/-- **What is accepted, and how it is indexed.**  A date is read just if it has a reading that denotes an
instant; it then has the documented form just if an hour follows its `T` and all its numbers are two
digits.  Any other is indexed as a text. -/
theorem accepted_forms (text : List Char) :
    (∀ millis, millis? text = some millis ↔
      ∃ date : DateText, date.text = trim text ∧ date.Denotes (milliNanos * millis)) ∧
    (∀ (date : DateText) (nanos : Int), date.text = trim text → date.Denotes nanos →
      (DocumentedForm (trim text) ↔
        date.clock ≠ some .nothing ∧ ∀ number ∈ date.numbers, TwoDigits number)) ∧
    ∀ (graph : GraphName) (triple : Triple) (l : Literal), triple.object = .literal l →
      l.kind = .date → l.lexical.toList = text → millis? text = none →
        (Record.ofTriple graph triple).value = none ∧
          (Record.ofTriple graph triple).text = some l.lexical := by
  refine ⟨fun millis => millis?_eq_some_iff, ?_, ?_⟩
  · intro date nanos htext hdenotes
    rw [← htext, hdenotes.separable.documentedForm_iff, hdenotes.documented_iff]
  · intro graph triple l hobject hkind hlexical hnone
    have hvalue : l.kind.value? l.lexical = none := by
      rw [hkind, LiteralKind.value?, hlexical, hnone]
      rfl
    simp [Record.ofTriple, hobject, Term.project, LiteralKind.project, hvalue]

/-- A date with an hour of one digit, and with an offset of two signs, the second of which counts. -/
def twiceSigned : DateText where
  day := "2020-01-01".toList
  clock := some (.minute ['7'] ['0', '5'])
  zone := .offset false ['-', '5'] ['0', '0']

lemma twiceSigned_denotes : twiceSigned.Denotes (milliNanos * 1577880300000) := by
  have hnumeral : ∀ {text : List Char} {n : Nat}, text ≠ [] → (text.all isDigit) = true →
      decimalValue text = n → Numeral text n :=
    fun hne hdigits hvalue => ⟨⟨hne, List.all_eq_true.mp hdigits⟩, hvalue⟩
  refine ⟨⟨2020, 1, 1, by decide, by decide⟩, clockNanos 7 5 0 0, -18000, ?_, ?_, ?_, by decide +kernel⟩
  · exact ⟨['2', '0', '2', '0'], ['0', '1'], ['0', '1'], rfl, rfl, rfl, rfl,
      hnumeral (by decide) rfl rfl, hnumeral (by decide) rfl rfl, hnumeral (by decide) rfl rfl⟩
  · exact .minute (hnumeral (by decide) rfl rfl) (by decide) (hnumeral (by decide) rfl rfl) (by decide)
  · exact .offset (.minus (hnumeral (n := 5) (by decide) rfl rfl))
      (.unsigned (hnumeral (n := 0) (by decide) rfl rfl)) rfl

/-- A date that is read though it is not in the documented form, and one that is not read. -/
theorem accepted_forms_signed :
    millis? " 2020-01-01T7:05+-5:00".toList = some 1577880300000 ∧
      ¬ DocumentedForm (trim " 2020-01-01T7:05+-5:00".toList) ∧
      (Record.ofTriple .default ⟨.iri ⟨"http://x/s"⟩, ⟨"http://x/p"⟩,
        .literal (.typed "2020-01-01T10:00:00+5" ⟨Xsd.dateTime, by decide⟩)⟩).text =
          some "2020-01-01T10:00:00+5" := by
  have htext : twiceSigned.text = trim " 2020-01-01T7:05+-5:00".toList := by decide +kernel
  obtain ⟨haccepted, hdocumented, -⟩ := accepted_forms " 2020-01-01T7:05+-5:00".toList
  refine ⟨(haccepted _).mpr ⟨_, htext, twiceSigned_denotes⟩, ?_, ?_⟩
  · rw [hdocumented _ _ htext twiceSigned_denotes]
    rintro ⟨-, hnumbers⟩
    exact absurd (hnumbers ['7'] (by decide)).1 (by decide)
  · have hrefused : millis? "2020-01-01T10:00:00+5".toList = none := by decide +kernel
    have hkind : (Literal.typed "2020-01-01T10:00:00+5" ⟨Xsd.dateTime, by decide⟩).kind = .date := by
      decide +kernel
    exact ((accepted_forms "2020-01-01T10:00:00+5".toList).2.2 .default _ _ rfl hkind rfl hrefused).2

/-- **Nothing need follow the `T`**: the date is read as one without a clock. -/
theorem empty_clock_accepted :
    millis? "2020-01-01T".toList = some 1577836800000 ∧
      ¬ DocumentedForm (trim "2020-01-01T".toList) := by
  refine ⟨by decide +kernel, fun hdocumented => ?_⟩
  let date : DateText := ⟨"2020-01-01".toList, some .nothing, .nothing⟩
  have htext : date.text = trim "2020-01-01T".toList := by decide +kernel
  have hseparable : date.Separable := by
    refine ⟨rfl, fun written hwritten => ?_, trivial⟩
    cases hwritten
    trivial
  rw [← htext, hseparable.documentedForm_iff] at hdocumented
  exact hdocumented.clock rfl

end QuadStore.Calendar
