import QuadStore.Text

/-!
# The source of a YAML text

A source is what is left of a text and the place where that begins.  Three signs and two characters
beyond ASCII end a line, so the place is counted here once for all readers.

## Main definitions

* `Mark`, `Source`, `Source.advance`.
* `isBlank`, `isBreak`, `isAllowed`, `isWordChar`, `isFlowSign`: classes of characters.
* `Source.span`, `Source.gap`: the characters of a class, and the blanks and line ends between the
  words of a scalar.
-/

namespace QuadStore.Yaml

/-- A place in a text: the bytes before it, its line, and the characters before it in the line. -/
structure Mark where
  index : Nat
  line : Nat
  column : Nat
  deriving DecidableEq, Repr, Inhabited

/-! ## Characters -/

/-- A blank within a line. -/
def isBlank (c : Char) : Bool := c == ' ' || c == '\t'

/-- A character that ends a line. -/
def isBreak (c : Char) : Bool :=
  c == '\n' || c == '\r' || c == '\u0085' || c == '\u2028' || c == '\u2029'

/-- A character that a text may hold: no control character but the tab and the line ends, and
neither of the last two of the first plane. -/
def isAllowed (c : Char) : Bool :=
  c == '\t' || c == '\n' || c == '\r' || c == '\u0085' || (' ' ≤ c && c ≤ '~') ||
    ('\u00a0' ≤ c && c ≠ '\ufffe' && c ≠ '\uffff')

/-- A character of a name. -/
def isWordChar (c : Char) : Bool := Text.isLetterOrDigit c || c == '_' || c == '-'

/-- A sign of a flow collection. -/
def isFlowSign (c : Char) : Bool :=
  c == ',' || c == '[' || c == ']' || c == '\x7b' || c == '\x7d'

/-- Whether a text is at its end or at a character that stands between words. -/
def endsWord : List Char → Bool
  | [] => true
  | c :: _ => isBlank c || isBreak c

/-- Whether a text is at an end of a line or of the text. -/
def endsLine : List Char → Bool
  | [] => true
  | c :: _ => isBreak c

/-! ## Places -/

namespace Mark

/-- The place after a character within a line, which has so many bytes. -/
def right (mark : Mark) (width : Nat) : Mark := ⟨mark.index + width, mark.line, mark.column + 1⟩

/-- The place after a line end of so many bytes. -/
def nextLine (mark : Mark) (width : Nat) : Mark := ⟨mark.index + width, mark.line + 1, 0⟩

/-- A place in words: the line and the column, counted from one, or the number of bytes before it
if that says more. -/
def describe (mark : Mark) : String :=
  if mark.line = 0 ∧ mark.column = 0 then
    if mark.index = 0 then "" else " at position " ++ toString mark.index
  else " at line " ++ toString (mark.line + 1) ++ " column " ++ toString (mark.column + 1)

end Mark

/-- What is left of a text, and where it begins. -/
structure Source where
  rest : List Char
  mark : Mark
  deriving Repr

namespace Source

/-- The source after its first character, or after its first line end. -/
def advance (source : Source) : Source :=
  match source.rest with
  | [] => source
  | '\r' :: '\n' :: rest => ⟨rest, source.mark.nextLine 2⟩
  | c :: rest =>
    let width := c.utf8Size
    ⟨rest, if isBreak c then source.mark.nextLine width else source.mark.right width⟩

/-- The source after so many steps. -/
def advanceBy (source : Source) : Nat → Source
  | 0 => source
  | count + 1 => source.advance.advanceBy count

/-- The characters of a class within the line, and the source after them. -/
def span (source : Source) (belongs : Char → Bool) : List Char × Source :=
  let run := source.rest.takeWhile belongs
  (run, source.advanceBy run.length)

/-- The source after the characters of a class. -/
def skip (source : Source) (belongs : Char → Bool) : Source := (source.span belongs).2

/-- Whether the source is at a character. -/
def isAt (source : Source) (c : Char) : Bool := source.rest.head? == some c

/-- The character that a line end stands for, which is a line feed except for the two separators,
and the source after it. -/
def lineEnd? (source : Source) : Option (Char × Source) :=
  match source.rest with
  | [] => none
  | c :: _ =>
    if isBreak c then
      some (if c == '\u2028' || c == '\u2029' then c else '\n', source.advance)
    else none

/-- Whether the source stands at the sign between documents of three such characters. -/
def atSign (source : Source) (c : Char) : Bool :=
  source.mark.column == 0 &&
    source.rest.take 3 == [c, c, c] && endsWord (source.rest.drop 3)

/-- Whether the source stands at one of the two signs between documents. -/
def atDocumentSign (source : Source) : Bool := source.atSign '-' || source.atSign '.'

/-- The source after blanks and a comment, which goes to the end of the line. -/
def skipComment (source : Source) : Source :=
  let source := source.skip isBlank
  if source.isAt '#' then source.skip (!isBreak ·) else source

/-- The line ends from here on, with the blanks after each of them passed over, and the source
after them; nothing if there is a tab in the first `indent` columns of a line. -/
def lineEnds (indent : Nat) : Nat → Source → Option (List Char × Source)
  | 0, source => some ([], source)
  | limit + 1, source =>
    match source.lineEnd? with
    | none => some ([], source)
    | some (c, next) =>
      let (blanks, next) := next.span isBlank
      if (blanks.take indent).contains '\t' then none
      else (lineEnds indent limit next).map fun (more, after) => (c :: more, after)

/-- The blanks up to the first line end, the line ends, and the source after them and the blanks
among them. -/
def gap (indent : Nat) (source : Source) : Option (List Char × List Char × Source) :=
  let (blanks, next) := source.span isBlank
  let limit := (next.rest.takeWhile fun c => isBlank c || isBreak c).length
  (lineEnds indent limit next).map fun (ends, after) => (blanks, ends, after)

end Source

/-- What the line ends between two words stand for: a single line feed for a blank, and of several
the first is left out. -/
def fold : List Char → List Char
  | ['\n'] => [' ']
  | '\n' :: more => more
  | ends => ends

/-- What the gap between two words stands for. -/
def joint (blanks ends : List Char) : List Char := if ends.isEmpty then blanks else fold ends

end QuadStore.Yaml
