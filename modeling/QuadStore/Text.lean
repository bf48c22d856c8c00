/-!
# Text

Classes of characters, the integers that are written in text, the cutting of a text into pieces, and
the escapes that may stand between the delimiters of a written IRI or literal.

## Main definitions

* `isBlank`, `trim`: the Unicode property `White_Space`, and a text without the blanks at its ends.
* `decimal?`, `natural?`, `integer?`: a row of digits, without and after an optional sign.
* `splitOnce`, `splitAll`: the text around the first separator, and the pieces between all.
* `hexValue?`, `hexNumber?`, `hexBytes?`: the readers of hexadecimal digits.
* `hexQuad`, `lowerHex`: a number in four upper-case digits, or in lower-case ones.
* `escape`: the written form of a text.
* `unescape`: the text of a written form, or the first thing that is wrong with it.
-/

namespace QuadStore.Text

/-! ## Blank characters

The class is wider than ASCII's: a no-break space or an ideographic space around a number or a date is
not part of it.
-/

/-- Membership in the Unicode property `White_Space`. -/
def isBlank (c : Char) : Bool :=
  let n := c.toNat
  (0x9 ≤ n && n ≤ 0xD) || n == 0x20 || n == 0x85 || n == 0xA0 || n == 0x1680 ||
    (0x2000 ≤ n && n ≤ 0x200A) || n == 0x2028 || n == 0x2029 || n == 0x202F || n == 0x205F ||
    n == 0x3000

/-- The text without its trailing blanks. -/
def trimEnd (text : List Char) : List Char :=
  (text.reverse.dropWhile isBlank).reverse

/-- The text without its leading and trailing blanks. -/
def trim (text : List Char) : List Char :=
  trimEnd (text.dropWhile isBlank)

/-! ## Digits and the integers they write

A reader takes a whole text: it never stops early and never skips anything, so a blank or an
underscore makes it fail.
-/

/-- Whether a character is one of the digits `0` to `9`. -/
def isDigit (c : Char) : Bool := '0' ≤ c && c ≤ '9'

/-- Whether a character is an ASCII letter. -/
def isLetter (c : Char) : Bool := ('a' ≤ c && c ≤ 'z') || ('A' ≤ c && c ≤ 'Z')

/-- Whether a character is an ASCII letter or a digit. -/
def isLetterOrDigit (c : Char) : Bool := isLetter c || isDigit c

/-- The value of a decimal digit. -/
def digitValue (c : Char) : Nat := c.toNat - '0'.toNat

/-- The number that a row of decimal digits writes. -/
def decimalValue (digits : List Char) : Nat :=
  digits.foldl (fun value c => value * 10 + digitValue c) 0

/-- The number written by a non-empty row of decimal digits, and nothing for any other text. -/
def decimal? (text : List Char) : Option Nat :=
  if text.isEmpty || !text.all isDigit then none else some (decimalValue text)

/-- An unsigned number: digits after an optional plus sign. -/
def natural? : List Char → Option Nat
  | '+' :: digits => decimal? digits
  | digits => decimal? digits

/-- A signed number: digits after an optional sign. -/
def integer? : List Char → Option Int
  | '+' :: digits => (decimal? digits).map Int.ofNat
  | '-' :: digits => (decimal? digits).map fun n => -Int.ofNat n
  | digits => (decimal? digits).map Int.ofNat

/-! ## Splitting at a separator -/

/-- The text before and after the first separator, or nothing if there is none. -/
def splitOnce (separator : Char) : List Char → Option (List Char × List Char)
  | [] => none
  | c :: rest =>
    if c = separator then some ([], rest)
    else (splitOnce separator rest).map fun (before, after) => (c :: before, after)

/-- The pieces between the separators: always one more than there are separators. -/
def splitAll (separator : Char) : List Char → List (List Char)
  | [] => [[]]
  | c :: rest =>
    if c = separator then [] :: splitAll separator rest
    else match splitAll separator rest with
      | [] => [[c]]
      | piece :: pieces => (c :: piece) :: pieces

/-! ## Hexadecimal digits

Readers take digits of either case; writers say which case they use.
-/

/-- The value of a hexadecimal digit of either case. -/
def hexValue? (c : Char) : Option Nat :=
  if '0' ≤ c ∧ c ≤ '9' then some (c.toNat - '0'.toNat)
  else if 'a' ≤ c ∧ c ≤ 'f' then some (c.toNat - 'a'.toNat + 10)
  else if 'A' ≤ c ∧ c ≤ 'F' then some (c.toNat - 'A'.toNat + 10)
  else none

/-- The number that a row of hexadecimal digits writes, continuing from `value`. -/
def hexNumber? (value : Nat) : List Char → Option Nat
  | [] => some value
  | c :: rest => (hexValue? c).bind fun digit => hexNumber? (value * 16 + digit) rest

/-- The bytes that pairs of hexadecimal digits write. -/
def hexBytes? : List Char → Option (List UInt8)
  | [] => some []
  | a :: b :: rest => do
    let byte ← hexNumber? 0 [a, b]
    return UInt8.ofNat byte :: (← hexBytes? rest)
  | _ => none

/-- The upper-case hexadecimal digit of a number below sixteen. -/
def hexDigit (n : Nat) : Char :=
  if n < 10 then Char.ofNat ('0'.toNat + n) else Char.ofNat ('A'.toNat + (n - 10))

/-- A number below `16 ^ 4` as four hexadecimal digits. -/
def hexQuad (n : Nat) : List Char :=
  [hexDigit (n / 4096 % 16), hexDigit (n / 256 % 16), hexDigit (n / 16 % 16), hexDigit (n % 16)]

/-- The lowest `width` digits of a number, in lower case. -/
def lowerHex (width n : Nat) : List Char :=
  (List.range width).map fun i => Nat.digitChar (n / Nat.pow 16 (width - 1 - i) % 16)

/-! ## Escapes

Writing escapes the backslash, the double quote and every control character; reading accepts the short
forms and the two forms that name a code point.  The two directions are not symmetric on purpose: a
written text always uses the shortest form that the writer knows, while reading also accepts forms that
are never written.
-/

/-- Control characters, the general category `Cc`: two ranges of 32, and `DEL`. -/
def isControl (c : Char) : Bool :=
  let n := c.toNat
  n < 0x20 || (0x7F ≤ n && n < 0xA0)

/-- The written form of one character. -/
def escapeChar (c : Char) : List Char :=
  if c = '\\' then ['\\', '\\']
  else if c = '"' then ['\\', '"']
  else if c = '\n' then ['\\', 'n']
  else if c = '\r' then ['\\', 'r']
  else if c = '\t' then ['\\', 't']
  else if isControl c then '\\' :: 'u' :: hexQuad c.toNat
  else [c]

/-- The written form of a text: each character's, one after the other. -/
def escape (text : List Char) : List Char := text.flatMap escapeChar

/-- What can be wrong with an escape. -/
inductive EscapeError where
  /-- The text ends after a backslash. -/
  | dangling
  /-- No escape is written with this character. -/
  | unknown (letter : Char)
  /-- These characters do not name a Unicode scalar value in the required number of digits. -/
  | badCodePoint (sequence : List Char)
  deriving DecidableEq, Repr

/-- The Unicode scalar value with this number; a surrogate and a number past the last plane have
none. -/
def scalar? (n : Nat) : Option Char :=
  if h : n.isValidChar then some (Char.ofNatAux n h) else none

/-- The character named by exactly `width` hexadecimal digits. -/
def codePoint? (width : Nat) (digits : List Char) : Option Char :=
  if digits.length = width then (hexNumber? 0 digits).bind scalar? else none

/-- The character that a one-letter escape stands for. -/
def shortEscape? : Char → Option Char
  | 't' => some '\t'
  | 'b' => some '\x08'
  | 'n' => some '\n'
  | 'r' => some '\r'
  | 'f' => some '\x0C'
  | '"' => some '"'
  | '\'' => some '\''
  | '\\' => some '\\'
  | _ => none

/-- The number of digits that follow a letter naming a code point. -/
def codePointWidth? : Char → Option Nat
  | 'u' => some 4
  | 'U' => some 8
  | _ => none

/-- The text that a written form stands for.  The leftmost fault is the one that is reported. -/
def unescape : List Char → Except EscapeError (List Char)
  | [] => .ok []
  | c :: rest =>
    if c ≠ '\\' then (unescape rest).map (c :: ·)
    else match rest with
      | [] => .error .dangling
      | letter :: rest =>
        match shortEscape? letter, codePointWidth? letter with
        | some plain, _ => (unescape rest).map (plain :: ·)
        | none, some width =>
          match codePoint? width (rest.take width) with
          | some plain => (unescape (rest.drop width)).map (plain :: ·)
          | none => .error (.badCodePoint (rest.take width))
        | none, none => .error (.unknown letter)
  termination_by text => text.length
  decreasing_by all_goals (simp only [List.length_cons, List.length_drop]; omega)

end QuadStore.Text
