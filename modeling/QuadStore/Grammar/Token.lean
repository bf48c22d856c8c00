import QuadStore.Text

/-!
# Tokens

The tokens from which patterns and statements are put together, and the space between them.  A
scanner takes the characters at the front of a text and gives the token's text and the rest, or
nothing if the text does not begin with such a token.  Each scanner takes as much as it can and
never gives anything back.

## Main definitions

* `skip`: the text after blanks and comments.
* `iri?`, `blankNode?`, `literal?`, `var?`, `number?`, `word?`: the scanners.
* `isVariableName`: the names that a variable may have outside the text of a query.
-/

namespace QuadStore.Grammar

/-- A scanned token and the text after it. -/
abbrev Scanned := Option (List Char × List Char)

/-- A line ends at a line feed or a carriage return. -/
def isLineEnd (c : Char) : Bool := c == '\n' || c == '\r'

/-- The blanks between tokens. -/
def isSpace (c : Char) : Bool := c == ' ' || c == '\t' || isLineEnd c

/-- The text after the blanks and comments at its front.  A comment begins with a number sign and
ends before the end of its line. -/
def skipFrom (inComment : Bool) : List Char → List Char
  | [] => []
  | c :: rest =>
    if inComment then skipFrom (!isLineEnd c) rest
    else if c == '#' then skipFrom true rest
    else if isSpace c then skipFrom false rest
    else c :: rest

/-- The text after the blanks and comments at its front. -/
def skip (text : List Char) : List Char := skipFrom false text

/-- The longest front of characters of a class, and the rest. -/
def span (keep : Char → Bool) (text : List Char) : List Char × List Char :=
  (text.takeWhile keep, text.dropWhile keep)

/-- The characters of names: ASCII letters, digits and the underscore. -/
def isNameChar (c : Char) : Bool := Text.isLetterOrDigit c || c == '_'

/-- The characters of blank node labels: those of names and the hyphen. -/
def isLabelChar (c : Char) : Bool := isNameChar c || c == '-'

/-- The characters between the brackets of an IRI: all but a closing bracket and a line end. -/
def isIriChar (c : Char) : Bool := c != '>' && !isLineEnd c

/-- A question mark or dollar sign and a name. -/
def var? : List Char → Scanned
  | c :: rest =>
    if c == '?' || c == '$' then
      match span isNameChar rest with
      | ([], _) => none
      | (name, rest) => some (c :: name, rest)
    else none
  | [] => none

/-- An IRI in angle brackets. -/
def iri? : List Char → Scanned
  | '<' :: rest =>
    match span isIriChar rest with
    | (inner, '>' :: rest) => some ('<' :: (inner ++ ['>']), rest)
    | _ => none
  | _ => none

/-- A blank node. -/
def blankNode? : List Char → Scanned
  | '_' :: ':' :: rest =>
    match span isLabelChar rest with
    | ([], _) => none
    | (label, rest) => some ('_' :: ':' :: label, rest)
  | _ => none

/-- What follows the opening quote of a string, up to and with the closing one.  A backslash takes
the character after it along, whatever it is; otherwise a line end may not stand in a string. -/
def stringRest? : List Char → Scanned
  | [] => none
  | ['\\'] => none
  | '\\' :: c :: rest => (stringRest? rest).map fun (text, rest) => ('\\' :: c :: text, rest)
  | '"' :: rest => some (['"'], rest)
  | c :: rest =>
    if isLineEnd c then none
    else (stringRest? rest).map fun (text, rest) => (c :: text, rest)

/-- The parts of a language tag after the first, each a hyphen and letters or digits. -/
def subtags : List Char → List Char × List Char
  | '-' :: c :: rest =>
    if Text.isLetterOrDigit c then
      let (more, after) := subtags (rest.dropWhile Text.isLetterOrDigit)
      ('-' :: c :: (rest.takeWhile Text.isLetterOrDigit ++ more), after)
    else ([], '-' :: c :: rest)
  | text => ([], text)
  termination_by text => text.length
  decreasing_by
    have := (List.dropWhile_sublist Text.isLetterOrDigit (l := rest)).length_le
    simp only [List.length_cons]
    omega

/-- A language tag. -/
def language? (text : List Char) : Scanned :=
  match span Text.isLetter text with
  | ([], _) => none
  | (first, rest) =>
    let (more, rest) := subtags rest
    some (first ++ more, rest)

/-- The annotation of a literal, if there is one: otherwise nothing is taken. -/
def annotation (text : List Char) : List Char × List Char :=
  match text with
  | '@' :: rest =>
    match language? rest with
    | some (tag, rest) => ('@' :: tag, rest)
    | none => ([], text)
  | '^' :: '^' :: rest =>
    match iri? rest with
    | some (datatype, rest) => ('^' :: '^' :: datatype, rest)
    | none => ([], text)
  | _ => ([], text)

/-- A literal: a string and its annotation. -/
def literal? : List Char → Scanned
  | '"' :: rest =>
    (stringRest? rest).map fun (text, rest) =>
      let (suffix, rest) := annotation rest
      ('"' :: (text ++ suffix), rest)
  | _ => none

/-- Digits, and with a point between them more digits. -/
def unsigned? (text : List Char) : Scanned :=
  match span Text.isDigit text with
  | ([], _) => none
  | (whole, '.' :: rest) =>
    match span Text.isDigit rest with
    | ([], _) => some (whole, '.' :: rest)
    | (fraction, rest) => some (whole ++ '.' :: fraction, rest)
  | (whole, rest) => some (whole, rest)

/-- A number, which may have a minus sign. -/
def number? : List Char → Scanned
  | '-' :: rest => (unsigned? rest).map fun (text, rest) => ('-' :: text, rest)
  | text => unsigned? text

/-- A word that does not go on as a name. -/
def word? (word : List Char) (text : List Char) : Scanned :=
  if word.isPrefixOf text then
    let rest := text.drop word.length
    match rest with
    | c :: _ => if isNameChar c then none else some (word, rest)
    | [] => some (word, rest)
  else none

/-- A single sign. -/
def sign? (sign : Char) : List Char → Option (List Char)
  | c :: rest => if c = sign then some rest else none
  | [] => none

/-! ## Names of variables

Outside the text of a query a name may have letters of all scripts, digits and underscores, and from the
second character on also combining marks and joining dots.
-/

/-- The letters of all scripts that names may have. -/
def isNameLetter (c : Char) : Bool :=
  let n := c.toNat
  Text.isLetter c || (0xC0 ≤ n && n ≤ 0xD6) || (0xD8 ≤ n && n ≤ 0xF6) ||
    (0xF8 ≤ n && n ≤ 0x2FF) || (0x370 ≤ n && n ≤ 0x37D) || (0x37F ≤ n && n ≤ 0x1FFF) ||
    n == 0x200C || n == 0x200D || (0x2070 ≤ n && n ≤ 0x218F) || (0x2C00 ≤ n && n ≤ 0x2FEF) ||
    (0x3001 ≤ n && n ≤ 0xD7FF) || (0xF900 ≤ n && n ≤ 0xFDCF) || (0xFDF0 ≤ n && n ≤ 0xFFFD) ||
    (0x10000 ≤ n && n ≤ 0xEFFFF)

/-- The characters that a name may begin with. -/
def beginsName (c : Char) : Bool := isNameLetter c || Text.isDigit c || c == '_' || c == ':'

/-- The characters that a name may go on with. -/
def continuesName (c : Char) : Bool :=
  let n := c.toNat
  isNameLetter c || Text.isDigit c || c == '_' || n == 0xB7 || (0x300 ≤ n && n ≤ 0x36F) ||
    n == 0x203F || n == 0x2040

/-- Whether a text is the name of a variable. -/
def isVariableName : List Char → Bool
  | [] => false
  | c :: rest => beginsName c && rest.all continuesName

end QuadStore.Grammar
