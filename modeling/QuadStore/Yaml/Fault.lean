import QuadStore.Yaml.Source

/-!
# What can be wrong with a YAML text

A fault has a cause and a place, and says what was being read at the time and where that began.

## Main definitions

* `Problem`, `Activity`, `Fault`.
* `Fault.message`: the wording.
-/

namespace QuadStore.Yaml

/-- What is wrong. -/
inductive Problem where
  /-- A character that no text may hold. -/
  | controlCharacter
  /-- A character that begins no token. -/
  | unknownStart
  /-- What has to be a key has no colon after it. -/
  | keyWithoutColon
  | itemNotAllowed
  | keyNotAllowed
  | valueNotAllowed
  | directiveNameMissing
  | directiveNameOdd
  | directiveUnknown
  | lineEndMissing
  | versionPointMissing
  | versionLong
  | versionMissing
  | blankMissing
  | wordEndMissing
  | anchorNameMissing
  | tagEndMissing
  | tagMarkMissing
  | tagMissing
  | octetMissing
  | octetFirstWrong
  | octetNextWrong
  | indentZero
  | indentTab
  | documentSignInside
  | textEndInside
  | escapeUnknown
  | escapeDigitMissing
  | escapeCharacterWrong
  | colonInside
  | tabInside
  | documentStartMissing
  | versionTwice
  | versionOther
  | handleTwice
  | handleUnknown
  | contentMissing
  | itemMissing
  | keyMissing
  | sequenceEndMissing
  | mappingEndMissing
  | anchorUnknown
  /-- There is more than one document. -/
  | furtherDocument
  deriving DecidableEq, Repr

/-- What is being read. -/
inductive Activity where
  | directive
  | versionDirective
  | tagDirective
  | tagDirectiveMark
  | tagDirectiveHandle
  | tagDirectiveContent
  | anchor
  | reference
  | tag
  | tagContent
  | blockScalar
  | quotedScalar
  | quotedEscape
  | plainScalar
  | key
  | token
  | node
  | blockNode
  | flowNode
  | blockSequence
  | blockMapping
  | flowSequence
  | flowMapping
  deriving DecidableEq, Repr

/-- A problem, its place, and the activity in which it was met, with the place where that began. -/
structure Fault where
  problem : Problem
  mark : Mark
  within : Option (Activity × Mark) := none
  deriving DecidableEq, Repr

/-- A result, or what is wrong. -/
abbrev Reading := Except Fault

/-- The wording of a problem. -/
def Problem.message : Problem → String
  | controlCharacter => "control characters are not allowed"
  | unknownStart => "found character that cannot start any token"
  | keyWithoutColon => "could not find expected ':'"
  | itemNotAllowed => "block sequence entries are not allowed in this context"
  | keyNotAllowed => "mapping keys are not allowed in this context"
  | valueNotAllowed => "mapping values are not allowed in this context"
  | directiveNameMissing => "could not find expected directive name"
  | directiveNameOdd => "found unexpected non-alphabetical character"
  | directiveUnknown => "found unknown directive name"
  | lineEndMissing => "did not find expected comment or line break"
  | versionPointMissing => "did not find expected digit or '.' character"
  | versionLong => "found extremely long version number"
  | versionMissing => "did not find expected version number"
  | blankMissing => "did not find expected whitespace"
  | wordEndMissing => "did not find expected whitespace or line break"
  | anchorNameMissing => "did not find expected alphabetic or numeric character"
  | tagEndMissing => "did not find the expected '>'"
  | tagMarkMissing => "did not find expected '!'"
  | tagMissing => "did not find expected tag URI"
  | octetMissing => "did not find URI escaped octet"
  | octetFirstWrong => "found an incorrect leading UTF-8 octet"
  | octetNextWrong => "found an incorrect trailing UTF-8 octet"
  | indentZero => "found an indentation indicator equal to 0"
  | indentTab => "found a tab character where an indentation space is expected"
  | documentSignInside => "found unexpected document indicator"
  | textEndInside => "found unexpected end of stream"
  | escapeUnknown => "found unknown escape character"
  | escapeDigitMissing => "did not find expected hexdecimal number"
  | escapeCharacterWrong => "found invalid Unicode character escape code"
  | colonInside => "found unexpected ':'"
  | tabInside => "found a tab character that violates indentation"
  | documentStartMissing => "did not find expected <document start>"
  | versionTwice => "found duplicate %YAML directive"
  | versionOther => "found incompatible YAML document"
  | handleTwice => "found duplicate %TAG directive"
  | handleUnknown => "found undefined tag handle"
  | contentMissing => "did not find expected node content"
  | itemMissing => "did not find expected '-' indicator"
  | keyMissing => "did not find expected key"
  | sequenceEndMissing => "did not find expected ',' or ']'"
  | mappingEndMissing => "did not find expected ',' or '\x7d'"
  | anchorUnknown => "unknown anchor"
  | furtherDocument =>
    "deserializing from YAML containing more than one document is not supported"

/-- The wording of an activity. -/
def Activity.message : Activity → String
  | directive => "while scanning a directive"
  | versionDirective => "while scanning a %YAML directive"
  | tagDirective => "while scanning a %TAG directive"
  | tagDirectiveMark => "while scanning a tag directive"
  | tagDirectiveHandle => "while parsing a tag directive"
  | tagDirectiveContent => "while parsing a %TAG directive"
  | anchor => "while scanning an anchor"
  | reference => "while scanning an alias"
  | tag => "while scanning a tag"
  | tagContent => "while parsing a tag"
  | blockScalar => "while scanning a block scalar"
  | quotedScalar => "while scanning a quoted scalar"
  | quotedEscape => "while parsing a quoted scalar"
  | plainScalar => "while scanning a plain scalar"
  | key => "while scanning a simple key"
  | token => "while scanning for the next token"
  | node => "while parsing a node"
  | blockNode => "while parsing a block node"
  | flowNode => "while parsing a flow node"
  | blockSequence => "while parsing a block collection"
  | blockMapping => "while parsing a block mapping"
  | flowSequence => "while parsing a flow sequence"
  | flowMapping => "while parsing a flow mapping"

/-- Whether a place is the beginning of the first line, which goes without saying. -/
def Mark.isFirst (mark : Mark) : Bool := mark.line == 0 && mark.column == 0

/-- The wording of a fault. -/
def Fault.message (fault : Fault) : String :=
  fault.problem.message ++ fault.mark.describe ++
    match fault.within with
    | none => ""
    | some (activity, start) =>
      let place := if start.isFirst || (start.line == fault.mark.line &&
          start.column == fault.mark.column) then "" else start.describe
      ", " ++ activity.message ++ place

/-- Fails with a problem at the place of a source, met in an activity that began at `start`. -/
def Source.fail {α : Type} (source : Source) (problem : Problem) (activity : Activity)
    (start : Mark) : Reading α :=
  .error ⟨problem, source.mark, some (activity, start)⟩

end QuadStore.Yaml
