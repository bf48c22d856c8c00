import QuadStore.Yaml.Fault
import QuadStore.Text

/-!
# YAML tokens

The tokens that a text is made of, with those that stand for its indentation: a block collection
begins with a token of its own and ends with one, although nothing is written there.  The readers of
what may stand before a node or a document are here as well: anchors, tags and directives.

## Main definitions

* `Style`, `Token`, `Placed`.
* `Token.readAnchor`, `Token.readTag`: what may stand before a node.
* `readHandle`, `readUri`: the parts of a tag.
* `Token.readDirective`: what may stand before a document.
-/

namespace QuadStore.Yaml

/-- The ways to write a scalar. -/
inductive Style where
  | plain
  | singleQuoted
  | doubleQuoted
  | literal
  | folded
  deriving DecidableEq, Repr, Inhabited

/-- A token. -/
inductive Token where
  | version (major minor : Nat)
  /-- A tag handle and the beginning that it stands for, in bytes. -/
  | tagHandle (handle : String) (stem : List UInt8)
  | documentStart
  | documentEnd
  | blockSequenceStart
  | blockMappingStart
  | blockEnd
  | flowSequenceStart
  | flowSequenceEnd
  | flowMappingStart
  | flowMappingEnd
  /-- The dash before an item of a block sequence. -/
  | item
  /-- The comma between the parts of a flow collection. -/
  | separator
  /-- The beginning of a key, with or without a sign. -/
  | key
  /-- The colon before a value. -/
  | value
  /-- The name of a node that stands elsewhere. -/
  | reference (name : String)
  | anchor (name : String)
  /-- A tag: its handle, empty if it is written in full, and the rest of it in bytes. -/
  | tag (handle : String) (suffix : List UInt8)
  | scalar (style : Style) (text : String)
  | textEnd
  deriving DecidableEq, Repr, Inhabited

/-- A token between two places. -/
structure Placed where
  token : Token
  start : Mark
  stop : Mark
  deriving DecidableEq, Repr, Inhabited

/-! ## Anchors and tags

By an anchor other places refer to a node; a tag gives its type.  A tag is written in full, or as a
handle and a suffix; it is held in bytes, since an escape in it stands for a byte.
-/

/-- The handle at the front of a source: two exclamation marks with a name or nothing between
them, or the first mark and a name. -/
def readHandle (source : Source) : List Char × Source :=
  let (name, after) := source.advance.span isWordChar
  if after.isAt '!' then ('!' :: name ++ ['!'], after.advance) else ('!' :: name, after)

/-- Whether a handle has both its marks. -/
def isClosedHandle (handle : List Char) : Bool := 1 < handle.length && handle.getLast? == some '!'

/-- A character of a tag; one that is written in full may hold some signs of flow collections. -/
def isUriChar (full : Bool) (c : Char) : Bool :=
  isWordChar c || ";/?:@&=+$.%!~*'()".toList.contains c || (full && ",[]".toList.contains c)

/-- The byte that an escape at the front of a source stands for. -/
def octet? (source : Source) : Option (Nat × Source) :=
  match source.rest with
  | '%' :: high :: low :: _ =>
    (Text.hexNumber? 0 [high, low]).map fun value => (value, source.advanceBy 3)
  | _ => none

/-- The number of bytes after the first byte of a character. -/
def octetsAfter? (first : Nat) : Option Nat :=
  if first < 0x80 then some 0
  else if first / 0x20 = 0x06 then some 1
  else if first / 0x10 = 0x0E then some 2
  else if first / 0x08 = 0x1E then some 3
  else none

/-- So many escaped bytes, none of which begins a character. -/
def readOctets (activity : Activity) (start : Mark) :
    Nat → Source → Reading (List UInt8 × Source)
  | 0, source => .ok ([], source)
  | count + 1, source => do
    let some (value, after) := octet? source | source.fail .octetMissing activity start
    if value / 0x40 ≠ 0x02 then source.fail .octetNextWrong activity start
    let (more, after) ← readOctets activity start count after
    return (UInt8.ofNat value :: more, after)

/-- The bytes of a tag at the front of a source.  Every step uses up a character of a tag. -/
def uriFrom (full : Bool) (activity : Activity) (start : Mark) :
    Nat → Source → Reading (List UInt8 × Source)
  | 0, source => .ok ([], source)
  | limit + 1, source => do
    match source.rest with
    | [] => return ([], source)
    | c :: _ =>
      if !isUriChar full c then return ([], source)
      else if c = '%' then
        let some (value, after) := octet? source | source.fail .octetMissing activity start
        let some count := octetsAfter? value | source.fail .octetFirstWrong activity start
        let (next, after) ← readOctets activity start count after
        let (more, after) ← uriFrom full activity start limit after
        return (UInt8.ofNat value :: next ++ more, after)
      else
        let (more, after) ← uriFrom full activity start limit source.advance
        return (UInt8.ofNat c.toNat :: more, after)

/-- The bytes of a tag at the front of a source. -/
def readUri (full : Bool) (activity : Activity) (start : Mark) (source : Source) :
    Reading (List UInt8 × Source) :=
  uriFrom full activity start (source.span (isUriChar full)).1.length source

/-- The bytes of a tag, of which there is at least one. -/
def readSuffix (full : Bool) (start : Mark) (source : Source) :
    Reading (List UInt8 × Source) := do
  let (suffix, after) ← readUri full .tagContent start source
  if suffix.isEmpty then after.fail .tagMissing .tagContent start
  return (suffix, after)

namespace Token

/-- The anchor at the front of a source, or the reference to one. -/
def readAnchor (isReference : Bool) (source : Source) : Reading (Token × Source) :=
  let (name, after) := source.advance.span isWordChar
  let ends := endsWord after.rest || after.rest.head?.any ("?:,]\x7d%@`".toList.contains ·)
  if name.isEmpty || !ends then
    after.fail .anchorNameMissing (if isReference then .reference else .anchor) source.mark
  else
    let name := String.ofList name
    .ok (if isReference then reference name else anchor name, after)

/-- The parts of the tag at the front of a source.  A mark alone is a tag of its own. -/
def tagParts (source : Source) : Reading (String × List UInt8 × Source) := do
  let start := source.mark
  if source.advance.isAt '<' then
    let (suffix, after) ← readSuffix true start (source.advanceBy 2)
    unless after.isAt '>' do after.fail .tagEndMissing .tag start
    return ("", suffix, after.advance)
  else
    let (handle, after) := readHandle source
    if isClosedHandle handle then
      let (suffix, after) ← readSuffix false start after
      return (String.ofList handle, suffix, after)
    else
      let (more, after) ← readUri false .tagContent start after
      let suffix := (handle.drop 1).map (fun c => UInt8.ofNat c.toNat) ++ more
      return if suffix.isEmpty then ("", [0x21], after) else ("!", suffix, after)

/-- The tag at the front of a source. -/
def readTag (inFlow : Bool) (source : Source) : Reading (Token × Source) := do
  let (handle, suffix, after) ← tagParts source
  unless endsWord after.rest || (inFlow && after.isAt ',') do
    after.fail .wordEndMissing .tag source.mark
  return (tag handle suffix, after)

end Token

/-! ## Directives

One directive gives the version of the language, the other a handle for tags.
-/

/-- A part of a version number; it has at most nine digits. -/
def readVersionPart (start : Mark) (source : Source) : Reading (Nat × Source) :=
  let (digits, after) := source.span Text.isDigit
  if 9 < digits.length then
    (source.advanceBy 9).fail .versionLong .versionDirective start
  else if digits.isEmpty then after.fail .versionMissing .versionDirective start
  else .ok (Text.decimalValue digits, after)

/-- What follows the name of a directive for the version. -/
def readVersion (start : Mark) (source : Source) : Reading (Token × Source) := do
  let (major, after) ← readVersionPart start (source.skip isBlank)
  unless after.isAt '.' do after.fail .versionPointMissing .versionDirective start
  let (minor, after) ← readVersionPart start after.advance
  return (.version major minor, after)

/-- What follows the name of a directive for a handle. -/
def readTagHandle (start : Mark) (source : Source) : Reading (Token × Source) := do
  let source := source.skip isBlank
  unless source.isAt '!' do source.fail .tagMarkMissing .tagDirectiveMark start
  let (handle, after) := readHandle source
  unless handle.length = 1 || isClosedHandle handle do
    after.fail .tagMarkMissing .tagDirectiveHandle start
  unless after.rest.head?.any isBlank do after.fail .blankMissing .tagDirective start
  let source := after.skip isBlank
  let (stem, after) ← readUri true .tagDirectiveContent start source
  if stem.isEmpty then after.fail .tagMissing .tagDirectiveContent start
  unless endsWord after.rest do after.fail .wordEndMissing .tagDirective start
  return (.tagHandle (String.ofList handle) stem, after)

/-- The directive at the front of a source, the place where it ends, and the source after its
line. -/
def Token.readDirective (source : Source) : Reading (Token × Mark × Source) := do
  let start := source.mark
  let (name, after) := source.advance.span isWordChar
  if name.isEmpty then after.fail .directiveNameMissing .directive start
  unless endsWord after.rest do after.fail .directiveNameOdd .directive start
  let (token, after) ←
    if name = "YAML".toList then readVersion start after
    else if name = "TAG".toList then readTagHandle start after
    else after.fail .directiveUnknown .directive start
  let line := after.skipComment
  unless endsLine line.rest do line.fail .lineEndMissing .directive start
  return (token, after.mark, line.advance)

end QuadStore.Yaml
