import QuadStore.Yaml.Token
import QuadStore.Yaml.Token.Scalar

/-!
# Layout

The tokens of a text.  Two things are known only later than where they belong: that a node was a
key, which the colon after it tells, and that a block mapping begins at that key.  So tokens are
never moved; the places where keys turn out to begin are noted, and their tokens are put in at the
end.

A key without a sign is written within one line and has at most 1024 bytes.  One that stands
at the indentation of its mapping cannot be anything else, so it is a fault if no colon follows.

Indentation counts outside flow collections only: a column deeper than the last opens a block
collection, and a lesser one closes all that are deeper.

## Main definitions

* `Layout`: the state of reading.
* `Layout.next`: the next token.
* `Tokens`, `Tokens.ofText`: the tokens of a text up to a fault, if there is one.
-/

namespace QuadStore.Yaml

/-- A place where a key may have begun: the number of tokens before it, and whether it has to be
one. -/
structure KeyStart where
  number : Nat
  required : Bool
  mark : Mark
  deriving Repr

/-- The number of bytes that a key without a sign may have. -/
def keyLimit : Nat := 1024

/-- Whether the text since a place is too long for a key without a sign. -/
def KeyStart.isStale (start : KeyStart) (mark : Mark) : Bool :=
  decide (start.mark.line < mark.line ∨ start.mark.index + keyLimit < mark.index)

/-- A place where a key did begin, and whether a block mapping begins with it. -/
structure FoundKey where
  number : Nat
  opens : Bool
  mark : Mark
  deriving Repr

/-- The state of reading tokens. -/
structure Layout where
  /-- More than the number of characters of the text. -/
  limit : Nat
  source : Source
  /-- The tokens so far, the last one first, and how many there are. -/
  tokens : List Placed := []
  count : Nat := 0
  /-- The keys found, the last one first. -/
  keys : List FoundKey := []
  /-- The indentation of the innermost block collection, and of those around it. -/
  indent : Int := -1
  indents : List Int := []
  /-- Where a key may have begun in the innermost flow collection, and in what is around it. -/
  candidate : Option KeyStart := none
  outer : List (Option KeyStart) := []
  /-- Whether a key without a sign may begin here. -/
  keyAllowed : Bool := true
  finished : Bool := false
  deriving Repr

namespace Layout

/-- Whether the source stands in a flow collection. -/
def inFlow (layout : Layout) : Bool := !layout.outer.isEmpty

/-- Adds a token between two places. -/
def push (layout : Layout) (token : Token) (start stop : Mark) : Layout :=
  { layout with tokens := ⟨token, start, stop⟩ :: layout.tokens, count := layout.count + 1 }

/-- Adds a token that ends where `after` begins, and goes on from there. -/
def take (layout : Layout) (token : Token) (after : Source) : Layout :=
  { layout.push token layout.source.mark after.mark with source := after }

/-- Fails at the source, outside any activity. -/
def refuse (layout : Layout) (problem : Problem) : Reading Layout :=
  .error ⟨problem, layout.source.mark, none⟩

/-! ## Indentation -/

/-- Closes the block collections deeper than a column, of which at most those in `indents` have
others around them. -/
def closeTo (column : Int) : List Int → Layout → Layout
  | [], layout => layout
  | around :: indents, layout =>
    if column < layout.indent then
      closeTo column indents { layout.push .blockEnd layout.source.mark layout.source.mark with
        indent := around, indents := indents }
    else layout

/-- Closes the block collections deeper than a column. -/
def close (layout : Layout) (column : Int) : Layout :=
  if layout.inFlow then layout else closeTo column layout.indents layout

/-- Whether a block collection opens at a column. -/
def opensAt (layout : Layout) (column : Nat) : Bool :=
  !layout.inFlow && decide (layout.indent < column)

/-- Indents what follows to a column, if it is deeper. -/
def indentTo (layout : Layout) (column : Nat) : Layout :=
  if layout.opensAt column then
    { layout with indent := column, indents := layout.indent :: layout.indents }
  else layout

/-- Opens a block collection where the source stands, if that is deeper. -/
def openHere (layout : Layout) (token : Token) : Layout :=
  let mark := layout.source.mark
  if layout.opensAt mark.column then (layout.push token mark mark).indentTo mark.column else layout

/-! ## Keys -/

/-- Gives up the place where a key may have begun in the innermost collection. -/
def forgetKey (layout : Layout) : Reading Layout :=
  match layout.candidate with
  | some start =>
    if start.required then layout.source.fail .keyWithoutColon .key start.mark
    else .ok { layout with candidate := none }
  | none => .ok layout

/-- Notes that a key may begin where the source stands, if it may. -/
def noteKey (layout : Layout) : Reading Layout := do
  if layout.keyAllowed then
    let mark := layout.source.mark
    let required := !layout.inFlow && layout.indent == mark.column
    let layout ← layout.forgetKey
    return { layout with candidate := some ⟨layout.count, required, mark⟩ }
  else return layout

/-- Forgets the keys that would be too long. -/
def forgetStale (layout : Layout) : Reading Layout :=
  let mark := layout.source.mark
  let stale := (layout.candidate :: layout.outer).filterMap (·.filter (·.isStale mark))
  match stale.find? (·.required) with
  | some start => layout.source.fail .keyWithoutColon .key start.mark
  | none =>
    .ok { layout with
      candidate := layout.candidate.filter (!·.isStale mark)
      outer := layout.outer.map (·.filter (!·.isStale mark)) }

/-! ## Tokens -/

/-- Passes over blanks, comments and line ends.  A tab may stand where no key may begin, and
anywhere in a flow collection. -/
def passBlanks : Nat → Layout → Layout
  | 0, layout => layout
  | limit + 1, layout =>
    let source := layout.source.skip fun c =>
      c == ' ' || (c == '\t' && (layout.inFlow || !layout.keyAllowed))
    let source := if source.isAt '#' then source.skip (!isBreak ·) else source
    match source.lineEnd? with
    | some (_, next) =>
      passBlanks limit { layout with
        source := next, keyAllowed := layout.keyAllowed || !layout.inFlow }
    | none => { layout with source := source }

/-- The end of the text, at the beginning of a line. -/
def finish (layout : Layout) : Reading Layout := do
  let mark := layout.source.mark
  let mark := if mark.column = 0 then mark else ⟨mark.index, mark.line + 1, 0⟩
  let layout := { layout with source := ⟨[], mark⟩ }
  let layout ← (layout.close (-1)).forgetKey
  return { layout.take .textEnd layout.source with keyAllowed := false, finished := true }

/-- A token at the beginning of a line that ends all block collections. -/
def takeOutside (layout : Layout) (token : Token) (stop : Mark) (after : Source) :
    Reading Layout := do
  let layout ← (layout.close (-1)).forgetKey
  return { layout.push token layout.source.mark stop with source := after, keyAllowed := false }

/-- A directive. -/
def directive (layout : Layout) : Reading Layout := do
  let layout ← (layout.close (-1)).forgetKey
  let (token, stop, after) ← Token.readDirective layout.source
  layout.takeOutside token stop after

/-- A sign between documents. -/
def documentSign (layout : Layout) (token : Token) : Reading Layout :=
  let after := layout.source.advanceBy 3
  layout.takeOutside token after.mark after

/-- The beginning of a flow collection, which may be a key. -/
def flowStart (layout : Layout) (token : Token) : Reading Layout := do
  let layout ← layout.noteKey
  return { layout.take token layout.source.advance with
    candidate := none, outer := layout.candidate :: layout.outer, keyAllowed := true }

/-- The end of a flow collection. -/
def flowEnd (layout : Layout) (token : Token) : Reading Layout := do
  let layout ← layout.forgetKey
  let layout := match layout.outer with
    | [] => layout
    | candidate :: outer => { layout with candidate := candidate, outer := outer }
  return { layout.take token layout.source.advance with keyAllowed := false }

/-- A comma in a flow collection. -/
def separator (layout : Layout) : Reading Layout := do
  let layout ← layout.forgetKey
  return { layout.take .separator layout.source.advance with keyAllowed := true }

/-- A dash before an item; in a flow collection it is left to the reader of tokens to refuse it. -/
def item (layout : Layout) : Reading Layout := do
  if !layout.inFlow && !layout.keyAllowed then layout.refuse .itemNotAllowed
  else
    let layout ← (layout.openHere .blockSequenceStart).forgetKey
    return { layout.take .item layout.source.advance with keyAllowed := true }

/-- A sign before a key. -/
def key (layout : Layout) : Reading Layout := do
  if !layout.inFlow && !layout.keyAllowed then layout.refuse .keyNotAllowed
  else
    let layout ← (layout.openHere .blockMappingStart).forgetKey
    return { layout.take .key layout.source.advance with keyAllowed := !layout.inFlow }

/-- A colon: after a key without a sign it makes that a key, and otherwise it stands alone. -/
def value (layout : Layout) : Reading Layout :=
  match layout.candidate with
  | some start =>
    let opens := layout.opensAt start.mark.column
    let layout := { layout.indentTo start.mark.column with
      keys := ⟨start.number, opens, start.mark⟩ :: layout.keys, candidate := none }
    .ok { layout.take .value layout.source.advance with keyAllowed := false }
  | none =>
    if !layout.inFlow && !layout.keyAllowed then layout.refuse .valueNotAllowed
    else
      let layout := layout.openHere .blockMappingStart
      .ok { layout.take .value layout.source.advance with keyAllowed := !layout.inFlow }

/-- An anchor, a tag or a reference, which may begin a key. -/
def property (layout : Layout) (read : Source → Reading (Token × Source)) : Reading Layout := do
  let layout ← layout.noteKey
  let (token, after) ← read layout.source
  return { layout.take token after with keyAllowed := false }

/-- A scalar in quotes, which may be a key. -/
def quoted (layout : Layout) (quote : Char) (style : Style) : Reading Layout := do
  let layout ← layout.noteKey
  let (text, after) ← readQuoted layout.limit quote layout.source
  return { layout.take (.scalar style (String.ofList text)) after with keyAllowed := false }

/-- A plain scalar, which may be a key; after a line end another key may begin. -/
def plain (layout : Layout) : Reading Layout := do
  let layout ← layout.noteKey
  let (text, lineEnded, after) ←
    readPlain layout.limit layout.inFlow (layout.indent + 1).toNat layout.source
  return { layout.take (.scalar .plain (String.ofList text)) after with keyAllowed := lineEnded }

/-- A block scalar. -/
def block (layout : Layout) (style : Style) : Reading Layout := do
  let layout ← layout.forgetKey
  let (text, after) ← readBlock layout.limit (style == .folded) layout.indent layout.source
  return { layout.take (.scalar style (String.ofList text)) after with keyAllowed := true }

/-- Whether a plain scalar may begin with a character, before which no other token was found. -/
def startsPlain (inFlow : Bool) (c : Char) (rest : List Char) : Bool :=
  if c == '-' then !rest.head?.any isBlank
  else if c == '?' || c == ':' then !inFlow && !endsWord rest
  else !("#&*!|>'\"%@`".toList.contains c || isFlowSign c || isBlank c || isBreak c)

/-- The next token, with what it closes. -/
def next (layout : Layout) : Reading Layout := do
  let layout ← (passBlanks layout.limit layout).forgetStale
  let layout := layout.close layout.source.mark.column
  match layout.source.rest with
  | [] => layout.finish
  | c :: rest =>
    if layout.source.mark.column = 0 ∧ c = '%' then layout.directive
    else if layout.source.atSign '-' then layout.documentSign .documentStart
    else if layout.source.atSign '.' then layout.documentSign .documentEnd
    else if c = '[' then layout.flowStart .flowSequenceStart
    else if c = '\x7b' then layout.flowStart .flowMappingStart
    else if c = ']' then layout.flowEnd .flowSequenceEnd
    else if c = '\x7d' then layout.flowEnd .flowMappingEnd
    else if c = ',' then layout.separator
    else if c = '-' && endsWord rest then layout.item
    else if c = '?' && (layout.inFlow || endsWord rest) then layout.key
    else if c = ':' && (layout.inFlow || endsWord rest) then layout.value
    else if c = '*' then layout.property (Token.readAnchor true)
    else if c = '&' then layout.property (Token.readAnchor false)
    else if c = '!' then layout.property (Token.readTag layout.inFlow)
    else if c = '|' && !layout.inFlow then layout.block .literal
    else if c = '>' && !layout.inFlow then layout.block .folded
    else if c = '\'' then layout.quoted '\'' .singleQuoted
    else if c = '"' then layout.quoted '"' .doubleQuoted
    else if startsPlain layout.inFlow c rest then layout.plain
    else layout.source.fail .unknownStart .token layout.source.mark

/-- The state after the last token or before the first fault, and the fault.  Every token but the
last uses up a character. -/
def run : Nat → Layout → Layout × Option Fault
  | 0, layout => (layout, none)
  | limit + 1, layout =>
    match layout.next with
    | .error fault => (layout, some fault)
    | .ok after => if after.finished then (after, none) else run limit after

/-- The number of tokens before the first place where a key may yet turn out to begin. -/
def settled (layout : Layout) : Nat :=
  ((layout.candidate :: layout.outer).filterMap (·.map (·.number))).foldl min layout.count

/-- Puts in the tokens of keys, which are in the order of their places; `number` tokens were
before. -/
def putKeys (number : Nat) : List FoundKey → List Placed → List Placed
  | _, [] => []
  | [], tokens => tokens
  | found :: keys, token :: tokens =>
    if found.number = number then
      let sign : List Placed := [⟨.key, found.mark, found.mark⟩]
      (if found.opens then ⟨.blockMappingStart, found.mark, found.mark⟩ :: sign else sign) ++
        token :: putKeys (number + 1) keys tokens
    else token :: putKeys (number + 1) (found :: keys) tokens

end Layout

/-- The tokens of a text, up to a fault if there is one. -/
structure Tokens where
  list : List Placed
  fault : Option Fault
  deriving Repr

namespace Tokens

/-- The first character that a text may not hold, as a fault told by the bytes before it. -/
def forbidden? : Nat → List Char → Option Fault
  | _, [] => none
  | before, c :: rest =>
    if isAllowed c then forbidden? (before + c.utf8Size) rest
    else some ⟨.controlCharacter, ⟨before, 0, 0⟩, none⟩

/-- The tokens of a text.  A byte order mark may come before them.  Tokens that a fault leaves
undecided are not among them. -/
def ofText (text : List Char) : Tokens :=
  match forbidden? 0 text with
  | some fault => ⟨[], some fault⟩
  | none =>
    let source : Source := ⟨text, ⟨0, 0, 0⟩⟩
    let source := if source.isAt '\uFEFF' then source.advance else source
    let limit := text.length + 1
    let (layout, fault) := Layout.run limit { limit := limit, source := source }
    let keys := layout.keys.mergeSort fun a b => decide (a.number ≤ b.number)
    let tokens := layout.tokens.reverse.take (if fault.isSome then layout.settled else layout.count)
    ⟨Layout.putKeys 0 keys tokens, fault⟩

end Tokens

end QuadStore.Yaml
