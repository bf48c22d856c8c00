import QuadStore.Yaml.Token
import QuadStore.Text

/-!
# Scalars

The readers of scalars: in quotes, where a line end between words is a blank; plain, which end
where the indentation, a comment or a sign ends them; and in blocks, which keep their line ends or
fold them.

## Main definitions

* `readQuoted`, `readPlain`, `readBlock`: the text of a scalar and the source after it.
-/

namespace QuadStore.Yaml

/-! ## In quotes -/

/-- The character of a one-letter escape. -/
def shortEscape? : Char → Option Char
  | '0' => some '\x00'
  | 'a' => some '\x07'
  | 'b' => some '\x08'
  | 't' => some '\t'
  | '\t' => some '\t'
  | 'n' => some '\n'
  | 'v' => some '\x0b'
  | 'f' => some '\x0c'
  | 'r' => some '\r'
  | 'e' => some '\x1b'
  | ' ' => some ' '
  | '"' => some '"'
  | '/' => some '/'
  | '\\' => some '\\'
  | 'N' => some '\u0085'
  | '_' => some '\u00a0'
  | 'L' => some '\u2028'
  | 'P' => some '\u2029'
  | _ => none

/-- The number of digits of an escape that names a character. -/
def escapeWidth? : Char → Option Nat
  | 'x' => some 2
  | 'u' => some 4
  | 'U' => some 8
  | _ => none

/-- The character of the escape at the front of a source. -/
def readEscape (start : Mark) (source : Source) : Reading (Char × Source) :=
  let letter := source.rest[1]?
  let after := source.advanceBy 2
  match letter.bind shortEscape?, letter.bind escapeWidth? with
  | some c, _ => .ok (c, after)
  | none, some width =>
    let digits := after.rest.take width
    if digits.length < width || !digits.all fun c => (Text.hexValue? c).isSome then
      after.fail .escapeDigitMissing .quotedEscape start
    else match Text.codePoint? width digits with
      | some c => .ok (c, after.advanceBy width)
      | none => after.fail .escapeCharacterWrong .quotedEscape start
  | none, none => source.fail .escapeUnknown .quotedEscape start

/-- The characters of a scalar in quotes from here to its end, after those in `text`, of which the
last comes first.  An escaped line end stands for nothing, and the others before the next word for
themselves. -/
def quotedFrom (quote : Char) (start : Mark) :
    Nat → List Char → Source → Reading (List Char × Source)
  | 0, _, source => source.fail .textEndInside .quotedScalar start
  | limit + 1, text, source => do
    if source.atDocumentSign then source.fail .documentSignInside .quotedScalar start
    match source.rest with
    | [] => source.fail .textEndInside .quotedScalar start
    | c :: rest =>
      if isBlank c || isBreak c then
        let (blanks, ends, after) := (source.gap 0).getD ([], [], source)
        quotedFrom quote start limit ((joint blanks ends).reverse ++ text) after
      else if c = quote then
        if quote = '\'' && rest.head? = some '\'' then
          quotedFrom quote start limit ('\'' :: text) (source.advanceBy 2)
        else return (text.reverse, source.advance)
      else if quote = '"' && c = '\\' then
        match source.advance.lineEnd? with
        | some (_, next) =>
          let (_, ends, after) := (next.gap 0).getD ([], [], next)
          quotedFrom quote start limit (ends.reverse ++ text) after
        | none =>
          let (c, after) ← readEscape start source
          quotedFrom quote start limit (c :: text) after
      else quotedFrom quote start limit (c :: text) source.advance

/-- The scalar in quotes at the front of a source of less than `limit` characters. -/
def readQuoted (limit : Nat) (quote : Char) (source : Source) : Reading (List Char × Source) :=
  quotedFrom quote source.mark limit [] source.advance

/-! ## Plain -/

/-- The word of a plain scalar at the front of a text, and whether it ends at a colon that is
neither a part of it nor the sign of a value, which happens in flow collections only. -/
def plainWord (inFlow : Bool) : List Char → List Char × Bool
  | [] => ([], false)
  | c :: rest =>
    if isBlank c || isBreak c then ([], false)
    else if inFlow && c == ':' && rest.head?.any (fun d => d == '?' || isFlowSign d) then
      ([], true)
    else if (c == ':' && endsWord rest) || (inFlow && isFlowSign c) then ([], false)
    else
      let (word, stray) := plainWord inFlow rest
      (c :: word, stray)

/-- The characters of a plain scalar from here to its end, after those in `text`, of which the last
comes first, and the gap since then; whether the gap at its end has a line end; and the source after
it and the gap.  Its lines are indented by at least `indent`. -/
def plainFrom (inFlow : Bool) (indent : Nat) (start : Mark) :
    Nat → List Char → List Char × List Char → Source → Reading (List Char × Bool × Source)
  | 0, text, gap, source => .ok (text.reverse, !gap.2.isEmpty, source)
  | limit + 1, text, (blanks, ends), source => do
    if source.atDocumentSign || source.isAt '#' then
      return (text.reverse, !ends.isEmpty, source)
    let (word, stray) := plainWord inFlow source.rest
    let after := source.advanceBy word.length
    if stray then after.fail .colonInside .plainScalar start
    if word.isEmpty then return (text.reverse, !ends.isEmpty, source)
    let text := word.reverse ++ ((joint blanks ends).reverse ++ text)
    match after.gap indent with
    | none => after.fail .tabInside .plainScalar start
    | some (blanks, ends, next) =>
      if !inFlow && next.mark.column < indent then return (text.reverse, !ends.isEmpty, next)
      else plainFrom inFlow indent start limit text (blanks, ends) next

/-- The plain scalar at the front of a source of less than `limit` characters, whether a line end
comes after it, and the source after that. -/
def readPlain (limit : Nat) (inFlow : Bool) (indent : Nat) (source : Source) :
    Reading (List Char × Bool × Source) :=
  plainFrom inFlow indent source.mark limit [] ([], []) source

/-! ## In blocks -/

/-- What becomes of the line ends at the end of a block scalar: none, the first, or all are kept. -/
inductive Chomping where
  | strip
  | clip
  | keep
  deriving DecidableEq, Repr

/-- The chomping that a sign asks for. -/
def chomping? : Char → Option Chomping
  | '+' => some .keep
  | '-' => some .strip
  | _ => none

/-- The signs after that of a block scalar, in either order: the chomping, and how much deeper than
its parent it is indented. -/
def readBlockHead (start : Mark) (source : Source) :
    Reading (Chomping × Option Nat × Source) := do
  let sign (source : Source) : Chomping × Source :=
    match source.rest.head?.bind chomping? with
    | some chomping => (chomping, source.advance)
    | none => (.clip, source)
  let depth (source : Source) : Reading (Option Nat × Source) :=
    match source.rest with
    | [] => .ok (none, source)
    | c :: _ =>
      if c = '0' then source.fail .indentZero .blockScalar start
      else if Text.isDigit c then .ok (some (Text.digitValue c), source.advance)
      else .ok (none, source)
  let (first, after) := sign source
  let (depth, after) ← depth after
  let (second, after) := if first = .clip && depth.isSome then sign after else (.clip, after)
  return (if first = .clip then second else first, depth, after)

/-- The line ends before the next line that has text, the widest indentation passed over, and the
source at that line, behind `indent` blanks or, if that is not known yet, all its blanks. -/
def blockGap (indent : Option Nat) (start : Mark) :
    Nat → List Char → Nat → Source → Reading (List Char × Nat × Source)
  | 0, ends, widest, source => .ok (ends.reverse, widest, source)
  | limit + 1, ends, widest, source =>
    let blanks := (source.rest.takeWhile (· == ' ')).length
    let width := match indent with
      | some indent => min blanks (indent - source.mark.column)
      | none => blanks
    let source := source.advanceBy width
    let widest := max widest source.mark.column
    if source.isAt '\t' && indent.all (source.mark.column < ·) then
      source.fail .indentTab .blockScalar start
    else match source.lineEnd? with
      | some (c, next) => blockGap indent start limit (c :: ends) widest next
      | none => .ok (ends.reverse, widest, source)

/-- What the line ends before a line of a folded block scalar stand for: as for other scalars, but
a line that begins with a blank, or follows such a line, keeps them. -/
def foldLine (blankBefore blankAfter : Bool) (ends : List Char) : List Char :=
  if blankBefore || blankAfter then ends else fold ends

/-- The lines of a block scalar from here on, after the text so far, of which the last character
comes first, and the line ends since then.  `first` tells that there was no line before, and
`blankBefore` that the line before began with a blank. -/
def blockFrom (folded : Bool) (indent : Nat) (start : Mark) :
    Nat → List Char → List Char → Bool → Bool → Source →
      Reading (List Char × List Char × Source)
  | 0, text, ends, _, _, source => .ok (text, ends, source)
  | limit + 1, text, ends, first, blankBefore, source => do
    if source.mark.column ≠ indent || source.rest.isEmpty then return (text, ends, source)
    else
      let blankAfter := source.rest.head?.any isBlank
      let joint := if folded && !first then foldLine blankBefore blankAfter ends else ends
      let (line, after) := source.span (!isBreak ·)
      let text := line.reverse ++ (joint.reverse ++ text)
      match after.lineEnd? with
      | none => return (text, [], after)
      | some (c, next) =>
        let (more, _, next) ← blockGap (some indent) start limit [] 0 next
        blockFrom folded indent start limit text (c :: more) false blankAfter next

/-- The block scalar at the front of a source of less than `limit` characters, whose parent is
indented by `parent`; before the first collection that is less than nothing. -/
def readBlock (limit : Nat) (folded : Bool) (parent : Int) (source : Source) :
    Reading (List Char × Source) := do
  let start := source.mark
  let (chomping, depth, after) ← readBlockHead start source.advance
  let line := after.skipComment
  unless endsLine line.rest do line.fail .lineEndMissing .blockScalar start
  let source := line.advance
  let given := depth.map ((max parent 0).toNat + ·)
  let (ends, widest, source) ←
    blockGap given start limit [] 0 source
  let indent := given.getD (max widest (max (parent + 1) 1).toNat)
  let (text, tail, after) ←
    blockFrom folded indent start limit [] ends true false source
  let kept := match chomping with
    | .strip => []
    | .clip => if text.isEmpty then [] else tail.take 1
    | .keep => tail
  return (text.reverse ++ kept, after)

end QuadStore.Yaml
