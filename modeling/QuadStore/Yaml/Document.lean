import QuadStore.Yaml.Node
import QuadStore.Yaml.Token.Layout

/-!
# Reading a document

The tree that a row of tokens stands for.  A node is read by what it begins with; where a node is
expected and another token comes, an empty scalar stands for it.

Every call either takes a token or is one of a few that follow another without taking any, so a
number of calls in proportion to the number of tokens is enough.

## Main definitions

* `Builder`: reading from a row of tokens.
* `Builder.node`: the node at the front.
* `Document.read`: the only document of a text, nothing for an empty text, or a fault.
-/

namespace QuadStore.Yaml

/-- The tokens still to be read, why there are no more, the tag handles, and the names of the
anchors so far with their numbers. -/
structure Cursor where
  tokens : Tokens
  handles : List (String × List UInt8)
  names : List (String × Nat) := []

/-- Reading from a row of tokens. -/
abbrev Builder := StateT Cursor Reading

namespace Builder

/-- The next token. -/
def peek : Builder Placed := do
  let tokens := (← get).tokens
  match tokens.list with
  | token :: _ => return token
  | [] => throw (tokens.fault.getD ⟨.textEndInside, default, none⟩)

/-- Passes over the next token. -/
def drop : Builder Unit :=
  modify fun cursor => { cursor with tokens.list := cursor.tokens.list.tail }

/-- Fails at a token within a collection that began at a place. -/
def refuse {α : Type} (token : Placed) (problem : Problem) (activity : Activity) (start : Mark) :
    Builder α :=
  throw ⟨problem, token.start, some (activity, start)⟩

/-! ## Before a node -/

/-- The name of the anchor at the front, if there is one. -/
def anchor? : Builder (Option String) := do
  match (← peek).token with
  | .anchor name =>
    drop
    return some name
  | _ => return none

/-- The tag at the front, if there is one, with its place. -/
def tag? : Builder (Option (Mark × String × List UInt8)) := do
  let token ← peek
  match token.token with
  | .tag handle suffix =>
    drop
    return some (token.start, handle, suffix)
  | _ => return none

/-- The whole of a tag; bytes that are no text make none. -/
def wholeTag (start : Mark) : Option (Mark × String × List UInt8) → Builder (Option String)
  | none => return none
  | some (mark, handle, suffix) => do
    if handle.isEmpty then return String.fromUTF8? ⟨suffix.toArray⟩
    else match (← get).handles.lookup handle with
      | some stem => return String.fromUTF8? ⟨(stem ++ suffix).toArray⟩
      | none => throw ⟨.handleUnknown, mark, some (.node, start)⟩

/-- Gives a name to the node that follows, and the name's number. -/
def name (text : String) : Builder Nat := do
  let names := (← get).names
  let number := names.length
  let names := if (names.lookup text).isSome
    then names.map fun (other, known) => (other, if other = text then number else known)
    else (text, number) :: names
  modify fun cursor => { cursor with names := names }
  return number

/-- An anchor and a tag, in either order, or one of them, or none. -/
def properties : Builder Head := do
  let start := (← peek).start
  let first ← anchor?
  let tag ← tag?
  let second ← if first.isNone then anchor? else pure none
  let tag ← wholeTag start tag
  match first.or second with
  | none => return { mark := start, tag := tag }
  | some text => return { mark := start, anchor := some (← name text), tag := tag }

/-! ## Nodes -/

/-- An empty node at a place. -/
def empty (mark : Mark) : Builder Node := return .nothing mark

/-- Whether a token ends the part of a block mapping before it. -/
def endsBlockPart (token : Token) : Bool :=
  token == .key || token == .value || token == .blockEnd

mutual

/-- The node at the front.  A block collection may begin in a block only, and a sequence without an
indentation of its own only as a part of a mapping. -/
def node : Nat → Bool → Bool → Builder Node
  | 0, _, _ => do refuse (← peek) .contentMissing .node (← peek).start
  | calls + 1, inBlock, inMapping => do
    let first ← peek
    if let .reference text := first.token then
      drop
      match (← get).names.lookup text with
      | some number => return .reference first.start number
      | none => throw ⟨.anchorUnknown, first.start, none⟩
    else
      let head ← properties
      let next ← peek
      match next.token, inBlock, inMapping with
      | .scalar style text, _, _ =>
        drop
        let tag := if head.tag = some "!" then none else head.tag
        return .scalar { head with tag := tag } style text
      | .flowSequenceStart, _, _ =>
        drop
        return .sequence head (← flowItems calls true next.start)
      | .flowMappingStart, _, _ =>
        drop
        return .mapping head (← flowEntries calls true next.start)
      | .blockSequenceStart, true, _ =>
        drop
        return .sequence head (← blockItems calls next.start)
      | .blockMappingStart, true, _ =>
        drop
        return .mapping head (← blockEntries calls next.start)
      | .item, _, true => return .sequence head (← bareItems calls)
      | _, _, _ =>
        if head.anchor.isSome || head.tag.isSome || first.start ≠ next.start then
          return .scalar head .plain ""
        else refuse next .contentMissing (if inBlock then .blockNode else .flowNode) head.mark

/-- The items of a block sequence that began at a place. -/
def blockItems : Nat → Mark → Builder (List Node)
  | 0, start => do refuse (← peek) .itemMissing .blockSequence start
  | calls + 1, start => do
    let sign ← peek
    if sign.token = .blockEnd then
      drop
      return []
    else if sign.token = .item then
      drop
      let next ← peek
      let item ← if next.token = .item ∨ next.token = .blockEnd then empty sign.stop
        else node calls true false
      return item :: (← blockItems calls start)
    else refuse sign .itemMissing .blockSequence start

/-- The items of a sequence that has the indentation of the mapping around it. -/
def bareItems : Nat → Builder (List Node)
  | 0 => return []
  | calls + 1 => do
    let sign ← peek
    if sign.token = .item then
      drop
      let next ← peek
      let item ← if next.token = .item ∨ endsBlockPart next.token then empty sign.stop
        else node calls true false
      return item :: (← bareItems calls)
    else return []

/-- The entries of a block mapping that began at a place.  Only a key begins an entry. -/
def blockEntries : Nat → Mark → Builder (List (Node × Node))
  | 0, start => do refuse (← peek) .keyMissing .blockMapping start
  | calls + 1, start => do
    let sign ← peek
    if sign.token = .blockEnd then
      drop
      return []
    else if sign.token = .key then
      let key ← blockPart calls
      let next ← peek
      let value ← if next.token = .value then blockPart calls else empty next.start
      return (key, value) :: (← blockEntries calls start)
    else refuse sign .keyMissing .blockMapping start

/-- What follows the sign of a key or of a value in a block mapping. -/
def blockPart : Nat → Builder Node
  | 0 => do refuse (← peek) .contentMissing .node (← peek).start
  | calls + 1 => do
    let sign ← peek
    drop
    if endsBlockPart (← peek).token then empty sign.stop else node calls true true

/-- The items of a flow sequence that began at a place; a pair of key and value is a mapping of its
own. -/
def flowItems : Nat → Bool → Mark → Builder (List Node)
  | 0, _, start => do refuse (← peek) .sequenceEndMissing .flowSequence start
  | calls + 1, isFirst, start => do
    let sign ← peek
    if sign.token = .flowSequenceEnd then
      drop
      return []
    else
      unless isFirst do
        unless sign.token = .separator do refuse sign .sequenceEndMissing .flowSequence start
        drop
      let next ← peek
      if next.token = .flowSequenceEnd then
        drop
        return []
      else if next.token = .key then
        drop
        let entry ← flowPair calls
        return .mapping { mark := next.start } [entry] :: (← flowItems calls false start)
      else
        let item ← node calls false false
        return item :: (← flowItems calls false start)

/-- The key and the value of a pair in a flow sequence.  A sign where the key should be is taken for
the key. -/
def flowPair : Nat → Builder (Node × Node)
  | 0 => do refuse (← peek) .contentMissing .node (← peek).start
  | calls + 1 => do
    let next ← peek
    let key ←
      if next.token = .value ∨ next.token = .separator ∨ next.token = .flowSequenceEnd then
        drop
        empty next.stop
      else node calls false false
    return (key, ← flowValue calls .flowSequenceEnd)

/-- The entries of a flow mapping that began at a place; a node alone is a key. -/
def flowEntries : Nat → Bool → Mark → Builder (List (Node × Node))
  | 0, _, start => do refuse (← peek) .mappingEndMissing .flowMapping start
  | calls + 1, isFirst, start => do
    let sign ← peek
    if sign.token = .flowMappingEnd then
      drop
      return []
    else
      unless isFirst do
        unless sign.token = .separator do refuse sign .mappingEndMissing .flowMapping start
        drop
      let next ← peek
      if next.token = .flowMappingEnd then
        drop
        return []
      else if next.token = .key then
        drop
        let next ← peek
        let key ←
          if next.token = .value ∨ next.token = .separator ∨ next.token = .flowMappingEnd then
            empty next.start
          else node calls false false
        let value ← flowValue calls .flowMappingEnd
        return (key, value) :: (← flowEntries calls false start)
      else
        let key ← node calls false false
        let value ← empty (← peek).start
        return (key, value) :: (← flowEntries calls false start)

/-- The value after a key in a flow collection that ends with `last`. -/
def flowValue : Nat → Token → Builder Node
  | 0, _ => do empty (← peek).start
  | calls + 1, last => do
    let sign ← peek
    if sign.token = .value then
      drop
      let next ← peek
      if next.token = .separator ∨ next.token = last then empty next.start
      else node calls false false
    else empty sign.start

end

/-! ## Documents -/

/-- The handles that need no directive. -/
def knownHandles : List (String × List UInt8) :=
  [("!", "!".toUTF8.toList), ("!!", "tag:yaml.org,2002:".toUTF8.toList)]

/-- The directives at the front; the handles that they give come before those that are known. -/
def directives : Nat → Bool → List (String × List UInt8) → Builder Unit
  | 0, _, _ => return ()
  | calls + 1, versioned, given => do
    let next ← peek
    match next.token with
    | .version major minor =>
      if versioned then throw ⟨.versionTwice, next.start, none⟩
      unless major = 1 ∧ (minor = 1 ∨ minor = 2) do throw ⟨.versionOther, next.start, none⟩
      drop
      directives calls true given
    | .tagHandle handle stem =>
      if (given.lookup handle).isSome then throw ⟨.handleTwice, next.start, none⟩
      drop
      directives calls versioned (given ++ [(handle, stem)])
    | _ => modify fun cursor => { cursor with handles := given ++ knownHandles }

/-- Whether a token stands outside of documents. -/
def isOutside : Token → Bool
  | .version _ _ | .tagHandle _ _ | .documentStart | .documentEnd | .textEnd => true
  | _ => false

/-- The root of the first document, if there is one.  It may begin without a sign. -/
def root : Builder (Option Node) := do
  let calls := 4 * (← get).tokens.list.length + 4
  let first ← peek
  if first.token = .textEnd then return none
  else if isOutside first.token && first.token ≠ .documentEnd then
    directives calls false []
    let sign ← peek
    unless sign.token = .documentStart do throw ⟨.documentStartMissing, sign.start, none⟩
    drop
    let next ← peek
    if isOutside next.token then empty next.start else node calls true false
  else node calls true false

/-- Passes over the signs that end a document. -/
def dropEnds : Nat → Builder Unit
  | 0 => return ()
  | limit + 1 => do
    if (← peek).token = .documentEnd then
      drop
      dropEnds limit

/-- The first document, if there is one, after which there may be nothing. -/
def only : Builder (Option Node) := do
  let root ← root
  dropEnds (← get).tokens.list.length
  if (← peek).token ≠ .textEnd then throw ⟨.furtherDocument, default, none⟩
  return root

end Builder

namespace Document

/-- The document that tokens stand for, nothing for none. -/
def ofTokens (tokens : Tokens) : Reading (Option Document) :=
  (Builder.only.run ⟨tokens, Builder.knownHandles, []⟩).map fun (root, _) => root.map ofRoot

/-- The document in a text, nothing for an empty text. -/
def read (text : List Char) : Reading (Option Document) := ofTokens (Tokens.ofText text)

end Document

end QuadStore.Yaml
