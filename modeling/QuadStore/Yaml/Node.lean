import QuadStore.Yaml.Token
import QuadStore.Number.Binary64

/-!
# YAML documents

The tree of a document, and the values of its scalars.  A node keeps what stood before it, since its tag
may decide what it is, and the place where it begins, for messages.  A reference does not hold the node
that it stands for, so that a node may refer to one that holds it.

Anchors are numbered.  The number of an anchor is how many names were in use before it, so giving a
name again takes a new number without adding a name, and the next new name takes that number too;
a number stands for the last node that has it.

## Main definitions

* `Head`, `Node`, `Document`.
* `Node.anchored`: the nodes with an anchor, in the order in which they begin.
* `Document.follow`: the node that a reference stands for.
* `Scalar`, `Scalar.ofPlain`, `Scalar.resolve`: the type and value of a scalar.
* `Scalar.natural?`: the natural number that a text writes.
* `Head.localTag?`: the name in a tag that is not one of the language.
-/

namespace QuadStore.Yaml

/-- Where a node begins, the number of its anchor, and its tag. -/
structure Head where
  mark : Mark
  anchor : Option Nat := none
  tag : Option String := none
  deriving DecidableEq, Repr, Inhabited

/-- A node of a document. -/
inductive Node where
  | scalar (head : Head) (style : Style) (text : String)
  | sequence (head : Head) (items : List Node)
  | mapping (head : Head) (entries : List (Node × Node))
  | reference (mark : Mark) (number : Nat)
  deriving Repr, Inhabited

namespace Node

/-- What stood before a node. -/
def head : Node → Head
  | scalar head _ _ => head
  | sequence head _ => head
  | mapping head _ => head
  | reference mark _ => { mark := mark }

/-- Where a node begins. -/
def mark (node : Node) : Mark := node.head.mark

/-- A node where nothing is written. -/
def nothing (mark : Mark) : Node := .scalar { mark := mark } .plain ""

/-- A node with the number of its anchor, if it has one. -/
def own (node : Node) : List (Nat × Node) :=
  match node.head.anchor with
  | some number => [(number, node)]
  | none => []

mutual

/-- The nodes with an anchor in a tree, in the order in which they begin. -/
def anchored : Node → List (Nat × Node)
  | scalar head style text => own (scalar head style text)
  | sequence head items => own (sequence head items) ++ anchoredItems items
  | mapping head entries => own (mapping head entries) ++ anchoredEntries entries
  | reference _ _ => []

/-- The nodes with an anchor in the items of a sequence. -/
def anchoredItems : List Node → List (Nat × Node)
  | [] => []
  | item :: items => anchored item ++ anchoredItems items

/-- The nodes with an anchor in the entries of a mapping. -/
def anchoredEntries : List (Node × Node) → List (Nat × Node)
  | [] => []
  | (key, value) :: entries => anchored key ++ anchored value ++ anchoredEntries entries

end

end Node

/-- A document: its tree, and its nodes with an anchor, the last one first. -/
structure Document where
  root : Node
  anchors : List (Nat × Node)
  deriving Repr

namespace Document

/-- The document with a tree. -/
def ofRoot (root : Node) : Document := ⟨root, root.anchored.reverse⟩

/-- The node that a reference stands for; any other stands for itself. -/
def follow (document : Document) : Node → Node
  | .reference mark number => (document.anchors.lookup number).getD (.reference mark number)
  | node => node

end Document

/-! ## The values of scalars

A scalar that was written plainly, and has no tag or a tag of its own kind, has the type that its text
looks like; a tag of the language asks for one type; any other scalar is a string.
-/

/-- The value of a scalar. -/
inductive Scalar where
  | null
  | boolean (value : Bool)
  | integer (value : Int)
  /-- A number with a point or an exponent, as it was written. -/
  | float (text : String)
  | string (text : String)
  deriving DecidableEq, Repr

/-- The tags of the language that ask for a type. -/
inductive Schema where
  | boolean
  | integer
  | float
  | null
  deriving DecidableEq, Repr

/-- The type that a tag asks for. -/
def schema? (tag : String) : Option Schema :=
  if tag = "tag:yaml.org,2002:bool" then some .boolean
  else if tag = "tag:yaml.org,2002:int" then some .integer
  else if tag = "tag:yaml.org,2002:float" then some .float
  else if tag = "tag:yaml.org,2002:null" then some .null
  else none

/-- The name in a tag that begins with an exclamation mark; the mark alone is a name. -/
def localName? (tag : String) : Option String :=
  match tag.toList with
  | ['!'] => some "!"
  | '!' :: name => some (String.ofList name)
  | _ => none

/-- The name in the tag of a node. -/
def Head.localTag? (head : Head) : Option String := head.tag.bind localName?

namespace Scalar

/-- The words for nothing. -/
def isNull (text : String) : Bool :=
  text == "~" || text == "null" || text == "Null" || text == "NULL"

/-- The truth value that a word stands for. -/
def boolean? (text : String) : Option Bool :=
  if text = "true" ∨ text = "True" ∨ text = "TRUE" then some true
  else if text = "false" ∨ text = "False" ∨ text = "FALSE" then some false
  else none

/-- The value of a digit in a base of at most sixteen. -/
def digit? (base : Nat) (c : Char) : Option Nat :=
  let value := if '0' ≤ c ∧ c ≤ '9' then c.toNat - '0'.toNat
    else if 'a' ≤ c ∧ c ≤ 'f' then c.toNat - 'a'.toNat + 10
    else if 'A' ≤ c ∧ c ≤ 'F' then c.toNat - 'A'.toNat + 10
    else base
  if value < base then some value else none

/-- The number that a non-empty row of digits writes in a base. -/
def inBase? (base : Nat) (digits : List Char) : Option Nat :=
  if digits.isEmpty then none
  else digits.foldlM (fun value c => (digit? base c).map (value * base + ·)) 0

/-- An unsigned number: in base ten, or in base 16, 8 or 2 after a mark.  Further digits after a
leading zero make a string of it. -/
def magnitude? : List Char → Option Nat
  | '0' :: 'x' :: digits => inBase? 16 digits
  | '0' :: 'o' :: digits => inBase? 8 digits
  | '0' :: 'b' :: digits => inBase? 2 digits
  | ['0'] => some 0
  | '0' :: _ => none
  | digits => inBase? 10 digits

/-- A number that is not written as a negative one. -/
def natural? : List Char → Option Nat
  | '+' :: rest => magnitude? rest
  | rest => magnitude? rest

/-- A number with an optional sign. -/
def integer? : List Char → Option Int
  | '-' :: rest => (magnitude? rest).map fun n => -Int.ofNat n
  | text => (natural? text).map Int.ofNat

/-- A text without its sign. -/
def withoutSign : List Char → List Char
  | '+' :: rest => rest
  | '-' :: rest => rest
  | rest => rest

/-- Whether a text has the form of a number with a point or an exponent, or is a name of infinity
or of not-a-number. -/
def isFloat (text : List Char) : Bool :=
  let name := String.ofList (withoutSign text)
  if name = ".inf" ∨ name = ".Inf" ∨ name = ".INF" then true
  else if [".nan", ".NaN", ".NAN"].contains (String.ofList text) then true
  else if (withoutSign text).all Text.isDigit then false
  else match Binary64.decimalMagnitude? (withoutSign text) with
    | some magnitude => magnitude != Binary64.infinityBits
    | none => false

/-- The value of a scalar that was written plainly. -/
def ofPlain (text : String) : Scalar :=
  if text.isEmpty || isNull text then null
  else match boolean? text with
    | some value => boolean value
    | none =>
      match integer? text.toList with
      | some value => integer value
      | none => if isFloat text.toList then float text else string text

/-- The value of a text as a type, or what it should have been. -/
def ofSchema (text : String) : Schema → Except String Scalar
  | .boolean => ((boolean? text).map boolean).elim (.error "a boolean") .ok
  | .integer => ((integer? text.toList).map integer).elim (.error "an integer") .ok
  | .float => if isFloat text.toList then .ok (float text) else .error "a float"
  | .null => if isNull text then .ok null else .error "null"

/-- The value of a scalar, or what its tag says that it should have been. -/
def resolve (tag : Option String) (style : Style) (text : String) : Except String Scalar :=
  match tag with
  | none => .ok (if style = .plain then ofPlain text else string text)
  | some tag =>
    match schema? tag with
    | some schema => ofSchema text schema
    | none =>
      .ok (if style = .plain && (localName? tag).isSome then ofPlain text else string text)

end Scalar

end QuadStore.Yaml
