import QuadStore.Text

/-!
# Identifiers made from names

A universally unique identifier of version 5: the first sixteen bytes of the digest of a namespace
and a name, with six bits replaced by the version and the variant.  The same name always has the
same identifier.

## Main definitions

* `Sha1.digest`: the twenty bytes of the digest of a byte string.
* `NameId.ofName`: the identifier of a name in the namespace of URLs, in its usual text of 32
  hexadecimal digits in five groups.
-/

namespace QuadStore

/-! ## The Secure Hash Algorithm 1

The 160-bit digest of a byte string.  The message is padded to whole blocks of 64 bytes with a one
bit, zeros, and its length in bits; each block is expanded to eighty words, which are mixed into
five words of state.
-/

namespace Sha1

/-- A 32-bit word turned left by fewer than 32 places. -/
def rotateLeft (word : UInt32) (places : UInt32) : UInt32 :=
  (word <<< places) ||| (word >>> (32 - places))

/-- The five words of state. -/
structure State where
  a : UInt32
  b : UInt32
  c : UInt32
  d : UInt32
  e : UInt32

/-- The state before the first block. -/
def State.initial : State := ⟨0x67452301, 0xEFCDAB89, 0x98BADCFE, 0x10325476, 0xC3D2E1F0⟩

/-- The mixing function and constant of a round. -/
def roundValue (round : Nat) (b c d : UInt32) : UInt32 :=
  if round < 20 then ((b &&& c) ||| (~~~b &&& d)) + 0x5A827999
  else if round < 40 then (b ^^^ c ^^^ d) + 0x6ED9EBA1
  else if round < 60 then ((b &&& c) ||| (b &&& d) ||| (c &&& d)) + 0x8F1BBCDC
  else (b ^^^ c ^^^ d) + 0xCA62C1D6

/-- One round, with the word of the schedule that belongs to it. -/
def State.round (state : State) (round : Nat) (word : UInt32) : State :=
  let a := rotateLeft state.a 5 + roundValue round state.b state.c state.d + state.e + word
  ⟨a, state.a, rotateLeft state.b 30, state.c, state.d⟩

/-- The bytes of a natural number in `width` places, the highest first. -/
def bigEndian (width value : Nat) : List UInt8 :=
  (List.range width).map fun i => UInt8.ofNat (value / Nat.pow 256 (width - 1 - i))

/-- A message with its padding: a multiple of 64 bytes. -/
def padded (message : List UInt8) : List UInt8 :=
  message ++ 0x80 :: List.replicate ((119 - message.length % 64) % 64) 0 ++
    bigEndian 8 (8 * message.length)

/-- Four bytes as a word, the highest first. -/
def word (a b c d : UInt8) : UInt32 :=
  (a.toUInt32 <<< 24) ||| (b.toUInt32 <<< 16) ||| (c.toUInt32 <<< 8) ||| d.toUInt32

/-- The words of a byte string whose length is a multiple of four. -/
def words : List UInt8 → List UInt32
  | a :: b :: c :: d :: rest => word a b c d :: words rest
  | _ => []

/-- The schedule of a block: its sixteen words, each later one mixed from four earlier ones. -/
def schedule (block : Array UInt32) : Array UInt32 :=
  (List.range 64).foldl (fun w i =>
    w.push (rotateLeft (w.getD (i + 13) 0 ^^^ w.getD (i + 8) 0 ^^^ w.getD (i + 2) 0 ^^^ w.getD i 0)
      1)) block

/-- The state after a block. -/
def State.block (state : State) (block : List UInt32) : State :=
  let mixed := (schedule block.toArray).toList.zipIdx.foldl
    (fun s (word, round) => s.round round word) state
  ⟨state.a + mixed.a, state.b + mixed.b, state.c + mixed.c, state.d + mixed.d,
    state.e + mixed.e⟩

/-- The state after as many whole blocks as `count` says. -/
def State.blocks (state : State) : Nat → List UInt32 → State
  | 0, _ => state
  | count + 1, rest => (state.block (rest.take 16)).blocks count (rest.drop 16)

/-- The digest of a message. -/
def digest (message : List UInt8) : List UInt8 :=
  let all := words (padded message)
  let final := State.initial.blocks (all.length / 16) all
  [final.a, final.b, final.c, final.d, final.e].flatMap fun w => bigEndian 4 w.toNat

end Sha1

/-! ## Identifiers -/

namespace NameId

/-- The namespace of names that are URLs. -/
def urlNamespace : List UInt8 :=
  [0x6B, 0xA7, 0xB8, 0x11, 0x9D, 0xAD, 0x11, 0xD1, 0x80, 0xB4, 0x00, 0xC0, 0x4F, 0xD4, 0x30, 0xC8]

/-- A byte of the digest with the version and the variant put in at their places. -/
def mark (place : Nat) (byte : UInt8) : UInt8 :=
  if place = 6 then (byte &&& 0x0F) ||| 0x50
  else if place = 8 then (byte &&& 0x3F) ||| 0x80
  else byte

/-- The sixteen bytes of the identifier of a name. -/
def bytes (name : List UInt8) : List UInt8 :=
  ((Sha1.digest (urlNamespace ++ name)).take 16).zipIdx.map fun (byte, place) => mark place byte

/-- A byte as two digits. -/
def hexByte (byte : UInt8) : List Char := Text.lowerHex 2 byte.toNat

/-- The groups of digits, with a hyphen before the bytes at which a new group begins. -/
def format (bytes : List UInt8) : List Char :=
  bytes.zipIdx.flatMap fun (byte, place) =>
    if place = 4 ∨ place = 6 ∨ place = 8 ∨ place = 10 then '-' :: hexByte byte else hexByte byte

/-- The identifier of a name. -/
def ofName (name : String) : String :=
  String.ofList (format (bytes name.toUTF8.toList))

end NameId

end QuadStore
