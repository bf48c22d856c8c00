/-!
# Compressed files

The reader of the gzip format: a header, a deflate stream, and the check sum and size of its
output.  A file may hold several members one after the other, of which the first alone is read.

A fault is noticed only when reading comes to it, so what was read before remains: all output if
the file ends too early or the check sum is wrong.  Of a stream that is no stream, only the output
of whole windows of 32 KiB before the fault remains, since a window is put out all at once.

## Main definitions

* `Crc32.checksum`: the check sum.
* `Inflate.Code`: a prefix code, from the lengths of its words.
* `Inflate.inflate`: the output of a stream, with the way it ended.
* `Gzip.isMarked`: whether a file begins like a compressed one.
* `Gzip.read`: the output of the first member, and whether it is sound.
-/

namespace QuadStore

/-! ## Cyclic redundancy checks

The 32-bit check sum of a byte string: the remainder of its bits by a fixed polynomial, with the
lowest bit of each byte first.
-/

namespace Crc32

/-- The polynomial, its highest power in the lowest bit. -/
def polynomial : UInt32 := 0xEDB88320

/-- The remainder after one more bit. -/
def shift (remainder : UInt32) : UInt32 :=
  if remainder &&& 1 = 1 then (remainder >>> 1) ^^^ polynomial else remainder >>> 1

/-- The remainder after one more byte. -/
def step (remainder : UInt32) (byte : UInt8) : UInt32 :=
  (List.range 8).foldl (fun r _ => shift r) (remainder ^^^ byte.toUInt32)

/-- The check sum of a byte string. -/
def checksum (bytes : List UInt8) : UInt32 :=
  bytes.foldl step 0xFFFFFFFF ^^^ 0xFFFFFFFF

end Crc32

/-! ## Inflating

The reader of the deflate format.  A stream is a row of blocks; a block is stored as it is, or its
bytes and its references to earlier output are coded by prefix codes, which are either fixed or
given at the head of the block.

Reading ends in one of three ways, and the output so far is kept in each: at the end of the last
block, at the end of the input, or at something that no stream can hold.
-/

namespace Inflate

/-- Why reading stops before the end of a stream. -/
inductive Stop where
  /-- The input is used up. -/
  | truncated
  /-- The input is no stream. -/
  | corrupt
  deriving DecidableEq, Repr

/-- What is left of the input, bit by bit, and the output so far. -/
structure State where
  bits : List Bool
  output : Array UInt8

/-- A step of reading. -/
abbrev Reader := ExceptT Stop (StateM State)

/-- The bits of a byte, the lowest first. -/
def bitsOf (byte : UInt8) : List Bool := (List.range 8).map fun i => byte.toNat.testBit i

/-- The next bit. -/
def bit : Reader Bool := do
  match (← get).bits with
  | [] => throw .truncated
  | b :: rest =>
    modify fun state => { state with bits := rest }
    return b

/-- A number of so many bits, the lowest first. -/
def number : Nat → Reader Nat
  | 0 => return 0
  | width + 1 => do
    let low ← bit
    let high ← number width
    return low.toNat + 2 * high

/-- Puts out a byte. -/
def put (byte : UInt8) : Reader Unit :=
  modify fun state => { state with output := state.output.push byte }

/-- The byte that lies `distance` before the end of the output.  What lies before the output is
zero. -/
def earlier (output : Array UInt8) (distance : Nat) : UInt8 :=
  if output.size < distance then 0 else output.getD (output.size - distance) 0

/-- Puts out `count` bytes again, each the one that lies `distance` before its place. -/
def copy (distance : Nat) : Nat → Reader Unit
  | 0 => return ()
  | count + 1 => do
    put (earlier (← get).output distance)
    copy distance count

/-! ### Prefix codes -/

/-- A prefix code: for each length, the first word of that length and the symbols of the words from
it on.  Words of one length follow each other in the order of their symbols. -/
structure Code where
  levels : List (Nat × List Nat)

/-- The first words of the lengths from `length` on, each with its symbols. -/
def Code.levelsFrom (lengths : List Nat) (first : Nat) : Nat → Nat → List (Nat × List Nat)
  | 0, _ => []
  | count + 1, length =>
    let symbols := (lengths.zipIdx.filter fun (l, _) => l = length).map Prod.snd
    (first, symbols) :: levelsFrom lengths (2 * (first + symbols.length)) count (length + 1)

/-- The code whose word for each symbol has the given length, zero for no word. -/
def Code.ofLengths (lengths : List Nat) : Code := ⟨levelsFrom lengths 0 15 1⟩

/-- How much of the space of words the lengths take, in words of fifteen bits. -/
def spaceTaken (lengths : List Nat) : Nat :=
  lengths.foldr (fun l taken => (if l = 0 then 0 else Nat.pow 2 (15 - l)) + taken) 0

/-- Whether lengths leave no word unused and use none twice. -/
def isComplete (lengths : List Nat) : Bool := spaceTaken lengths == 32768

/-- Whether lengths are those of a code for a block: it is complete, but a single word of one bit
may leave the other one unused, and there may be no word at all. -/
def isUsable (lengths : List Nat) : Bool :=
  isComplete lengths || lengths.filter (· ≠ 0) == [1] || lengths.all (· == 0)

/-- The symbol of the next word, of which `word` was read and `levels` are still to be tried. -/
def symbolFrom (word : Nat) : List (Nat × List Nat) → Reader Nat
  | [] => throw .corrupt
  | (first, symbols) :: levels => do
    let b ← bit
    let word := 2 * word + b.toNat
    match if word < first then none else symbols[word - first]? with
    | some symbol => return symbol
    | none => symbolFrom word levels

/-- The symbol of the next word of a code. -/
def symbol (code : Code) : Reader Nat := symbolFrom 0 code.levels

/-! ### Blocks -/

/-- The lengths that the symbols from 257 on stand for, each with the number of bits to add. -/
def lengthTable : List (Nat × Nat) :=
  [(3, 0), (4, 0), (5, 0), (6, 0), (7, 0), (8, 0), (9, 0), (10, 0), (11, 1), (13, 1), (15, 1),
    (17, 1), (19, 2), (23, 2), (27, 2), (31, 2), (35, 3), (43, 3), (51, 3), (59, 3), (67, 4),
    (83, 4), (99, 4), (115, 4), (131, 5), (163, 5), (195, 5), (227, 5), (258, 0)]

/-- The distances that the symbols of the second code stand for, with the bits to add. -/
def distanceTable : List (Nat × Nat) :=
  [(1, 0), (2, 0), (3, 0), (4, 0), (5, 1), (7, 1), (9, 2), (13, 2), (17, 3), (25, 3), (33, 4),
    (49, 4), (65, 5), (97, 5), (129, 6), (193, 6), (257, 7), (385, 7), (513, 8), (769, 8),
    (1025, 9), (1537, 9), (2049, 10), (3073, 10), (4097, 11), (6145, 11), (8193, 12),
    (12289, 12), (16385, 13), (24577, 13)]

/-- The number that a symbol of a table stands for. -/
def extended (table : List (Nat × Nat)) (index : Nat) : Reader Nat := do
  match table[index]? with
  | none => throw .corrupt
  | some (base, width) => return base + (← number width)

/-- The symbols of a block up to its end, at most `limit` of them; every symbol takes a bit, so the
number of bits left is limit enough. -/
def symbols (literals distances : Code) : Nat → Reader Unit
  | 0 => throw .truncated
  | limit + 1 => do
    let found ← symbol literals
    if found < 256 then
      put (UInt8.ofNat found)
      symbols literals distances limit
    else if found = 256 then return ()
    else
      let length ← extended lengthTable (found - 257)
      let distance ← extended distanceTable (← symbol distances)
      copy distance length
      symbols literals distances limit

/-- The lengths of the words of the fixed code for literals. -/
def fixedLengths : List Nat :=
  List.replicate 144 8 ++ List.replicate 112 9 ++ List.replicate 24 7 ++ List.replicate 8 8

/-- A block under the fixed codes. -/
def fixedBlock : Reader Unit := do
  symbols (Code.ofLengths fixedLengths) (Code.ofLengths (List.replicate 30 5))
    ((← get).bits.length + 1)

/-- The order in which the lengths of the words for lengths are given. -/
def lengthOrder : List Nat := [16, 17, 18, 0, 8, 7, 9, 6, 10, 5, 11, 4, 12, 3, 13, 2, 14, 1, 15]

/-- So many lengths, after those in `known`.  Three symbols stand for a repetition, which may not
go beyond the number asked for. -/
def lengths (code : Code) (wanted : Nat) : Nat → List Nat → Reader (List Nat)
  | 0, _ => throw .corrupt
  | limit + 1, known => do
    if wanted ≤ known.length then
      if wanted < known.length then throw .corrupt
      return known
    let found ← symbol code
    if found < 16 then lengths code wanted limit (known ++ [found])
    else if found = 16 then
      match known.getLast? with
      | none => throw .corrupt
      | some last => lengths code wanted limit (known ++ List.replicate (3 + (← number 2)) last)
    else if found = 17 then
      lengths code wanted limit (known ++ List.replicate (3 + (← number 3)) 0)
    else lengths code wanted limit (known ++ List.replicate (11 + (← number 7)) 0)

/-- The lengths of a code for lengths, given in their own order. -/
def codeLengths : List Nat → List Nat → Reader (List Nat)
  | [], known => return known
  | place :: rest, known => do codeLengths rest (known.set place (← number 3))

/-- A block that begins with its codes. -/
def dynamicBlock : Reader Unit := do
  let literalCount := 257 + (← number 5)
  let distanceCount := 1 + (← number 5)
  let lengthCount := 4 + (← number 4)
  if 286 < literalCount ∨ 30 < distanceCount then throw .corrupt
  let own ← codeLengths (lengthOrder.take lengthCount) (List.replicate 19 0)
  unless isComplete own do throw .corrupt
  let wanted := literalCount + distanceCount
  let all ← lengths (Code.ofLengths own) wanted (wanted + 1) []
  let literals := all.take literalCount
  let distances := all.drop literalCount
  unless isUsable literals && isUsable distances do throw .corrupt
  symbols (Code.ofLengths literals) (Code.ofLengths distances) ((← get).bits.length + 1)

/-- Puts out so many bytes as they are. -/
def storedBytes : Nat → Reader Unit
  | 0 => return ()
  | count + 1 => do
    put (UInt8.ofNat (← number 8))
    storedBytes count

/-- A stored block; it begins at a whole byte, and its size is given twice. -/
def storedBlock : Reader Unit := do
  modify fun state => { state with bits := state.bits.drop (state.bits.length % 8) }
  let size ← number 16
  let complement ← number 16
  if size + complement ≠ 65535 then throw .corrupt
  storedBytes size

/-- The blocks of a stream, at most `limit` of them. -/
def blocks : Nat → Reader Unit
  | 0 => throw .truncated
  | limit + 1 => do
    let last ← bit
    match ← number 2 with
    | 0 => storedBlock
    | 1 => fixedBlock
    | 2 => dynamicBlock
    | _ => throw .corrupt
    if last then return () else blocks limit

/-- The output of a stream, why it stopped if it did not end, and the bytes after it. -/
def inflate (input : List UInt8) : Array UInt8 × Option Stop × List UInt8 :=
  let bits := input.flatMap bitsOf
  let (outcome, state) := (blocks (bits.length + 1)).run ⟨bits, #[]⟩
  let rest := input.drop (input.length - state.bits.length / 8)
  match outcome with
  | .ok () => (state.output, none, rest)
  | .error stop => (state.output, some stop, rest)

end Inflate

/-! ## Members -/

namespace Gzip

/-- Whether a file begins with the mark of the format. -/
def isMarked : List UInt8 → Bool
  | 0x1F :: 0x8B :: _ => true
  | _ => false

/-- The text after a terminating zero. -/
def afterZero : List UInt8 → Option (List UInt8)
  | [] => none
  | 0 :: rest => some rest
  | _ :: rest => afterZero rest

/-- The bytes after so many others, if there are so many. -/
def skipBytes (count : Nat) (bytes : List UInt8) : Option (List UInt8) :=
  if bytes.length < count then none else some (bytes.drop count)

/-- A number in bytes, the lowest first. -/
def littleEndian : List UInt8 → Nat
  | [] => 0
  | byte :: rest => byte.toNat + 256 * littleEndian rest

/-- The number in the first `width` bytes, and the bytes after it. -/
def number? (width : Nat) (bytes : List UInt8) : Option (Nat × List UInt8) :=
  if bytes.length < width then none else some (littleEndian (bytes.take width), bytes.drop width)

/-- The bytes after an optional part of a header, if the flag of the part is set. -/
def part (flags : UInt8) (flag : UInt8) (skip : List UInt8 → Option (List UInt8))
    (bytes : List UInt8) : Option (List UInt8) :=
  if flags &&& flag = 0 then some bytes else skip bytes

/-- The bytes after a header: its fixed fields, then the extra field, the name and the comment,
each if it is flagged, then the check sum of all these. -/
def afterHeader (file : List UInt8) : Option (List UInt8) := do
  match file with
  | 0x1F :: 0x8B :: 8 :: flags :: rest =>
    if flags &&& 0xE0 ≠ 0 then none
    else
      let rest ← skipBytes 6 rest
      let rest ← part flags 4 (fun bytes => do
        let (size, bytes) ← number? 2 bytes
        skipBytes size bytes) rest
      let rest ← part flags 8 afterZero rest
      let rest ← part flags 16 afterZero rest
      part flags 2 (fun bytes => do
        let (stored, after) ← number? 2 bytes
        let header := file.take (file.length - bytes.length)
        if (Crc32.checksum header).toNat % 65536 = stored then some after else none) rest
  | _ => none

/-- The size of a window of output. -/
def window : Nat := 32768

/-- The output of a file's first member as far as it can be read, and whether it is sound. -/
def read (file : List UInt8) : List UInt8 × Bool :=
  match afterHeader file with
  | none => ([], false)
  | some rest =>
    match Inflate.inflate rest with
    | (output, none, trailer) =>
      let bytes := output.toList
      let sound := (do
        let (sum, trailer) ← number? 4 trailer
        let (size, _) ← number? 4 trailer
        return sum = (Crc32.checksum bytes).toNat && size = bytes.length % 0x100000000).getD false
      (bytes, sound)
    | (output, some .truncated, _) => (output.toList, false)
    | (output, some .corrupt, _) => (output.toList.take (output.size / window * window), false)

end Gzip

end QuadStore
