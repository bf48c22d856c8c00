import QuadStore.Text

/-!
# Binary floating-point numbers of 64 bits

A number is kept as its 64-bit pattern.  Two things are asked of it: to be the double nearest to a
decimal text, ties going to the even significand, and to be ordered.

The order is the total order of the patterns, sign and magnitude: it extends the order of the
numbers, puts each not-a-number beyond the infinity of its sign, and tells the two zeros apart.

## Main definitions

* `Binary64.read?`: the double that a decimal text denotes.
* `Binary64.nearest`: the double nearest to a quotient of natural numbers.
* `Binary64.rank`: the place of a pattern in the total order.
-/

namespace QuadStore

/-- A double, as its bits. -/
structure Binary64 where
  bits : UInt64
  deriving DecidableEq, Repr

namespace Binary64

/-- The bit that makes a number negative. -/
def signBit : Nat := 0x8000000000000000

/-- The pattern of infinity, above every finite magnitude. -/
def infinityBits : Nat := 0x7FF0000000000000

/-- The pattern of the quiet not-a-number that texts denote. -/
def nanBits : Nat := 0x7FF8000000000000

/-- A magnitude below `2 ^ 63` with a sign. -/
def ofMagnitude (negative : Bool) (magnitude : Nat) : Binary64 :=
  ⟨UInt64.ofNat (if negative then signBit + magnitude else magnitude)⟩

/-- Positive zero. -/
def zero : Binary64 := ⟨0⟩

/-- Whether a pattern is one of the two zeros. -/
def isZero (x : Binary64) : Bool := x.bits.toNat % signBit == 0

/-- The same number, with zero taken as positive: a value must have one pattern. -/
def unsignedZero (x : Binary64) : Binary64 := if x.isZero then zero else x

/-- The pattern in hexadecimal digits. -/
def toHex (x : Binary64) : String := String.ofList (Text.lowerHex 16 x.bits.toNat)

/-- The double with a pattern in hexadecimal digits. -/
def ofHex? (text : String) : Option Binary64 :=
  (Text.hexNumber? 0 text.toList).map fun n => ⟨UInt64.ofNat n⟩

/-! ## Order -/

/-- The place in the total order: negative patterns in reverse, then the positive ones. -/
def rank (x : Binary64) : Nat :=
  if x.bits.toNat < signBit then signBit + x.bits.toNat else 0xFFFFFFFFFFFFFFFF - x.bits.toNat

instance : LE Binary64 := ⟨fun x y => x.rank ≤ y.rank⟩
instance : LT Binary64 := ⟨fun x y => x.rank < y.rank⟩
instance (x y : Binary64) : Decidable (x ≤ y) := inferInstanceAs (Decidable (x.rank ≤ y.rank))
instance (x y : Binary64) : Decidable (x < y) := inferInstanceAs (Decidable (x.rank < y.rank))

/-! ## Rounding -/

/-- The natural number nearest to `num / den`, a tie going to the even one. -/
def roundHalfEven (num den : Nat) : Nat :=
  let quotient := num / den
  let remainder := num % den
  if 2 * remainder < den then quotient
  else if den < 2 * remainder then quotient + 1
  else quotient + quotient % 2

/-- The exponent `e` with `2 ^ e ≤ num / den < 2 ^ (e + 1)`, of a positive quotient. -/
def binaryExponent (num den : Nat) : Int :=
  let guess : Int := (num.log2 : Int) - den.log2
  let reached := if 0 ≤ guess then den * Nat.pow 2 guess.toNat ≤ num
    else den ≤ num * Nat.pow 2 (-guess).toNat
  if reached then guess else guess - 1

/-- The exponent of the last place of a double near a number in `[2 ^ e, 2 ^ (e + 1))`. -/
def lastPlace (e : Int) : Int := max (e - 52) (-1074)

/-- The pattern of the double nearest to `num / den`, both positive.  A significand of 53 bits is
added to the exponent's field less one, so that a carry out of rounding moves to the next
exponent by itself; beyond the largest exponent everything is infinity. -/
def nearest (num den : Nat) : Nat :=
  let place := lastPlace (binaryExponent num den)
  let significand := if 0 ≤ place then roundHalfEven num (den * Nat.pow 2 place.toNat)
    else roundHalfEven (num * Nat.pow 2 (-place).toNat) den
  min infinityBits ((place + 1074).toNat * 0x10000000000000 + significand)

/-- The pattern of the double nearest to `significand * 10 ^ exponent`.  Far outside the range of
doubles the answer is known from the number of digits, without computing the power. -/
def nearestDecimal (significand : Nat) (exponent : Int) : Nat :=
  if significand = 0 then 0
  else
    let digits : Int := (Nat.toDigits 10 significand).length
    if 310 ≤ digits + exponent then infinityBits
    else if digits + exponent ≤ -324 then 0
    else if 0 ≤ exponent then nearest (significand * Nat.pow 10 exponent.toNat) 1
    else nearest significand (Nat.pow 10 (-exponent).toNat)

/-! ## Texts -/

/-- A character in lower case, for ASCII letters. -/
def lower (c : Char) : Char := if 'A' ≤ c ∧ c ≤ 'Z' then Char.ofNat (c.toNat + 32) else c

/-- The exponent after the digits: nothing, or a letter and a signed integer. -/
def exponent? : List Char → Option Int
  | [] => some 0
  | 'e' :: rest => Text.integer? rest
  | 'E' :: rest => Text.integer? rest
  | _ => none

/-- The magnitude of an unsigned decimal text: digits, at most one point among or around them, and
an optional exponent. -/
def decimalMagnitude? (text : List Char) : Option Nat :=
  let whole := text.takeWhile Text.isDigit
  let rest := text.dropWhile Text.isDigit
  let (fraction, rest) := match rest with
    | '.' :: after => (after.takeWhile Text.isDigit, after.dropWhile Text.isDigit)
    | _ => ([], rest)
  if whole.isEmpty && fraction.isEmpty then none
  else (exponent? rest).map fun exponent =>
    nearestDecimal (Text.decimalValue (whole ++ fraction)) (exponent - fraction.length)

/-- The magnitude of an unsigned text: a name of infinity or of not-a-number in any case, or a
decimal. -/
def magnitude? (text : List Char) : Option Nat :=
  let name := String.ofList (text.map lower)
  if name = "inf" ∨ name = "infinity" then some infinityBits
  else if name = "nan" then some nanBits
  else decimalMagnitude? text

/-- The double that a text denotes: an optional sign and a magnitude. -/
def read? : List Char → Option Binary64
  | '+' :: rest => (magnitude? rest).map (ofMagnitude false)
  | '-' :: rest => (magnitude? rest).map (ofMagnitude true)
  | text => (magnitude? text).map (ofMagnitude false)

end Binary64

end QuadStore
