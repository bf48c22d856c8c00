import QuadStore.Text

/-!
# Absolute IRIs

Whether a text is an absolute IRI by the grammar of internationalised resource identifiers: a
scheme, then an authority after two slashes or none, a path, a query and a fragment.  Every
character outside a small set has to be percent-encoded, and a percent sign needs two hexadecimal
digits after it.

## Main definitions

* `Iri.isAbsolute`.
* `Iri.isIpv6`, `Iri.isIpFuture`: the addresses that may stand in brackets as a host.
-/

namespace QuadStore.Iri

/-- Characters beyond ASCII that may stand anywhere in an IRI. -/
def isUnicodeChar (c : Char) : Bool :=
  let n := c.toNat
  (0xA0 ≤ n && n ≤ 0xD7FF) || (0xF900 ≤ n && n ≤ 0xFDCF) || (0xFDF0 ≤ n && n ≤ 0xFFEF) ||
    (0x10000 ≤ n && n ≤ 0xEFFFD && n % 0x10000 ≤ 0xFFFD && !(0xE0000 ≤ n && n < 0xE1000))

/-- Characters for private use, which may stand in a query. -/
def isPrivateChar (c : Char) : Bool :=
  let n := c.toNat
  (0xE000 ≤ n && n ≤ 0xF8FF) || (0xF0000 ≤ n && n ≤ 0xFFFFD) || (0x100000 ≤ n && n ≤ 0x10FFFD)

/-- The unreserved characters, and the reserved ones that only subdivide a part. -/
def isPlainChar (c : Char) : Bool :=
  Text.isLetterOrDigit c || "-._~!$&'()*+,;=".toList.contains c || isUnicodeChar c

/-- The characters of a user and a host. -/
def isAuthorityChar (c : Char) : Bool := isPlainChar c

/-- The characters of a path. -/
def isPathChar (c : Char) : Bool := isPlainChar c || c == '/' || c == ':' || c == '@'

/-- The characters of a fragment. -/
def isFragmentChar (c : Char) : Bool := isPathChar c || c == '?'

/-- The characters of a query. -/
def isQueryChar (c : Char) : Bool := isFragmentChar c || isPrivateChar c

/-- Whether a text has only characters of a class, and characters that are percent-encoded. -/
def encodedAll (keep : Char → Bool) : List Char → Bool
  | [] => true
  | '%' :: a :: b :: rest =>
    (Text.hexValue? a).isSome && (Text.hexValue? b).isSome && encodedAll keep rest
  | '%' :: _ => false
  | c :: rest => keep c && encodedAll keep rest

/-! ## Hosts -/

/-- One to four hexadecimal digits. -/
def isGroup (text : List Char) : Bool :=
  decide (1 ≤ text.length ∧ text.length ≤ 4) && text.all fun c => (Text.hexValue? c).isSome

/-- A decimal number up to 255 without leading zeros. -/
def isOctet (text : List Char) : Bool :=
  (Text.decimal? text).any fun n => n ≤ 255 && (text.length == 1 || text.head? != some '0')

/-- Four octets with points between them. -/
def isIpv4 (text : List Char) : Bool :=
  let octets := Text.splitAll '.' text
  octets.length == 4 && octets.all isOctet

/-- The number of 16-bit groups that a row of groups stands for; an address of four octets may be
the last and counts twice. -/
def groupCount? : List (List Char) → Option Nat
  | [] => some 0
  | [last] => if isGroup last then some 1 else if isIpv4 last then some 2 else none
  | group :: rest => if isGroup group then (groupCount? rest).map (· + 1) else none

/-- The groups of a side of an address, which may be empty. -/
def sideCount? (text : List Char) : Option Nat :=
  if text.isEmpty then some 0 else groupCount? (Text.splitAll ':' text)

/-- The texts around the first two colons that follow each other. -/
def splitGap : List Char → Option (List Char × List Char)
  | ':' :: ':' :: rest => some ([], rest)
  | c :: rest => (splitGap rest).map fun (before, after) => (c :: before, after)
  | [] => none

/-- Whether a side before the gap holds groups only. -/
def isGroupSide (text : List Char) : Bool :=
  text.isEmpty || (Text.splitAll ':' text).all isGroup

/-- An address of eight groups, or of fewer with a gap for the missing ones. -/
def isIpv6 (text : List Char) : Bool :=
  match splitGap text with
  | none => groupCount? (Text.splitAll ':' text) == some 8
  | some (before, after) =>
    isGroupSide before && match sideCount? before, sideCount? after with
      | some a, some b => a + b ≤ 7
      | _, _ => false

/-- An address of a later version: its number, a point, and the address. -/
def isIpFuture (text : List Char) : Bool :=
  match text with
  | v :: rest =>
    (v == 'v' || v == 'V') && match Text.splitOnce '.' rest with
      | none => false
      | some (version, address) =>
        !version.isEmpty && version.all (fun c => (Text.hexValue? c).isSome) && !address.isEmpty &&
          address.all fun c => isPlainChar c && c.toNat < 128 || c == ':'
  | [] => false

/-- Whether what follows a host is a colon and digits, possibly none, or nothing at all. -/
def isHostSuffix : List Char → Bool
  | [] => true
  | ':' :: digits => digits.all Text.isDigit
  | _ => false

/-- A host and what follows it. -/
def isHostPart : List Char → Bool
  | '[' :: rest =>
    match Text.splitOnce ']' rest with
    | none => false
    | some (address, suffix) => (isIpFuture address || isIpv6 address) && isHostSuffix suffix
  | text =>
    let host := text.takeWhile (· != ':')
    encodedAll isAuthorityChar host && isHostSuffix (text.dropWhile (· != ':'))

/-- A user, if there is one, and a host with what follows it. -/
def isAuthority (text : List Char) : Bool :=
  match Text.splitOnce '@' text with
  | some (user, host) => encodedAll (fun c => isAuthorityChar c || c == ':') user && isHostPart host
  | none => isHostPart text

/-! ## The whole -/

/-- The path, the query and the fragment. -/
def isPathAndRest (text : List Char) : Bool :=
  let path := text.takeWhile fun c => c != '?' && c != '#'
  let rest := text.dropWhile fun c => c != '?' && c != '#'
  encodedAll isPathChar path && match rest with
    | '?' :: rest =>
      encodedAll isQueryChar (rest.takeWhile (· != '#')) &&
        encodedAll isFragmentChar ((rest.dropWhile (· != '#')).drop 1)
    | _ => encodedAll isFragmentChar (rest.drop 1)

/-- What follows the scheme: an authority after two slashes or none, and the rest. -/
def isHierarchy : List Char → Bool
  | '/' :: '/' :: rest =>
    let ends (c : Char) : Bool := c == '/' || c == '?' || c == '#'
    isAuthority (rest.takeWhile (!ends ·)) && isPathAndRest (rest.dropWhile (!ends ·))
  | rest => isPathAndRest rest

/-- A letter and further letters, digits and three signs. -/
def isScheme : List Char → Bool
  | [] => false
  | c :: rest =>
    Text.isLetter c && rest.all fun c => Text.isLetterOrDigit c || c == '+' || c == '-' || c == '.'

/-- Whether a text is an absolute IRI. -/
def isAbsolute (text : List Char) : Bool :=
  match Text.splitOnce ':' text with
  | none => false
  | some (scheme, rest) => isScheme scheme && isHierarchy rest

end QuadStore.Iri
