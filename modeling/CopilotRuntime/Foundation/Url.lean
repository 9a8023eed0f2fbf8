import CopilotRuntime.Foundation.Text

/-!
# URL splitting and percent decoding

These are the generic splitting and decoding functions that reference
validation is built on: five URL components, and repeated percent decoding
with invalid byte sequences replaced.
-/

namespace CopilotRuntime.Foundation

namespace Url

/-- The five components of a split URL. -/
structure Parts where
  scheme : String
  netloc : String
  path : String
  query : String
  fragment : String

def isSchemeChar (c : Char) : Bool :=
  Text.isAsciiAlnum c || c == '+' || c == '-' || c == '.'

/-- Control characters and blanks that are dropped in front of a URL. -/
def isControlOrSpace (c : Char) : Bool := c.val ≤ 32

/-- The characters before the first one satisfying `p`, and the rest from it on. -/
def cut (p : Char → Bool) (s : List Char) : List Char × List Char :=
  (s.takeWhile fun c => !p c, s.dropWhile fun c => !p c)

/-- Characters whose compatibility form contains one of the URL delimiters. -/
def expandsToDelimiter (c : Char) : Bool :=
  [0x2047, 0x2048, 0x2049, 0x2100, 0x2101, 0x2105, 0x2106, 0x2a74, 0xfe13, 0xfe16, 0xfe55,
    0xfe56, 0xfe5f, 0xfe6b, 0xff03, 0xff0f, 0xff1a, 0xff1f, 0xff20].contains c.toNat

def octet? (s : List Char) : Option Nat := do
  let n ← Text.decimal? s
  if s.length ≤ 3 && n ≤ 255 && (s.length == 1 || s.head? != some '0') then some n else none

/-- A dotted-quad address. -/
def isIpv4 (s : List Char) : Bool :=
  let parts := Text.splitChars '.' s
  parts.length == 4 && parts.all fun part => (octet? part).isSome

/-- Colon-separated hexadecimal groups with at most one elided run of zeros. -/
def isIpv6Groups (groups : List (List Char)) : Bool :=
  let inner := (groups.drop 1).dropLast
  let first := groups.head?.getD []
  let last := groups.getLast?.getD []
  let gaps := inner.countP List.isEmpty
  let wellFormed := groups.all fun g => g.all Text.isHex && g.length ≤ 4
  wellFormed && 3 ≤ groups.length && groups.length ≤ 9 &&
    if gaps == 0 then groups.length == 8 && !first.isEmpty && !last.isEmpty
    else
      gaps == 1 &&
        (!first.isEmpty || (inner.head?.getD ['0']).isEmpty) &&
        (!last.isEmpty || (inner.getLast?.getD ['0']).isEmpty) &&
        (groups.countP fun g => !g.isEmpty) ≤ 7

/-- An IPv6 address, possibly with a zone and an embedded dotted quad. -/
def isIpv6 (s : List Char) : Bool :=
  let (address, zone) := cut (· == '%') s
  let zoneOk := zone.isEmpty || (1 < zone.length && !(zone.drop 1).contains '%')
  let groups := Text.splitChars ':' address
  let last := groups.getLast?.getD []
  let expanded :=
    if last.contains '.' then
      if isIpv4 last then groups.dropLast ++ [['0'], ['0']] else [['x']]
    else groups
  zoneOk && !s.contains '/' && 3 ≤ groups.length && isIpv6Groups expanded

/-- A future address literal: a version and at least one further character. -/
def isIpvFuture (s : List Char) : Bool :=
  match s with
  | 'v' :: rest =>
      let (version, tail) := cut (· == '.') rest
      !version.isEmpty && version.all Text.isHex && 2 ≤ tail.length && !tail.contains '\n'
  | _ => false

/-- Bracketed hosts must be one address literal, followed at most by a port. -/
def bracketsOk (netloc : List Char) : Bool :=
  let hostport := (netloc.reverse.takeWhile (· != '@')).reverse
  let (before, bracketed) := cut (· == '[') hostport
  if bracketed.isEmpty then
    let host := (cut (· == ':') hostport).1
    if host.head? == some 'v' then isIpvFuture host else isIpv6 host
  else
    let (host, rest) := cut (· == ']') (bracketed.drop 1)
    before.isEmpty && (rest.length ≤ 1 || (rest.drop 1).head? == some ':') &&
      if host.head? == some 'v' then isIpvFuture host else isIpv6 host

/-- Split a URL into its components; malformed network locations are rejected. -/
def urlsplit (url : String) : Option Parts :=
  let cleaned := (url.toList.dropWhile isControlOrSpace).filter fun c =>
    c != '\t' && c != '\r' && c != '\n'
  let (before, after) := cut (· == ':') cleaned
  let hasScheme := !after.isEmpty && !before.isEmpty &&
    (before.head?.getD ' ').isAlpha && before.all isSchemeChar
  let scheme := if hasScheme then before.map Char.toLower else []
  let rest := if hasScheme then after.drop 1 else cleaned
  let (netloc, rest) :=
    if ['/', '/'].isPrefixOf rest then
      cut (fun c => c == '/' || c == '?' || c == '#') (rest.drop 2)
    else ([], rest)
  let opened := netloc.contains '['
  let closed := netloc.contains ']'
  if opened != closed || (opened && !bracketsOk netloc) || netloc.any expandsToDelimiter then
    none
  else
    let (rest, fragment) := cut (· == '#') rest
    let (path, query) := cut (· == '?') rest
    some {
      scheme := String.ofList scheme
      netloc := String.ofList netloc
      path := String.ofList path
      query := String.ofList (query.drop 1)
      fragment := String.ofList (fragment.drop 1) }

def hexValue (c : Char) : Nat :=
  if Text.isDigit c then c.toNat - '0'.toNat
  else if 'a' ≤ c && c ≤ 'f' then c.toNat - 'a'.toNat + 10
  else c.toNat - 'A'.toNat + 10

/-- Replace every complete percent escape by its byte; other characters stay. -/
def percentBytes : List Char → List (Char ⊕ Nat)
  | '%' :: a :: b :: rest =>
      if Text.isHex a && Text.isHex b then
        .inr (16 * hexValue a + hexValue b) :: percentBytes rest
      else .inl '%' :: percentBytes (a :: b :: rest)
  | c :: rest => .inl c :: percentBytes rest
  | [] => []

/-- An unfinished multi-byte character: the bits read so far, the number of
bytes still expected, and the range the next byte must lie in. -/
structure Pending where
  bits : Nat
  expected : Nat
  low : Nat
  high : Nat

/-- A lead byte announces how many continuation bytes follow. -/
def lead? (b : Nat) : Option Pending :=
  if 0xc2 ≤ b && b ≤ 0xdf then some ⟨b - 0xc0, 1, 0x80, 0xbf⟩
  else if b = 0xe0 then some ⟨0, 2, 0xa0, 0xbf⟩
  else if b = 0xed then some ⟨0xd, 2, 0x80, 0x9f⟩
  else if 0xe1 ≤ b && b ≤ 0xef then some ⟨b - 0xe0, 2, 0x80, 0xbf⟩
  else if b = 0xf0 then some ⟨0, 3, 0x90, 0xbf⟩
  else if 0xf1 ≤ b && b ≤ 0xf3 then some ⟨b - 0xf0, 3, 0x80, 0xbf⟩
  else if b = 0xf4 then some ⟨4, 3, 0x80, 0x8f⟩
  else none

def replacement : Char := Char.ofNat 0xfffd

/-- The output of one item outside a multi-byte character, and what it leaves pending. -/
def decodeFresh : Char ⊕ Nat → List Char × Option Pending
  | .inl c => ([c], none)
  | .inr b =>
      if b < 0x80 then ([Char.ofNat b], none)
      else match lead? b with
        | some pending => ([], some pending)
        | none => ([replacement], none)

/-- Decode bytes as UTF-8, replacing every maximal invalid part. -/
def decodeUtf8 : Option Pending → List (Char ⊕ Nat) → List Char
  | none, [] => []
  | some _, [] => [replacement]
  | none, item :: rest =>
      let (out, pending) := decodeFresh item
      out ++ decodeUtf8 pending rest
  | some p, item :: rest =>
      match item with
      | .inr b =>
          if p.low ≤ b && b ≤ p.high then
            let bits := 64 * p.bits + (b - 0x80)
            if p.expected = 1 then Char.ofNat bits :: decodeUtf8 none rest
            else decodeUtf8 (some ⟨bits, p.expected - 1, 0x80, 0xbf⟩) rest
          else
            let (out, pending) := decodeFresh item
            replacement :: out ++ decodeUtf8 pending rest
      | .inl c => replacement :: c :: decodeUtf8 none rest

/-- Percent decoding. Escapes of non-ASCII characters decode through their bytes. -/
def unquote (s : String) : String :=
  String.ofList (decodeUtf8 none (percentBytes s.toList))

/-- Decode at most `fuel` times, stopping at the first text that no longer changes. -/
def unquoteUpTo : Nat → String → String
  | 0, s => s
  | fuel + 1, s =>
      let next := unquote s
      if next = s then s else unquoteUpTo fuel next

/-- Decode until nothing changes. A decoding that changes the text shortens it,
so its length bounds the number of rounds. -/
def unquoteFully (s : String) : String := unquoteUpTo s.length s

end Url

end CopilotRuntime.Foundation
