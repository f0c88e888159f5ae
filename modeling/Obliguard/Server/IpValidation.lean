import Obliguard.Base.Net
import Obliguard.Lib.AddrText
import Obliguard.Lib.Text

/-!
# `server/src/utils/ipValidation.ts`

The server's strict parser of addresses and subnets, and its policy checks on ban targets. Texts
are processed as lists of characters; `bigint` values are natural numbers.

The converters between texts and numbers are written out as in the source; `Server.Converters`
compares them with the address grammar of `AddrText`.
-/

namespace Obliguard.IpValidation

open Numeral AddrText Text HighBits

/-- A canonical address with its family and prefix length. -/
structure ParsedCidr where
  address : String
  family : IpFamily
  plen : Nat
deriving DecidableEq, Repr

/-! ## Conversions -/

/-- `/^(0|[1-9][0-9]{0,2})$/`, the regular expression of `V4_OCTET_RE` and `PREFIX_RE`. -/
abbrev octetRe : List Char → Bool := isShortDecimal

def v4ToBigInt (s : List Char) : Option Nat :=
  let parts := s.splitOn '.'
  if parts.length ≠ 4 then none
  else parts.foldlM (fun v p =>
    if !octetRe p then none
    else
      let n := ofDigits 10 p
      if n > 255 then none else some ((v <<< 8) ||| n)) 0

/-- `/^[0-9a-f]{1,4}$/`. -/
def hextetRe (g : List Char) : Bool :=
  decide (1 ≤ g.length) && decide (g.length ≤ 4) &&
    g.all fun c => (decide ('0' ≤ c) && decide (c ≤ '9')) || (decide ('a' ≤ c) && decide (c ≤ 'f'))

/-- The text after the last colon. -/
def afterLastColon (s : List Char) : List Char := (s.reverse.takeWhile (· ≠ ':')).reverse

/-- The text up to and with the last colon. -/
def throughLastColon (s : List Char) : List Char := s.take (s.length - (afterLastColon s).length)

/-- A trailing dotted IPv4 fills the last two hextets. -/
def expandTail (s : List Char) : Option (List Char) :=
  let tail := afterLastColon s
  if '.' ∈ tail then
    (v4ToBigInt tail).map fun v4 =>
      throughLastColon s ++ Nat.toDigits 16 ((v4 >>> 16) &&& 0xffff) ++ [':'] ++
        Nat.toDigits 16 (v4 &&& 0xffff)
  else some s

/-- `s.split(':')`, an empty side of `::` having no groups. -/
def sideGroups (s : List Char) : List (List Char) := if s = [] then [] else s.splitOn ':'

/-- The groups of the text, the missing ones at `::` filled with zeros. -/
def v6Groups (s : List Char) : Option (List (List Char)) :=
  match splitDouble s with
  | some (leftS, rightS) =>
    let left := sideGroups leftS
    let right := sideGroups rightS
    if left.length + right.length ≥ 8 then none
    else some (left ++ List.replicate (8 - left.length - right.length) ['0'] ++ right)
  | none => some (s.splitOn ':')

def v6ToBigInt (raw : List Char) : Option Nat :=
  (expandTail (raw.map Char.toLower)).bind fun s => (v6Groups s).bind fun groups =>
    if groups.length ≠ 8 then none
    else groups.foldlM (fun v g =>
      if !hextetRe g then none else some ((v <<< 16) ||| ofDigits 16 g)) 0

def maskOf (family : IpFamily) (plen : Nat) : Nat :=
  if plen = 0 then 0 else ((1 <<< family.bits - 1) >>> (family.bits - plen)) <<< (family.bits - plen)

def renderV4 (v : Nat) : List Char :=
  List.intercalate ['.'] ([24, 16, 8, 0].map fun sh => Nat.toDigits 10 ((v >>> sh) &&& 0xff))

/-- The loop of `renderV6` over the groups from index `i` on, carrying `(bestStart, bestLen)`; each
turn skips one nonzero group or one run of zeros, so `fuel` turns are enough for as many groups. -/
def bestRun : (fuel i : Nat) → (best : Nat × Nat) → List Nat → Nat × Nat
  | 0, _, best, _ => best
  | _, _, best, [] => best
  | fuel + 1, i, best, g :: gs =>
    if g ≠ 0 then bestRun fuel (i + 1) best gs
    else
      let run := ((g :: gs).takeWhile (· == 0)).length
      bestRun fuel (i + run) (if run > best.2 then (i, run) else best)
        ((g :: gs).dropWhile (· == 0))

/-- RFC 5952: lowercase, no leading zeros, longest run (>= 2) of zero hextets as `::`, leftmost on
ties. -/
def renderV6 (v : Nat) : List Char :=
  let groups := [7, 6, 5, 4, 3, 2, 1, 0].map fun i => (v >>> (i * 16)) &&& 0xffff
  let best := bestRun groups.length 0 (0, 0) groups
  let hex := groups.map (Nat.toDigits 16)
  if best.2 < 2 then List.intercalate [':'] hex
  else List.intercalate [':'] (hex.take best.1) ++ [':', ':'] ++
    List.intercalate [':'] (hex.drop (best.1 + best.2))

def render (family : IpFamily) (v : Nat) : List Char :=
  match family with
  | .v4 => renderV4 v
  | .v6 => renderV6 v

def valueOf (p : ParsedCidr) : Nat :=
  (match p.family with
    | .v4 => v4ToBigInt p.address.toList
    | .v6 => v6ToBigInt p.address.toList).getD 0

/-! ## Parsing -/

/-- Node's `net.isIP` on a text without a zone: the address family of a valid address. -/
def isIP (s : List Char) : Option IpFamily :=
  if (parseV4 s).isSome then some .v4 else if (parseV6 s).isSome then some .v6 else none

/-- The prefix length given after `/`, the family's full length without one. -/
def readPrefix (family : IpFamily) : List (List Char) → Option Nat
  | [] => some family.bits
  | p :: _ =>
    if !octetRe p then none
    else
      let n := ofDigits 10 p
      if n > family.bits then none else some n

/-- IPv4-mapped IPv6 (`::ffff:a.b.c.d`) becomes plain IPv4. -/
def foldMapped (family : IpFamily) (value plen : Nat) : Option (IpFamily × Nat × Nat) :=
  if family = .v6 ∧ value >>> 32 = 0xffff then
    if plen < 96 then none else some (.v4, value &&& 0xffffffff, plen - 96)
  else some (family, value, plen)

/-- Strict IP or CIDR syntax (no policy). Canonical form, host bits masked; `none` when invalid. -/
def parseIpOrCidr (raw : String) : Option ParsedCidr :=
  let s := jsTrim raw.toList
  if s = [] ∨ utf16Length s > 64 ∨ s.any isJsSpace ∨ '%' ∈ s then none
  else
    match s.splitOn '/' with
    | [] => none
    | addr :: rest =>
      if rest.length > 1 then none
      else
        (isIP addr).bind fun fam =>
        (readPrefix fam rest).bind fun plen =>
        (match fam with | .v4 => v4ToBigInt addr | .v6 => v6ToBigInt addr).bind fun value =>
        (foldMapped fam value plen).map fun (family, value, plen) =>
          ⟨String.ofList (render family (value &&& maskOf family plen)), family, plen⟩

/-- True when both networks share at least one address (same family). -/
def cidrOverlaps (a b : ParsedCidr) : Bool :=
  if a.family ≠ b.family then false
  else
    let m := maskOf a.family (min a.plen b.plen)
    (valueOf a &&& m) == (valueOf b &&& m)

/-- True when `outer` contains the whole of `inner`. -/
def cidrContains (outer inner : ParsedCidr) : Bool :=
  decide (outer.plen ≤ inner.plen) && cidrOverlaps outer inner

end Obliguard.IpValidation
