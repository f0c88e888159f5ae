import Obliguard.Lib.Checks
import Obliguard.Server.EventAddresses

/-!
# The address of a client

`normalizeIp`, `compileTrustedProxies` and `resolveClient` of `server/src/utils/clientIp.ts`. The walk along
`X-Forwarded-For` ends at the first address that is not a trusted proxy, so that what stands left of it, which the
client wrote, is not read (`resolveClient_unforgeable`).
-/

namespace Obliguard.Server

open AddrText Checks IpValidation Numeral Text

/-! ## Spellings of addresses -/

/-- `/^\[([^\]]+)\](?::\d+)?$/`: the text between the brackets. -/
def bracketedHost : List Char → Option (List Char)
  | '[' :: s =>
    let host := s.takeWhile (· ≠ ']')
    let port := (s.dropWhile (· ≠ ']')).drop 1
    if ']' ∈ s ∧ host ≠ [] ∧ (port = [] ∨ port.head? = some ':' ∧ port ≠ [':'] ∧ (port.drop 1).all Char.isDigit) then
      some host
    else none
  | _ => none

/-- `/^(\d{1,3}(?:\.\d{1,3}){3}):\d+$/`: the text before the port. -/
def dottedHost (s : List Char) : Option (List Char) :=
  let host := s.takeWhile (· ≠ ':')
  let port := (s.dropWhile (· ≠ ':')).drop 1
  if (host.splitOn '.').length = 4 ∧
      (host.splitOn '.').all (fun g => 1 ≤ g.length && g.length ≤ 3 && g.all Char.isDigit) ∧
      port ≠ [] ∧ port.all Char.isDigit then some host
  else none

/-- `stripPort`. -/
def stripPort (s : List Char) : List Char :=
  match bracketedHost s with
  | some host => host
  | none => (dottedHost s).getD s

/-- `.replace(/^::ffff:(?=\d+\.\d+\.\d+\.\d+$)/i, '')`. -/
def stripMapped (s : List Char) : List Char :=
  let rest := s.drop 7
  if (s.take 7).map Char.toLower = "::ffff:".toList ∧ (rest.splitOn '.').length = 4 ∧
      (rest.splitOn '.').all (fun g => g ≠ [] && g.all Char.isDigit) then rest
  else s

/-- What `.` does not match. -/
def isLineTerminator (c : Char) : Bool := c == '\n' || c == '\r' || c.toNat == 0x2028 || c.toNat == 0x2029

/-- `.replace(/%.*$/, '')`. -/
def stripZone : List Char → List Char
  | [] => []
  | c :: s => if c = '%' ∧ s.all (fun d => !isLineTerminator d) then [] else c :: stripZone s

/-- `normalizeIp`. -/
def normalizeIp (raw : List Char) : List Char := stripZone (stripMapped (stripPort (jsTrim raw)))

/-! ## Trusted proxies -/

/-- An entry of Node's `BlockList`. -/
structure TrustRule where
  ip : List Char
  bits : Option Nat
  family : IpFamily

/-- What is read from Node and from the host: the subnets of the own interfaces, `toLowerCase`, and
`BlockList.check`. -/
structure ProxyHost where
  ownSubnets : List (List Char)
  toLowerCase : List Char → List Char
  check : List TrustRule → List Char → IpFamily → Bool

def KEYWORDS : List (List Char × List (List Char)) :=
  [("loopback".toList, ["127.0.0.0/8".toList, "::1/128".toList]),
    ("linklocal".toList, ["169.254.0.0/16".toList, "fe80::/10".toList]),
    ("uniquelocal".toList,
      ["10.0.0.0/8".toList, "172.16.0.0/12".toList, "192.168.0.0/16".toList, "fc00::/7".toList])]

/-- An entry with its keyword written out. -/
def expandEntry (host : ProxyHost) (e : List Char) : List (List Char) :=
  if e = "self".toList then host.ownSubnets else (KEYWORDS.lookup e).getD [e]

/-- The rule of an entry. -/
def trustRule (entry : List Char) : Except String TrustRule := do
  let ip := (entry.splitOn '/').headD []
  let family ← need (isIPZoned ip) ("TRUSTED_PROXIES: invalid entry \"" ++ String.ofList entry ++ "\"")
  match (entry.splitOn '/')[1]? with
  | none => return ⟨ip, none, family⟩
  | some bitsText =>
    refuseIf (!(1 ≤ bitsText.length && bitsText.length ≤ 3 && bitsText.all Char.isDigit) ||
        decide (ofDigits 10 bitsText > family.bits))
      ("TRUSTED_PROXIES: invalid prefix in \"" ++ String.ofList entry ++ "\"")
    return ⟨ip, some (ofDigits 10 bitsText), family⟩

/-- `compileTrustedProxies`. -/
def compileTrustedProxies (host : ProxyHost) (spec : List Char) : Except String (List Char → Bool) := do
  let entries := ((spec.splitOn ',').map fun e => host.toLowerCase (jsTrim e)).filter (· ≠ [])
  let rules ← (entries.flatMap (expandEntry host)).mapM trustRule
  return fun addr =>
    match isIPZoned (normalizeIp addr) with
    | none => false
    | some family => host.check rules (normalizeIp addr) family

/-! ## The walk -/

/-- The header `X-Forwarded-For` of a request. -/
inductive ForwardedFor
  | absent
  | text (s : List Char)
  | lines (ls : List (List Char))

def ForwardedFor.header : ForwardedFor → List Char
  | absent => []
  | text s => s
  | lines ls => [','].intercalate ls

/-- The addresses of a header, without the empty ones. -/
def hopsOf (header : List Char) : List (List Char) := ((header.splitOn ',').map normalizeIp).filter (· ≠ [])

/-- Where the walk stands; the closest hop is the first. -/
structure ProxyWalk where
  current : List Char
  hops : List (List Char)
  consumed : Nat
  malformed : Bool

/-- The loop, along the hops from the closest one on. -/
def walkHops (trusted : List Char → Bool) (maxHops : Nat) (current : List Char) (consumed : Nat) :
    List (List Char) → ProxyWalk
  | [] => ⟨current, [], consumed, false⟩
  | next :: hops =>
    if current ≠ [] ∧ trusted current ∧ consumed < maxHops then
      if (isIPZoned next).isNone then ⟨current, hops, consumed + 1, true⟩
      else walkHops trusted maxHops next (consumed + 1) hops
    else ⟨current, next :: hops, consumed, false⟩

structure ResolvedClient where
  ip : List Char
  relay : Bool
  untrustedForwarder : Bool
deriving DecidableEq

/-- `resolveClient`; `nonPublic` is `NON_PUBLIC`. -/
def resolveClient (nonPublic trusted : List Char → Bool) (maxHops : Nat) (socketAddress : Option (List Char))
    (forwardedFor : ForwardedFor) : ResolvedClient :=
  let w := walkHops trusted maxHops (normalizeIp (socketAddress.getD [])) 0 (hopsOf forwardedFor.header).reverse
  let forwarded := w.malformed || !w.hops.isEmpty
  if w.current = [] ∨ trusted w.current then ⟨w.current, true, false⟩
  else
    let relay := forwarded && nonPublic w.current
    ⟨w.current, relay, relay && decide (w.consumed < maxHops)⟩

/-! ## What a proxy writes -/

/-- An address as a proxy writes it, bare or with a port. -/
inductive HopText : List Char → Prop
  | bare {s : List Char} (h : (isIPZoned s).isSome) : HopText s
  | dottedPort {s port : List Char} (h : (parseV4 s).isSome) (hport : port ≠ [] ∧ ∀ c ∈ port, c.isDigit) :
      HopText (s ++ ':' :: port)
  | bracketed {s : List Char} (h : isIPZoned s = some .v6) : HopText ('[' :: (s ++ [']']))
  | bracketedPort {s port : List Char} (h : isIPZoned s = some .v6) (hport : port ≠ [] ∧ ∀ c ∈ port, c.isDigit) :
      HopText ('[' :: (s ++ ']' :: ':' :: port))

/-! ## Bare addresses -/

section bare
variable {s : List Char}

theorem isIPZoned_spec {f : IpFamily} (h : isIPZoned s = some f) :
    (∃ v, parseV4 s = some v) ∨ (∃ v, parseV6 s = some v) ∨
      ∃ w zone v, s = w ++ '%' :: zone ∧ parseV6 w = some v ∧ ∀ c ∈ zone, isZoneChar c = true := by
  rw [isIPZoned] at h
  split at h
  · rename_i f' hip
    rw [isIP] at hip
    split at hip
    · rename_i h4
      exact .inl (Option.isSome_iff_exists.mp h4)
    · split at hip
      · rename_i h6
        exact .inr (.inl (Option.isSome_iff_exists.mp h6))
      · contradiction
  · split at h
    · rename_i c z zone hdrop
      split at h
      · rename_i hzone
        obtain ⟨hchars, h6⟩ := Bool.and_eq_true_iff.mp hzone
        obtain ⟨v, hv⟩ := Option.isSome_iff_exists.mp h6
        have hsplit := List.takeWhile_append_dropWhile (p := fun d => decide (d ≠ '%')) (l := s)
        have hc : c = '%' := by
          have hhead := List.head?_dropWhile_not (fun d => decide (d ≠ '%')) s
          rw [hdrop] at hhead
          simpa using hhead
        rw [hdrop, hc] at hsplit
        exact .inr (.inr ⟨_, _, v, hsplit.symm, hv, List.all_eq_true.mp hchars⟩)
      · contradiction
    · contradiction

theorem isIPZoned_of_parseV4 {v : Nat} (h : parseV4 s = some v) : isIPZoned s = some .v4 := by
  rw [isIPZoned, isIP, h]
  rfl

theorem isIPZoned_of_parseV6 {v : Nat} (h : parseV6 s = some v) : isIPZoned s = some .v6 := by
  have h4 : parseV4 s = none := by
    cases h4 : parseV4 s with
    | none => rfl
    | some w =>
      rw [parseV6_of_parseV4 h4] at h
      contradiction
  rw [isIPZoned, isIP, h4, h]
  rfl

theorem isZoneChar_of_isAddrChar {c : Char} (h : IsAddrChar c) : isZoneChar c = true := by
  rcases h with rfl | rfl | h
  · decide
  · decide
  · rw [isZoneChar, isAlphanum_of_isDigit h]
    rfl

theorem isIPZoned_chars (h : (isIPZoned s).isSome) : ∀ c ∈ s, isZoneChar c = true ∨ c = '%' := by
  obtain ⟨f, hf⟩ := Option.isSome_iff_exists.mp h
  intro c hc
  rcases isIPZoned_spec hf with ⟨v, hv⟩ | ⟨v, hv⟩ | ⟨w, zone, v, rfl, hv, hzone⟩
  · exact .inl (isZoneChar_of_isAddrChar (parseV4_isAddrChar hv c hc))
  · exact .inl (isZoneChar_of_isAddrChar ((parseV6_spec hv).1 c hc))
  · rcases List.mem_append.mp hc with hc | hc
    · exact .inl (isZoneChar_of_isAddrChar ((parseV6_spec hv).1 c hc))
    · rcases List.mem_cons.mp hc with hc | hc
      · exact .inr hc
      · exact .inl (hzone c hc)

theorem not_mem_of_isIPZoned (h : (isIPZoned s).isSome) {c : Char} (hc : isZoneChar c = false) (hzone : c ≠ '%') :
    c ∉ s := by
  intro hmem
  rcases isIPZoned_chars h c hmem with hchar | hchar
  · rw [hchar] at hc
    contradiction
  · exact hzone hchar

theorem dottedHost_spec {host : List Char} (h : dottedHost s = some host) :
    ∃ port, s = host ++ ':' :: port ∧ ':' ∉ host ∧ '.' ∈ host ∧ ':' ∉ port ∧ '%' ∉ s := by
  rw [dottedHost] at h
  split at h
  · rename_i hcond
    obtain rfl := Option.some.inj h
    obtain ⟨hfour, hgroups, hport, hdigits⟩ := hcond
    have hsplit := List.takeWhile_append_dropWhile (p := fun d => decide (d ≠ ':')) (l := s)
    have hnot : ':' ∉ s.takeWhile (· ≠ ':') := fun hmem => by
      have := List.mem_takeWhile_imp hmem
      contradiction
    have hdot : '.' ∈ s.takeWhile (· ≠ ':') := by
      by_contra hdot
      rw [List.splitOn_eq_singleton hdot, List.length_singleton] at hfour
      contradiction
    have hhost : '%' ∉ s.takeWhile (· ≠ ':') := by
      intro hmem
      have hjoin : s.takeWhile (· ≠ ':') = ['.'].intercalate ((s.takeWhile (· ≠ ':')).splitOn '.') :=
        (List.intercalate_splitOn '.').symm
      rw [hjoin] at hmem
      rcases mem_intercalate_singleton hmem with heq | ⟨g, hg, hmem⟩
      · contradiction
      · have hall := List.all_eq_true.mp hgroups g hg
        have := List.all_eq_true.mp (Bool.and_eq_true_iff.mp hall).2 '%' hmem
        contradiction
    cases hrest : s.dropWhile (· ≠ ':') with
    | nil =>
      rw [hrest] at hport
      contradiction
    | cons c port =>
      have hc : c = ':' := by
        have hhead := List.head?_dropWhile_not (fun d => decide (d ≠ ':')) s
        rw [hrest] at hhead
        simpa using hhead
      rw [hrest, List.drop_one, List.tail_cons] at hdigits
      rw [hrest, hc] at hsplit
      have hcolon : ':' ∉ port := fun hmem => by
        have := List.all_eq_true.mp hdigits ':' hmem
        contradiction
      have hpercent : '%' ∉ port := fun hmem => by
        have := List.all_eq_true.mp hdigits '%' hmem
        contradiction
      refine ⟨port, hsplit.symm, hnot, hdot, hcolon, ?_⟩
      rw [← hsplit, List.mem_append, List.mem_cons]
      rintro (hmem | hmem | hmem)
      · exact hhost hmem
      · contradiction
      · exact hpercent hmem
  · contradiction

theorem parseV6_dotted_colon {host port : List Char} (hhost : ':' ∉ host) (hdot : '.' ∈ host) (hport : ':' ∉ port) :
    parseV6 (host ++ ':' :: port) = none := by
  have hdouble : splitDouble (host ++ ':' :: port) = none := by
    rw [splitDouble_append hhost]
    cases port with
    | nil => rfl
    | cons c port =>
      have hc : c ≠ ':' := fun heq => hport (heq ▸ List.mem_cons_self)
      rw [splitDouble, if_neg (fun h => hc h.2), splitDouble_of_not_mem hport]
      rfl
  have hne : host ++ ':' :: port ≠ [] := by simp
  rw [parseV6, hdouble]
  dsimp only
  rw [fields, if_neg hne, List.splitOn_append_cons_self_of_not_mem hhost, List.splitOn_eq_singleton hport, fieldList,
    hextet_of_dot hdot]
  rfl

theorem dottedHost_eq_none (h : (isIPZoned s).isSome) : dottedHost s = none := by
  cases hhost : dottedHost s with
  | none => rfl
  | some host =>
    obtain ⟨port, rfl, hcolon, hdot, hport, hpercent⟩ := dottedHost_spec hhost
    obtain ⟨f, hf⟩ := Option.isSome_iff_exists.mp h
    rcases isIPZoned_spec hf with ⟨v, hv⟩ | ⟨v, hv⟩ | ⟨w, zone, v, heq, -, -⟩
    · exact absurd (List.mem_append_right _ List.mem_cons_self) (parseV4_no_colon hv)
    · rw [parseV6_dotted_colon hcolon hdot hport] at hv
      contradiction
    · rw [heq] at hpercent
      exact absurd (List.mem_append_right _ List.mem_cons_self) hpercent

theorem stripPort_bare (h : (isIPZoned s).isSome) : stripPort s = s := by
  have hbracket : bracketedHost s = none := by
    have hnot := not_mem_of_isIPZoned h (c := '[') (by decide) (by decide)
    rw [bracketedHost.eq_def]
    split
    · rename_i rest
      exact absurd List.mem_cons_self hnot
    · rfl
  rw [stripPort, hbracket, dottedHost_eq_none h]
  rfl

theorem stripMapped_cases (s : List Char) : stripMapped s = s ∨
    ∃ start, s = start ++ stripMapped s ∧ start.map Char.toLower = "::ffff:".toList ∧ '.' ∈ stripMapped s ∧
      ∀ c ∈ stripMapped s, c = '.' ∨ c.isDigit = true := by
  unfold stripMapped
  dsimp only
  split
  · rename_i h
    obtain ⟨hstart, hfour, hgroups⟩ := h
    refine .inr ⟨s.take 7, (List.take_append_drop 7 s).symm, hstart, ?_, fun c hc => ?_⟩
    · by_contra hdot
      rw [List.splitOn_eq_singleton hdot, List.length_singleton] at hfour
      contradiction
    · have hjoin : s.drop 7 = ['.'].intercalate ((s.drop 7).splitOn '.') := (List.intercalate_splitOn '.').symm
      rw [hjoin] at hc
      rcases mem_intercalate_singleton hc with heq | ⟨g, hg, hc⟩
      · exact .inl heq
      · have hall := List.all_eq_true.mp hgroups g hg
        exact .inr (List.all_eq_true.mp (Bool.and_eq_true_iff.mp hall).2 c hc)
  · exact .inl rfl

theorem colon_mem_of_mapped {start : List Char} (h : start.map Char.toLower = "::ffff:".toList) : ':' ∈ start := by
  have hmem : ':' ∈ start.map Char.toLower := by
    rw [h]
    decide
  obtain ⟨c, hc, hlower⟩ := List.mem_map.mp hmem
  rw [toLower_eq_iff (.inl rfl)] at hlower
  exact hlower ▸ hc

theorem parseV4_of_mapped {start rest : List Char} {v : Nat} (hstart : start.map Char.toLower = "::ffff:".toList)
    (hdot : '.' ∈ rest) (hcolon : ':' ∉ rest) (h : parseV6 (start ++ rest) = some v) : ∃ u, parseV4 rest = some u := by
  rw [← parseV6_map_toLower, List.map_append, hstart] at h
  have hdot' : '.' ∈ rest.map Char.toLower := List.mem_map.mpr ⟨'.', hdot, by decide⟩
  have hcolon' : ':' ∉ rest.map Char.toLower := fun hmem => by
    obtain ⟨c, hc, heq⟩ := List.mem_map.mp hmem
    rw [toLower_eq_iff (.inl rfl)] at heq
    exact hcolon (heq ▸ hc)
  have hdouble : splitDouble ("::ffff:".toList ++ rest.map Char.toLower) =
      some ([], "ffff:".toList ++ rest.map Char.toLower) := rfl
  rw [parseV6, hdouble] at h
  dsimp only at h
  rw [show fields false [] = some [] from rfl, Option.bind_some, fields_ffff hdot' hcolon', parseV4_map_toLower] at h
  cases h4 : parseV4 rest with
  | some u => exact ⟨u, rfl⟩
  | none =>
    rw [h4] at h
    contradiction

theorem not_lineTerminator {c : Char} (h : isZoneChar c = true) : isLineTerminator c = false := by
  cases hline : isLineTerminator c with
  | false => rfl
  | true =>
    have hofNat : Char.ofNat c.toNat = c := Char.ofNat_toNat c
    simp only [isLineTerminator, Bool.or_eq_true, beq_iff_eq] at hline
    rcases hline with ((rfl | rfl) | hcode) | hcode
    · contradiction
    · contradiction
    · rw [hcode] at hofNat
      rw [← hofNat] at h
      contradiction
    · rw [hcode] at hofNat
      rw [← hofNat] at h
      contradiction

theorem stripZone_of_not_mem (h : '%' ∉ s) : stripZone s = s := by
  induction s with
  | nil => rfl
  | cons c s ih =>
    have hc : c ≠ '%' := fun heq => h (heq ▸ List.mem_cons_self)
    rw [stripZone, if_neg (fun hzone => hc hzone.1), ih fun hmem => h (List.mem_cons_of_mem c hmem)]

theorem stripZone_append (h : '%' ∉ s) {zone : List Char} (hzone : ∀ c ∈ zone, isZoneChar c = true) :
    stripZone (s ++ '%' :: zone) = s := by
  induction s with
  | nil =>
    have hall : zone.all (fun d => !isLineTerminator d) = true := by
      rw [List.all_eq_true]
      intro c hc
      rw [not_lineTerminator (hzone c hc)]
      rfl
    rw [List.nil_append, stripZone, if_pos ⟨rfl, hall⟩]
  | cons c s ih =>
    have hc : c ≠ '%' := fun heq => h (heq ▸ List.mem_cons_self)
    rw [List.cons_append, stripZone, if_neg (fun hzone => hc hzone.1),
      ih fun hmem => h (List.mem_cons_of_mem c hmem)]

theorem percent_not_mem_v6 {w : List Char} {v : Nat} (h : parseV6 w = some v) : '%' ∉ w := fun hmem =>
  not_isAddrChar (.inr rfl) ((parseV6_spec h).1 '%' hmem)

theorem isIPZoned_strip (h : (isIPZoned s).isSome) : (isIPZoned (stripZone (stripMapped s))).isSome := by
  obtain ⟨f, hf⟩ := Option.isSome_iff_exists.mp h
  rcases stripMapped_cases s with hsame | ⟨start, hsplit, hstart, hdot, hchars⟩
  · rw [hsame]
    rcases isIPZoned_spec hf with ⟨v, hv⟩ | ⟨v, hv⟩ | ⟨w, zone, v, rfl, hv, hzone⟩
    · have hpercent : '%' ∉ s := fun hmem =>
        not_isAddrChar (.inr rfl) (parseV4_isAddrChar hv '%' hmem)
      rw [stripZone_of_not_mem hpercent, hf]
      rfl
    · rw [stripZone_of_not_mem (percent_not_mem_v6 hv), hf]
      rfl
    · rw [stripZone_append (percent_not_mem_v6 hv) hzone, isIPZoned_of_parseV6 hv]
      rfl
  · -- only a mapped address of its own loses the prefix
    generalize stripMapped s = rest at *
    have hnot : ∀ c, c ≠ '.' → c.isDigit = false → c ∉ rest := by
      intro c hc hdigit hmem
      rcases hchars c hmem with heq | heq
      · exact hc heq
      · rw [hdigit] at heq
        contradiction
    have hcolon : ':' ∉ rest := hnot ':' (by decide) (by decide)
    have hpercent : '%' ∉ rest := hnot '%' (by decide) (by decide)
    rw [stripZone_of_not_mem hpercent]
    rw [hsplit] at hf
    rcases isIPZoned_spec hf with ⟨v, hv⟩ | ⟨v, hv⟩ | ⟨w, zone, v, heq, -, -⟩
    · exact absurd (List.mem_append_left _ (colon_mem_of_mapped hstart)) (parseV4_no_colon hv)
    · obtain ⟨u, hu⟩ := parseV4_of_mapped hstart hdot hcolon hv
      rw [isIPZoned_of_parseV4 hu]
      rfl
    · have hmem : '%' ∈ start ++ rest := by
        rw [heq]
        exact List.mem_append_right _ List.mem_cons_self
      rcases List.mem_append.mp hmem with hmem | hmem
      · have hlower : Char.toLower '%' ∈ start.map Char.toLower := List.mem_map_of_mem hmem
        rw [hstart] at hlower
        exact absurd hlower (by decide)
      · exact absurd hmem hpercent

end bare

/-! ## Addresses that a proxy writes -/

/-- A character of an address with its zone, brackets and port. -/
def isHopChar (c : Char) : Bool := isZoneChar c || c == '%' || c == '[' || c == ']'

theorem isDigit_of_digit10 {c : Char} (h : isDigit 10 c = true) : c.isDigit = true := by
  obtain ⟨d, hd, hlt⟩ := isDigit_iff.mp h
  rw [digitVal] at hd
  split at hd
  · rename_i hc
    delta Char.isDigit
    exact Bool.and_eq_true_iff.mpr ⟨decide_eq_true hc.1, decide_eq_true hc.2⟩
  · split at hd
    · rename_i hc
      have hlow : 97 ≤ c.toNat := hc.1
      have heq := Option.some.inj hd
      omega
    · split at hd
      · rename_i hc
        have hlow : 65 ≤ c.toNat := hc.1
        have heq := Option.some.inj hd
        omega
      · contradiction

theorem isHopChar_of_isDigit {c : Char} (h : c.isDigit = true) : isHopChar c = true := by
  have halphanum : c.isAlphanum = true := by
    delta Char.isAlphanum
    rw [h, Bool.or_true]
  rw [isHopChar, isZoneChar, halphanum]
  rfl

theorem isHopChar_of_isIPZoned {s : List Char} (h : (isIPZoned s).isSome) : ∀ c ∈ s, isHopChar c = true := by
  intro c hc
  rcases isIPZoned_chars h c hc with hzone | rfl
  · rw [isHopChar, hzone]
    rfl
  · decide

theorem isZoneChar_code {c : Char} (h : isZoneChar c = true) : 0x21 ≤ c.toNat ∧ c.toNat < 0x7f := by
  rw [isZoneChar, Bool.or_eq_true, Bool.or_eq_true, Bool.or_eq_true] at h
  rcases h with ((h | h) | h) | h
  · delta Char.isAlphanum Char.isAlpha Char.isUpper Char.isLower Char.isDigit at h
    simp only [Bool.or_eq_true, Bool.and_eq_true, decide_eq_true_eq, ge_iff_le] at h
    rcases h with (⟨hlow, hhigh⟩ | ⟨hlow, hhigh⟩) | ⟨hlow, hhigh⟩
    · have hlow : 65 ≤ c.toNat := hlow
      have hhigh : c.toNat ≤ 90 := hhigh
      omega
    · have hlow : 97 ≤ c.toNat := hlow
      have hhigh : c.toNat ≤ 122 := hhigh
      omega
    · have hlow : 48 ≤ c.toNat := hlow
      have hhigh : c.toNat ≤ 57 := hhigh
      omega
  · rw [eq_of_beq h]
    decide
  · rw [eq_of_beq h]
    decide
  · rw [eq_of_beq h]
    decide

theorem isHopChar_spec {c : Char} (h : isHopChar c = true) : c ≠ ',' ∧ isJsSpace c = false := by
  have hcode : 0x21 ≤ c.toNat ∧ c.toNat < 0x7f := by
    rw [isHopChar, Bool.or_eq_true, Bool.or_eq_true, Bool.or_eq_true] at h
    rcases h with ((h | h) | h) | h
    · exact isZoneChar_code h
    · rw [eq_of_beq h]
      decide
    · rw [eq_of_beq h]
      decide
    · rw [eq_of_beq h]
      decide
  have hall : ∀ n < 0x7f, 0x21 ≤ n → (sharedSpace n || n == 0xfeff) = false := by decide
  refine ⟨?_, hall c.toNat hcode.2 hcode.1⟩
  rintro rfl
  contradiction

theorem takeWhile_ne {c : Char} {s : List Char} (h : c ∉ s) (t : List Char) :
    (s ++ c :: t).takeWhile (· ≠ c) = s ∧ (s ++ c :: t).dropWhile (· ≠ c) = c :: t := by
  have hall : ∀ d ∈ s, decide (d ≠ c) = true := fun d hd => decide_eq_true fun heq => h (heq ▸ hd)
  have hnot : ¬ decide (c ≠ c) = true := by simp
  constructor
  · rw [List.takeWhile_append_of_pos hall, List.takeWhile_cons, if_neg hnot, List.append_nil]
  · rw [List.dropWhile_append_of_pos hall, List.dropWhile_cons, if_neg hnot]

theorem HopText.chars {s : List Char} (h : HopText s) : ∀ c ∈ s, isHopChar c = true := by
  intro c hc
  cases h with
  | bare h => exact isHopChar_of_isIPZoned h c hc
  | @dottedPort s port h hport =>
    obtain ⟨v, hv⟩ := Option.isSome_iff_exists.mp h
    rcases List.mem_append.mp hc with hc | hc
    · refine isHopChar_of_isIPZoned ?_ c hc
      rw [isIPZoned_of_parseV4 hv]
      rfl
    · rcases List.mem_cons.mp hc with rfl | hc
      · decide
      · exact isHopChar_of_isDigit (hport.2 c hc)
  | @bracketed s h =>
    rcases List.mem_cons.mp hc with rfl | hc
    · decide
    · rcases List.mem_append.mp hc with hc | hc
      · exact isHopChar_of_isIPZoned (by rw [h]; rfl) c hc
      · rw [List.mem_singleton.mp hc]
        decide
  | @bracketedPort s port h hport =>
    rcases List.mem_cons.mp hc with rfl | hc
    · decide
    · rcases List.mem_append.mp hc with hc | hc
      · exact isHopChar_of_isIPZoned (by rw [h]; rfl) c hc
      · rcases List.mem_cons.mp hc with rfl | hc
        · decide
        · rcases List.mem_cons.mp hc with rfl | hc
          · decide
          · exact isHopChar_of_isDigit (hport.2 c hc)

theorem stripPort_dotted {s port : List Char} {v : Nat} (h : parseV4 s = some v) (hne : port ≠ [])
    (hport : ∀ c ∈ port, c.isDigit = true) : stripPort (s ++ ':' :: port) = s := by
  have hbare : (isIPZoned s).isSome := by
    rw [isIPZoned_of_parseV4 h]
    rfl
  have hbracket : bracketedHost (s ++ ':' :: port) = none := by
    have hnot := not_mem_of_isIPZoned hbare (c := '[') (by decide) (by decide)
    cases s with
    | nil => rfl
    | cons c s =>
      have hc : c ≠ '[' := fun heq => hnot (heq ▸ List.mem_cons_self)
      rw [List.cons_append, bracketedHost.eq_def]
      split
      · rename_i heq
        exact absurd (List.cons.inj heq).1 hc
      · rfl
  obtain ⟨htake, hdrop⟩ := takeWhile_ne (parseV4_no_colon h) port
  rw [stripPort, hbracket]
  rw [parseV4] at h
  split at h
  · rename_i hfour
    obtain ⟨ns, hns, -⟩ := Option.map_eq_some_iff.mp h
    have hgroups : (s.splitOn '.').all (fun g => 1 ≤ g.length && g.length ≤ 3 && g.all Char.isDigit) = true := by
      rw [List.all_eq_true]
      intro g hg
      have hoctet := mapM_isSome_iff.mp (Option.isSome_of_eq_some hns) g hg
      rw [octet] at hoctet
      split at hoctet
      · rename_i hshort
        obtain ⟨hshort, -⟩ := hshort
        simp only [isShortDecimal, Bool.and_eq_true, List.all_eq_true] at hshort ⊢
        exact ⟨hshort.1.1, fun c hc => isDigit_of_digit10 (hshort.1.2 c hc)⟩
      · contradiction
    have hhost : dottedHost (s ++ ':' :: port) = some s := by
      rw [dottedHost, htake, hdrop, List.drop_one, List.tail_cons,
        if_pos ⟨hfour, hgroups, hne, List.all_eq_true.mpr hport⟩]
    rw [hhost]
    rfl
  · contradiction

theorem stripPort_bracketed {s port : List Char} (h : isIPZoned s = some .v6)
    (hport : port = [] ∨ ∃ p, port = ':' :: p ∧ p ≠ [] ∧ ∀ c ∈ p, c.isDigit = true) :
    stripPort ('[' :: (s ++ ']' :: port)) = s := by
  have hbare : (isIPZoned s).isSome := by
    rw [h]
    rfl
  have hnot := not_mem_of_isIPZoned hbare (c := ']') (by decide) (by decide)
  have hne : s ≠ [] := by
    rintro rfl
    contradiction
  obtain ⟨htake, hdrop⟩ := takeWhile_ne hnot port
  have hmem : ']' ∈ s ++ ']' :: port := List.mem_append_right _ List.mem_cons_self
  have hhost : bracketedHost ('[' :: (s ++ ']' :: port)) = some s := by
    rw [bracketedHost, htake, hdrop, List.drop_one, List.tail_cons, if_pos]
    refine ⟨hmem, hne, ?_⟩
    rcases hport with rfl | ⟨p, rfl, hp, hdigits⟩
    · exact .inl rfl
    · exact .inr ⟨rfl, fun heq => hp (List.cons.inj heq).2, List.all_eq_true.mpr hdigits⟩
  rw [stripPort, hhost]

theorem HopText.host {s : List Char} (h : HopText s) :
    (isIPZoned (stripPort (jsTrim s))).isSome ∧ ∀ c ∈ stripPort (jsTrim s), c ∈ s := by
  have htrim : jsTrim s = s := trimBy_eq_self fun c hc => (isHopChar_spec (h.chars c hc)).2
  rw [htrim]
  cases h with
  | bare h =>
    rw [stripPort_bare h]
    exact ⟨h, fun c hc => hc⟩
  | dottedPort h hport =>
    obtain ⟨v, hv⟩ := Option.isSome_iff_exists.mp h
    rw [stripPort_dotted hv hport.1 hport.2, isIPZoned_of_parseV4 hv]
    exact ⟨rfl, fun c hc => List.mem_append_left _ hc⟩
  | bracketed h =>
    rw [stripPort_bracketed h (.inl rfl), h]
    exact ⟨rfl, fun c hc => List.mem_cons_of_mem _ (List.mem_append_left _ hc)⟩
  | bracketedPort h hport =>
    rw [stripPort_bracketed h (.inr ⟨_, rfl, hport⟩), h]
    exact ⟨rfl, fun c hc => List.mem_cons_of_mem _ (List.mem_append_left _ hc)⟩

/-- Normalised, an address is one that `isIP` accepts. -/
theorem HopText.isIP {s : List Char} (h : HopText s) : (isIPZoned (normalizeIp s)).isSome := isIPZoned_strip h.host.1

theorem HopText.normalizeIp_idem {s : List Char} (h : HopText s) (hzone : '%' ∉ s) :
    normalizeIp (normalizeIp s) = normalizeIp s := by
  obtain ⟨hbare, hmem⟩ := h.host
  have hnorm : ∀ {t : List Char}, (isIPZoned t).isSome → '%' ∉ t → normalizeIp t = stripZone (stripMapped t) := by
    intro t ht hpercent
    have htrim : jsTrim t = t := trimBy_eq_self fun c hc => (isHopChar_spec (isHopChar_of_isIPZoned ht c hc)).2
    rw [normalizeIp, htrim, stripPort_bare ht]
  generalize hb : stripPort (jsTrim s) = b at hbare hmem
  have hpercent : '%' ∉ b := fun h => hzone (hmem '%' h)
  have hs : normalizeIp s = stripZone (stripMapped b) := by rw [normalizeIp, hb]
  rcases stripMapped_cases b with hsame | ⟨start, hsplit, -, -, hchars⟩
  · rw [hs, hsame, stripZone_of_not_mem hpercent, hnorm hbare hpercent, hsame, stripZone_of_not_mem hpercent]
  · have hrest : '%' ∉ stripMapped b := fun h => hpercent (by rw [hsplit]; exact List.mem_append_right _ h)
    have hip := isIPZoned_strip hbare
    rw [stripZone_of_not_mem hrest] at hip
    rw [hs, stripZone_of_not_mem hrest, hnorm hip hrest]
    rcases stripMapped_cases (stripMapped b) with hsame | ⟨start', hsplit', hstart', -, -⟩
    · rw [hsame, stripZone_of_not_mem hrest]
    · -- no colon is left
      have hcolon : ':' ∈ stripMapped b := by
        rw [hsplit']
        exact List.mem_append_left _ (colon_mem_of_mapped hstart')
      rcases hchars ':' hcolon with h | h
      · contradiction
      · contradiction

/-- A predicate of `compileTrustedProxies` takes an address without a zone for what it is once normalised. -/
theorem compileTrustedProxies_normalizeIp {host : ProxyHost} {spec : List Char} {trusted : List Char → Bool}
    (h : compileTrustedProxies host spec = .ok trusted) {s : List Char} (hs : HopText s) (hzone : '%' ∉ s) :
    trusted (normalizeIp s) = trusted s := by
  simp only [compileTrustedProxies, Checks.bind_eq_ok] at h
  obtain ⟨rules, -, h⟩ := h
  rw [← Except.ok.inj h]
  dsimp only
  rw [hs.normalizeIp_idem hzone]

theorem HopText.ne_nil {s : List Char} (h : HopText s) : normalizeIp s ≠ [] := by
  intro hnil
  have hip := h.isIP
  rw [hnil] at hip
  contradiction

/-! ## Headers -/

theorem jsTrim_space (s : List Char) : jsTrim (' ' :: s) = jsTrim s := by
  rw [jsTrim, trimBy, List.dropWhile_cons_of_pos (by decide)]
  rfl

theorem normalizeIp_space (s : List Char) : normalizeIp (' ' :: s) = normalizeIp s := by
  rw [normalizeIp, jsTrim_space]
  rfl

theorem hopsOf_append (s t : List Char) : hopsOf (s ++ ',' :: t) = hopsOf s ++ hopsOf t := by
  rw [hopsOf, List.splitOn_append_cons_self, List.map_append, List.filter_append]
  rfl

theorem hopsOf_space (s : List Char) : hopsOf (' ' :: s) = hopsOf s := by
  rw [hopsOf, hopsOf, List.splitOn_cons_eq_if_modifyHead, if_neg (by decide)]
  cases hsplit : s.splitOn ',' with
  | nil => exact absurd hsplit (List.splitOn_ne_nil ',' s)
  | cons h t => rw [List.modifyHead_cons, List.map_cons, List.map_cons, normalizeIp_space]

theorem hopsOf_hopText {s : List Char} (h : HopText s) : hopsOf s = [normalizeIp s] := by
  have hcomma : ',' ∉ s := fun hmem => (isHopChar_spec (h.chars ',' hmem)).1 rfl
  rw [hopsOf, List.splitOn_eq_singleton hcomma, List.map_singleton, List.filter_singleton, decide_eq_true h.ne_nil]
  rfl

theorem hopsOf_comma (s t : List Char) : hopsOf (s ++ (", ".toList ++ t)) = hopsOf s ++ hopsOf t := by
  show hopsOf (s ++ ',' :: (' ' :: t)) = _
  rw [hopsOf_append, hopsOf_space]

theorem hopsOf_intercalate {sep : List Char} (hsep : sep = [','] ∨ sep = ", ".toList) (ls : List (List Char)) :
    hopsOf (sep.intercalate ls) = ls.flatMap hopsOf := by
  induction ls with
  | nil => rfl
  | cons l ls ih =>
    cases ls with
    | nil => rw [List.intercalate_singleton, List.flatMap_singleton]
    | cons l' ls =>
      rw [List.intercalate_cons_cons, List.append_assoc, List.flatMap_cons, ← ih]
      rcases hsep with rfl | rfl
      · exact hopsOf_append _ _
      · exact hopsOf_comma _ _

/-- The header, in one line or in several ones. -/
def ForwardedFor.Spells (fwd : ForwardedFor) (s : List Char) : Prop :=
  fwd = .text s ∨ ∃ ls, fwd = .lines ls ∧ (", ".toList).intercalate ls = s

theorem ForwardedFor.Spells.hopsOf {fwd : ForwardedFor} {s : List Char} (h : fwd.Spells s) :
    hopsOf fwd.header = Server.hopsOf s := by
  rcases h with rfl | ⟨ls, rfl, rfl⟩
  · rfl
  · rw [header, hopsOf_intercalate (.inl rfl), hopsOf_intercalate (.inr rfl)]

/-! ## The walk -/

/-- The walk goes through the trusted hops and ends at the first one that is not. -/
theorem walkHops_trusted {trusted : List Char → Bool} {maxHops : Nat} {proxies : List (List Char)}
    (hproxies : ∀ a ∈ proxies, a ≠ [] ∧ (isIPZoned a).isSome ∧ trusted a = true) {client : List Char}
    (hclient : (isIPZoned client).isSome) (huntrusted : trusted client = false) {current : List Char}
    (hne : current ≠ []) (hcurrent : trusted current = true) {consumed : Nat}
    (hhops : consumed + proxies.length < maxHops) (rest : List (List Char)) :
    (walkHops trusted maxHops current consumed (proxies ++ client :: rest)).current = client := by
  induction proxies generalizing current consumed with
  | nil =>
    rw [List.nil_append, walkHops, if_pos ⟨hne, hcurrent, hhops⟩,
      if_neg (Bool.eq_false_iff.mp (Option.isNone_eq_false_iff.mpr hclient))]
    cases rest with
    | nil => rfl
    | cons next rest => rw [walkHops, if_neg fun h => Bool.eq_false_iff.mp huntrusted h.2.1]
  | cons a proxies ih =>
    obtain ⟨⟨hne', hip, htrusted⟩, hproxies⟩ := List.forall_mem_cons.mp hproxies
    rw [List.length_cons] at hhops
    rw [List.cons_append, walkHops, if_pos ⟨hne, hcurrent, by omega⟩,
      if_neg (Bool.eq_false_iff.mp (Option.isNone_eq_false_iff.mpr hip))]
    exact ih hproxies hne' htrusted (by omega)

theorem resolveClient_ip (nonPublic trusted : List Char → Bool) (maxHops : Nat) (socket : Option (List Char))
    (fwd : ForwardedFor) : (resolveClient nonPublic trusted maxHops socket fwd).ip =
      (walkHops trusted maxHops (normalizeIp (socket.getD [])) 0 (hopsOf fwd.header).reverse).current := by
  rw [resolveClient]
  split
  · rfl
  · rfl

/-- What the client writes into the header does not change the address it is seen with; behind a socket that is no
trusted proxy the header is not read. -/
theorem resolveClient_unforgeable (nonPublic trusted : List Char → Bool) (maxHops : Nat) :
    (∀ (socket P client : List Char) (proxies : List (List Char)) (fwd : ForwardedFor),
      HopText socket → trusted (normalizeIp socket) = true →
      HopText client → trusted (normalizeIp client) = false →
      (∀ a ∈ proxies, HopText a ∧ trusted (normalizeIp a) = true) → proxies.length + 1 ≤ maxHops →
      fwd.Spells (P ++ (", ".toList ++ (", ".toList).intercalate (client :: proxies))) →
      (resolveClient nonPublic trusted maxHops (some socket) fwd).ip = normalizeIp client) ∧
    ∀ (socket : Option (List Char)) (fwd : ForwardedFor), trusted (normalizeIp (socket.getD [])) = false →
      (resolveClient nonPublic trusted maxHops socket fwd).ip = normalizeIp (socket.getD []) := by
  constructor
  · intro socket P client proxies fwd hsocket hcurrent hclient huntrusted hproxies hhops hfwd
    have hitems : (client :: proxies).flatMap hopsOf = (client :: proxies).map normalizeIp := by
      rw [← List.flatMap_pure_eq_map]
      refine List.flatMap_congr fun a ha => ?_
      rcases List.mem_cons.mp ha with rfl | ha
      · exact hopsOf_hopText hclient
      · exact hopsOf_hopText (hproxies a ha).1
    have hheader : (hopsOf fwd.header).reverse =
        (proxies.map normalizeIp).reverse ++ normalizeIp client :: (hopsOf P).reverse := by
      rw [hfwd.hopsOf, hopsOf_comma, hopsOf_intercalate (.inr rfl), hitems, List.map_cons, List.reverse_append,
        List.reverse_cons, List.append_assoc, List.singleton_append]
    rw [resolveClient_ip, hheader, Option.getD_some]
    refine walkHops_trusted (fun a ha => ?_) hclient.isIP huntrusted hsocket.ne_nil hcurrent ?_ _
    · obtain ⟨b, hb, rfl⟩ := List.mem_map.mp (List.mem_reverse.mp ha)
      obtain ⟨htext, htrusted⟩ := hproxies b hb
      exact ⟨htext.ne_nil, htext.isIP, htrusted⟩
    · rw [List.length_reverse, List.length_map]
      omega
  · intro socket fwd huntrusted
    rw [resolveClient_ip]
    cases (hopsOf fwd.header).reverse with
    | nil => rfl
    | cons next rest => rw [walkHops, if_neg fun h => Bool.eq_false_iff.mp huntrusted h.2.1]

/-- A proxy at the edge and the one in front of the server. -/
def edgeProxies (a : List Char) : Bool := ["172.18.0.1".toList, "172.18.0.2".toList].contains a

theorem resolveClient_unforgeable_edge :
    (resolveClient (fun _ => false) edgeProxies 2 (some "::ffff:172.18.0.2".toList)
      (.lines ["10.0.0.1".toList, "198.51.100.7:4711, 172.18.0.1".toList])).ip =
        normalizeIp "198.51.100.7:4711".toList ∧
    (resolveClient (fun _ => false) edgeProxies 2 (some "198.51.100.9".toList) (.text "10.0.0.1".toList)).ip =
      normalizeIp "198.51.100.9".toList := by
  obtain ⟨hforged, hdirect⟩ := resolveClient_unforgeable (fun _ => false) edgeProxies 2
  have hport : ∀ c ∈ "4711".toList, c.isDigit = true := List.all_eq_true.mp (by decide)
  have hclient : HopText "198.51.100.7:4711".toList :=
    @HopText.dottedPort "198.51.100.7".toList "4711".toList (by decide) ⟨by decide, hport⟩
  have hsocket : HopText "::ffff:172.18.0.2".toList := .bare (by decide)
  have hproxies : ∀ a ∈ ["172.18.0.1".toList], HopText a ∧ edgeProxies (normalizeIp a) = true := by
    intro a ha
    rw [List.mem_singleton.mp ha]
    exact ⟨.bare (by decide), by decide⟩
  exact ⟨hforged _ "10.0.0.1".toList _ _ _ hsocket (by decide) hclient (by decide) hproxies (by decide)
    (.inr ⟨_, rfl, by decide⟩), hdirect _ _ (by decide)⟩

end Obliguard.Server
