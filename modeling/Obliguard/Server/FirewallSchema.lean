import Obliguard.Base.FirewallRule
import Obliguard.Lib.Checks
import Obliguard.Server.BanSafety
import Obliguard.Server.BanTarget

/-!
# Rule requests on the server

`firewallAddSchema` and `toFirewallAddPayload` of `validators/firewall.schema.ts`. Of the issues of a request, the
first one is kept. What is sent to the agent is the payload of a `CustomRule` (`firewallAddSchema_rule`).
-/

namespace Obliguard.Server

open Numeral Text IpValidation Bans Checks

/-- A field of the body; `num` with what `String` makes of it, `other` with the name of its type. -/
inductive BodyField
  | absent
  | null
  | str (s : String)
  | num (text : String)
  | other (type : String)

structure FirewallBody where
  name : BodyField
  direction : BodyField
  action : BodyField
  protocol : BodyField
  localPort : BodyField
  remotePort : BodyField
  remoteIp : BodyField

/-! ## Fields -/

/-- `isReservedFirewallRuleName`, of a name in ASCII. -/
def isReservedFirewallRuleName (name : String) : Bool := reservedName ((jsTrim name.toList).map Char.toLower)

/-- `normalizeFirewallPort`. -/
def normalizeFirewallPort (raw : String) : Option String :=
  (portMatch '-' raw.toList).bind fun (a, b) => (checkPorts a b).toOption.map String.ofList

/-- `isAny`. -/
def BodyField.isAny : BodyField → Bool
  | .absent => true
  | .null => true
  | .str s => let t := jsTrim s.toList; t = [] || t.map Char.toLower = "any".toList
  | .num _ => false
  | .other _ => false

/-- `z.string()`. -/
def zodString : BodyField → Except String String
  | .absent => .error "Required"
  | .null => .error "Expected string, received null"
  | .str s => .ok s
  | .num _ => .error "Expected string, received number"
  | .other type => .error ("Expected string, received " ++ type)

/-- `z.string().max(length)`. -/
def zodStringMax (length : Nat) (v : BodyField) : Except String String := do
  let s ← zodString v
  refuseIf (length < utf16Length s.toList)
    ("String must contain at most " ++ String.ofList (Nat.toDigits 10 length) ++ " character(s)")
  return s

/-- `z.enum` with its message. -/
def zodEnum {α : Type} (values : List (String × α)) (message : String) (v : BodyField) : Except String α :=
  match v with
  | .str s => need (values.lookup s) message
  | _ => .error message

/-- `typeof v === 'number' ? String(v) : v`. -/
def BodyField.numberText : BodyField → BodyField
  | .num text => .str text
  | v => v

def optionalPort (v : BodyField) : Except String (Option String) :=
  if v.isAny then .ok none
  else do
    let s ← zodStringMax 11 v.numberText
    let p ← need (normalizeFirewallPort (String.ofList (jsTrim s.toList)))
      "Port must be a number from 1 to 65535 or a range like 8000-8100"
    return some p

/-- What `optionalRemoteIp` makes of an address. -/
structure RemoteIp where
  cidr : String
  family : IpFamily
  plen : Nat

def optionalRemoteIp (v : BodyField) : Except String (Option RemoteIp) :=
  if v.isAny then .ok none
  else do
    let s ← zodStringMax 64 v
    let p ← need (parseIpOrCidr s) "Remote IP must be an IP address or a CIDR network"
    let cidr := if p.plen = p.family.bits then p.address
      else String.ofList (p.address.toList ++ '/' :: Nat.toDigits 10 p.plen)
    return some ⟨cidr, p.family, p.plen⟩

def optionalName (v : BodyField) : Except String (Option String) :=
  match v with
  | .absent => .ok none
  | v => do
    let s ← zodString v
    if jsTrim s.toList = [] then return none
    else do
      refuseIf (!isRuleName s.toList) "Rule name: 1-64 characters, letters, digits, space, _ . - only"
      refuseIf (jsTrim s.toList ≠ s.toList) "Rule name must not start or end with a space"
      refuseIf (isReservedFirewallRuleName s) "Rule name is reserved"
      return some s

/-! ## The schema -/

structure FirewallAdd where
  name : Option String
  direction : RuleDirection
  action : RuleVerdict
  protocol : RuleProtocol
  localPort : Option String
  remotePort : Option String
  remoteIp : Option RemoteIp

/-- An issue: its path and its message. -/
abbrev Issue := String × String

/-- The issue of a field. -/
def onField {α : Type} (path : String) (result : Except String α) : Except Issue α :=
  match result with
  | .ok a => .ok a
  | .error message => .error (path, message)

/-- The network is broader than a block may be. -/
def blockTooBroad (env : SafetyEnv) (r : FirewallAdd) : Option RemoteIp :=
  if r.action = .block then r.remoteIp.filter fun ip => ip.plen < env.banPrefixFloor ip.family else none

/-- The message about such a network. -/
def tooBroadMessage (env : SafetyEnv) (ip : RemoteIp) : String :=
  "Network too broad for a block rule: the widest is /" ++
    String.ofList (Nat.toDigits 10 (env.banPrefixFloor ip.family)) ++ " for IPv" ++
    match ip.family with
    | .v4 => "4"
    | .v6 => "6"

def firewallAddSchema (env : SafetyEnv) (body : FirewallBody) : Except Issue FirewallAdd := do
  let name ← onField "name" (optionalName body.name)
  let direction ← onField "direction" (zodEnum [("in", .incoming), ("out", .outgoing)]
    "Direction must be 'in' or 'out'" body.direction)
  let action ← onField "action" (zodEnum [("allow", .allow), ("block", .block)]
    "Action must be 'allow' or 'block'" body.action)
  let protocol ← onField "protocol" (zodEnum [("tcp", .tcp), ("udp", .udp), ("icmp", .icmp), ("any", .any)]
    "Protocol must be tcp, udp, icmp or any" body.protocol)
  let localPort ← onField "localPort" (optionalPort body.localPort)
  let remotePort ← onField "remotePort" (optionalPort body.remotePort)
  let remoteIp ← onField "remoteIp" (optionalRemoteIp body.remoteIp)
  let r : FirewallAdd := ⟨name, direction, action, protocol, localPort, remotePort, remoteIp⟩
  refuseIf ((localPort.isSome ∨ remotePort.isSome) ∧ ¬protocol.HasPorts)
    (if localPort.isSome then "localPort" else "remotePort", "A port needs protocol tcp or udp")
  match blockTooBroad env r with
  | some ip => .error ("remoteIp", tooBroadMessage env ip)
  | none => return r

/-- `FirewallAddPayload`; a key that is missing is `none`. -/
structure FirewallAddPayload where
  name : Option String
  direction : String
  action : String
  protocol : String
  localPort : Option String
  remotePort : Option String
  remoteIp : Option String

def toFirewallAddPayload (r : FirewallAdd) : FirewallAddPayload where
  name := r.name
  direction := r.direction.text
  action := r.action.text
  protocol := r.protocol.text
  localPort := r.localPort
  remotePort := r.remotePort
  remoteIp := r.remoteIp.map (·.cidr)

/-- The payload as the agent decodes it. -/
def FirewallAddPayload.decode (p : FirewallAddPayload) : FwAddRequest where
  name := p.name.getD ""
  direction := p.direction
  action := p.action
  protocol := p.protocol
  localPort := p.localPort.getD ""
  remotePort := p.remotePort.getD ""
  remoteIP := p.remoteIp.getD ""

/-! ## What it accepts -/

theorem normalizeFirewallPort_eq (raw : String) :
    normalizeFirewallPort raw = (PortRange.read '-' raw.toList).map PortRange.text :=
  (PortRange.read_map_text raw.toList).symm

/-- The ports that a field names. -/
def BodyField.ports (v : BodyField) : Option PortRange :=
  if v.isAny then none
  else
    match v.numberText with
    | .str s => PortRange.read '-' (jsTrim s.toList)
    | _ => none

/-- The network that a field names. -/
def BodyField.net (v : BodyField) : Option Net :=
  if v.isAny then none
  else
    match v with
    | .str s => readTarget (jsTrim s.toList)
    | _ => none

/-- The name of a field. -/
def BodyField.ruleName : BodyField → String
  | .str s => if jsTrim s.toList = [] then "" else s
  | _ => ""

/-- The body asks for the rule. -/
structure Asks (body : FirewallBody) (t : CustomRule) : Prop where
  name : body.name.ruleName = t.name
  direction : body.direction = .str t.direction.text
  action : body.action = .str t.action.text
  protocol : body.protocol = .str t.protocol.text
  localPort : body.localPort.ports = t.localPort
  remotePort : body.remotePort.ports = t.remotePort
  remoteIp : body.remoteIp.net = t.remoteIp

theorem onField_eq_ok {α : Type} {path : String} {result : Except String α} {a : α} :
    onField path result = .ok a ↔ result = .ok a := by
  cases result with
  | error message => exact iff_of_false (fun h => by contradiction) fun h => by contradiction
  | ok b =>
    rw [onField, Except.ok.injEq, Except.ok.injEq]

theorem zodStringMax_ok {length : Nat} {v : BodyField} {s : String} (h : zodStringMax length v = .ok s) :
    v = .str s := by
  unfold zodStringMax at h
  obtain ⟨u, hu, h⟩ := Checks.bind_eq_ok.mp h
  obtain ⟨_, -, h⟩ := Checks.bind_eq_ok.mp h
  rw [← Except.ok.inj h]
  cases v with
  | str s => rw [Except.ok.inj hu]
  | absent => contradiction
  | null => contradiction
  | num text => contradiction
  | other type => contradiction

theorem optionalPort_ok {v : BodyField} {o : Option String} (h : optionalPort v = .ok o) :
    o = v.ports.map PortRange.text := by
  rw [optionalPort] at h
  rw [BodyField.ports]
  split at h
  · rename_i hany
    rw [if_pos hany, ← Except.ok.inj h]
    rfl
  · rename_i hany
    rw [if_neg hany]
    obtain ⟨s, hs, h⟩ := Checks.bind_eq_ok.mp h
    obtain ⟨p, hp, h⟩ := Checks.bind_eq_ok.mp h
    rw [need_eq_ok, normalizeFirewallPort_eq, String.toList_ofList] at hp
    rw [← Except.ok.inj h, ← hp, zodStringMax_ok hs]

theorem optionalRemoteIp_ok {v : BodyField} {o : Option RemoteIp} (h : optionalRemoteIp v = .ok o) :
    o = v.net.map fun n => ⟨String.ofList n.text, n.family, n.len⟩ := by
  rw [optionalRemoteIp] at h
  unfold BodyField.net
  split at h
  · rename_i hany
    rw [if_pos hany, ← Except.ok.inj h]
    rfl
  · rename_i hany
    rw [if_neg hany]
    obtain ⟨s, hs, h⟩ := Checks.bind_eq_ok.mp h
    obtain ⟨p, hp, h⟩ := Checks.bind_eq_ok.mp h
    obtain rfl := zodStringMax_ok hs
    rw [need_eq_ok, parseIpOrCidr_eq] at hp
    obtain ⟨n, hn, rfl⟩ := Option.map_eq_some_iff.mp hp
    have htext : (if (parsedOf n).plen = (parsedOf n).family.bits then (parsedOf n).address
        else String.ofList ((parsedOf n).address.toList ++ '/' :: Nat.toDigits 10 (parsedOf n).plen)) =
        String.ofList n.text := by
      rw [← targetText_parsedOf, targetText]
      cases hfamily : (parsedOf n).family with
      | v4 => rw [fullPrefix, hfamily]; rfl
      | v6 => rw [fullPrefix, hfamily]; rfl
    rw [← Except.ok.inj h, htext]
    show _ = (readTarget (jsTrim s.toList)).map _
    rw [hn]
    rfl

theorem BodyField.net_unmapped {v : BodyField} : ∀ n ∈ v.net, ¬n.IsMapped := by
  intro n hn
  unfold BodyField.net at hn
  split at hn
  · contradiction
  · split at hn
    · exact readTarget_not_mapped hn
    · contradiction

theorem isRuleName_char {name : List Char} (h : isRuleName name = true) :
    ∀ c ∈ name, c.toNat ≠ 0xfeff ∧ c.toNat ≠ 0x85 := by
  intro c hc
  have hlt : c.toNat < 128 := by
    simp only [isRuleName, Bool.and_eq_true, List.all_eq_true] at h
    have hchar := h.2 c hc
    simp only [Bool.or_eq_true, decide_eq_true_eq] at hchar
    rcases hchar with (((halnum | rfl) | rfl) | rfl) | rfl
    · delta Char.isAlphanum Char.isAlpha Char.isUpper Char.isLower Char.isDigit at halnum
      simp only [Bool.or_eq_true, Bool.and_eq_true, decide_eq_true_eq] at halnum
      rcases halnum with (h | h) | h
      · exact lt_of_le_of_lt (show c.toNat ≤ 90 from h.2) (by norm_num)
      · exact lt_of_le_of_lt (show c.toNat ≤ 122 from h.2) (by norm_num)
      · exact lt_of_le_of_lt (show c.toNat ≤ 57 from h.2) (by norm_num)
    · decide
    · decide
    · decide
    · decide
  omega

theorem optionalName_ok {v : BodyField} {o : Option String} (h : optionalName v = .ok o) :
    o.getD "" = v.ruleName ∧ RuleNameOk v.ruleName := by
  cases v with
  | absent =>
    rw [← Except.ok.inj h]
    exact ⟨rfl, .inl rfl⟩
  | str s =>
    unfold optionalName at h
    obtain ⟨_, hs, h⟩ := Checks.bind_eq_ok.mp h
    obtain rfl := Except.ok.inj hs
    rw [BodyField.ruleName]
    split at h
    · rename_i hblank
      rw [if_pos hblank, ← Except.ok.inj h]
      exact ⟨rfl, .inl rfl⟩
    · rename_i hblank
      obtain ⟨_, hname, h⟩ := Checks.bind_eq_ok.mp h
      obtain ⟨_, htrim, h⟩ := Checks.bind_eq_ok.mp h
      obtain ⟨_, hreserved, h⟩ := Checks.bind_eq_ok.mp h
      rw [refuseIf_eq_ok] at hname htrim hreserved
      rw [Bool.not_eq_false'] at hname
      have htrim := not_not.mp (of_decide_eq_false htrim)
      rw [if_neg hblank, ← Except.ok.inj h]
      refine ⟨rfl, .inr ⟨hname, ?_, ?_⟩⟩
      · rw [← jsTrim_eq_goTrim (isRuleName_char hname), htrim]
      · rwa [isReservedFirewallRuleName, htrim] at hreserved
  | null => contradiction
  | num text => contradiction
  | other type => contradiction

theorem zodEnum_ok {α : Type} {values : List (String × α)} {message : String} {v : BodyField} {a : α}
    (h : zodEnum values message v = .ok a) : ∃ s, v = .str s ∧ values.lookup s = some a := by
  cases v with
  | str s => exact ⟨s, rfl, need_eq_ok.mp h⟩
  | absent => contradiction
  | null => contradiction
  | num text => contradiction
  | other type => contradiction

theorem mem_of_lookup {α : Type} {values : List (String × α)} {s : String} {a : α} (h : values.lookup s = some a) :
    (s, a) ∈ values := by
  induction values with
  | nil => contradiction
  | cons kv rest ih =>
    obtain ⟨k, b⟩ := kv
    rw [List.lookup_cons] at h
    cases hk : s == k with
    | true =>
      rw [hk] at h
      rw [eq_of_beq hk, Option.some.inj h]
      exact List.mem_cons_self
    | false =>
      rw [hk] at h
      exact List.mem_cons_of_mem _ (ih h)

theorem zodEnum_text {α : Type} {values : List (String × α)} {message : String} {text : α → String} {v : BodyField}
    {a : α}
    (htext : ∀ e ∈ values, e.1 = text e.2) (h : zodEnum values message v = .ok a) : v = .str (text a) := by
  obtain ⟨s, rfl, hs⟩ := zodEnum_ok h
  exact congrArg BodyField.str (htext _ (mem_of_lookup hs))

/-- What is sent is the payload of the rule that the body asks for; a network that it blocks is no broader than the
floor. -/
theorem firewallAddSchema_rule {env : SafetyEnv} {body : FirewallBody} {r : FirewallAdd}
    (h : firewallAddSchema env body = .ok r) : ∃ t, Asks body t ∧ (toFirewallAddPayload r).decode = t.request ∧
      (t.action = .block → ∀ n ∈ t.remoteIp, env.banPrefixFloor n.family ≤ n.len) := by
  unfold firewallAddSchema at h
  obtain ⟨name, hname, h⟩ := Checks.bind_eq_ok.mp h
  obtain ⟨direction, hdirection, h⟩ := Checks.bind_eq_ok.mp h
  obtain ⟨action, haction, h⟩ := Checks.bind_eq_ok.mp h
  obtain ⟨protocol, hprotocol, h⟩ := Checks.bind_eq_ok.mp h
  obtain ⟨localPort, hlocal, h⟩ := Checks.bind_eq_ok.mp h
  obtain ⟨remotePort, hremote, h⟩ := Checks.bind_eq_ok.mp h
  obtain ⟨remoteIp, hip, h⟩ := Checks.bind_eq_ok.mp h
  obtain ⟨_, hports, h⟩ := Checks.bind_eq_ok.mp h
  rw [onField_eq_ok] at hname hdirection haction hprotocol hlocal hremote hip
  obtain rfl := optionalPort_ok hlocal
  obtain rfl := optionalPort_ok hremote
  obtain rfl := optionalRemoteIp_ok hip
  obtain ⟨hname, hnameOk⟩ := optionalName_ok hname
  obtain ⟨hr, hfloor⟩ : r = ⟨name, direction, action, protocol, body.localPort.ports.map PortRange.text,
      body.remotePort.ports.map PortRange.text,
      body.remoteIp.net.map fun n => ⟨String.ofList n.text, n.family, n.len⟩⟩ ∧ blockTooBroad env r = none := by
    split at h
    · contradiction
    · rename_i hnone
      obtain rfl := Except.ok.inj h
      exact ⟨rfl, hnone⟩
  have hportsOk : body.localPort.ports.isSome ∨ body.remotePort.ports.isSome → protocol.HasPorts := by
    intro hsome
    rw [refuseIf_eq_ok, decide_eq_false_iff_not, not_and, not_not, Option.isSome_map, Option.isSome_map] at hports
    exact hports hsome
  refine ⟨⟨body.name.ruleName, direction, action, protocol, body.localPort.ports, body.remotePort.ports,
    body.remoteIp.net, hnameOk, hportsOk, BodyField.net_unmapped⟩,
    ⟨rfl, zodEnum_text (by decide) hdirection, zodEnum_text (by decide) haction, zodEnum_text (by decide) hprotocol,
      rfl, rfl, rfl⟩, ?_, fun hblock n hn => ?_⟩
  rotate_left
  · dsimp only at hblock hn
    rw [hr, blockTooBroad, if_pos hblock, hn, Option.map_some, Option.filter_eq_none_iff] at hfloor
    have hnot := hfloor _ rfl
    rw [decide_eq_true_eq] at hnot
    exact Nat.le_of_not_lt hnot
  have hport : ∀ o : Option PortRange, (o.map PortRange.text).getD "" = portField o := by
    intro o
    cases o with
    | none => rfl
    | some p => rfl
  have hnet : ∀ o : Option Net, ((o.map fun n => (⟨String.ofList n.text, n.family, n.len⟩ : RemoteIp)).map
      (·.cidr)).getD "" = netField o := by
    intro o
    cases o with
    | none => rfl
    | some n => rfl
  rw [hr, toFirewallAddPayload, FirewallAddPayload.decode, CustomRule.request]
  dsimp only
  rw [hname, hport, hport, hnet]

end Obliguard.Server
