import Obliguard.Agent.BanEntry
import Obliguard.Agent.Strconv
import Obliguard.Base.FirewallRule
import Obliguard.Lib.Checks

/-!
# Rule requests in the agent

`validateFwAddRequest` of `agent/firewall_rules.go`. What the check accepts is the payload of a `CustomRule`
(`validateFwAddRequest_ok`), and each of these payloads comes out as it went in (`validateFwAddRequest_request`).
-/

namespace Obliguard.Agent

open Numeral AddrText Text Checks

/-! ## Validation -/

/-- The errors of the validation, with the value refused. -/
inductive FwError
  | name
  | reservedName
  | direction (value : String)
  | action (value : String)
  | protocol (value : String)
  | portSyntax (value : String)
  | port (value : String)
  | portRange (value : String)
  | portProtocol
  | remoteIP (value : String)
deriving DecidableEq

/-- The text of an error; `quote` is the verb `%q`. -/
def FwError.message (quote : String → String) : FwError → String
  | .name => "invalid name: 1-64 characters, letters, digits, space, _ . - only"
  | .reservedName => "invalid name: reserved"
  | .direction v => "invalid direction " ++ quote v ++ ": in or out"
  | .action v => "invalid action " ++ quote v ++ ": allow or block"
  | .protocol v => "invalid protocol " ++ quote v ++ ": tcp, udp, icmp or any"
  | .portSyntax v => "invalid port " ++ quote v ++ ": a number from 1 to 65535 or a range like 8000-8100"
  | .port v => "invalid port " ++ quote v
  | .portRange v => "invalid port range " ++ quote v
  | .portProtocol => "a port needs protocol tcp or udp"
  | .remoteIP v => "invalid remote IP " ++ quote v ++ ": an IP address or a CIDR network"

/-- `fwReservedName`, of a name in ASCII. -/
def fwReservedName (name : String) : Bool := reservedName ((goTrim name.toList).map Char.toLower)

def fwIsAny (s : String) : Bool :=
  let t := goTrim s.toList
  t = [] || t.map Char.toLower = "any".toList

def normalizeFwPort (s : String) : Except FwError String :=
  match portMatch '-' s.toList with
  | none => .error (.portSyntax s)
  | some (a, b) =>
    match checkPorts a b with
    | .error .port => .error (.port s)
    | .error .range => .error (.portRange s)
    | .ok t => .ok (String.ofList t)

/-- The address and the length of the text, as `netip` reads them. -/
def fwRemotePrefix (s : List Char) : Option NetipPrefix :=
  if '/' ∈ s then netipParsePrefix s
  else (netipParseAddr s).bind fun a => if a.zone ≠ [] then none else some ⟨a.addr, a.addr.family.bits, le_rfl⟩

/-- The canonical text, IPv4-mapped addresses as IPv4. -/
def fwRemoteText (p : NetipPrefix) : Option String :=
  if is4In6 p.addr ∧ p.bits < 96 then none
  else
    let addr := unmap p.addr
    let bits := if is4In6 p.addr then p.bits - 96 else p.bits
    if bits = addr.family.bits then some (String.ofList (addrString addr))
    else if h : bits ≤ addr.family.bits then some (String.ofList (prefixString (NetipPrefix.masked ⟨addr, bits, h⟩)))
    else none

def normalizeFwRemoteIP (s : String) : Except FwError String :=
  if 64 < byteLength s.toList ∨ s.toList.any fun c => c = ' ' || c = '\t' || c = '%' then .error (.remoteIP s)
  else need ((fwRemotePrefix s.toList).bind fwRemoteText) (.remoteIP s)

/-- A field with its check, empty for any. -/
def fwField (normalize : String → Except FwError String) (s : String) : Except FwError String :=
  if fwIsAny s then .ok "" else normalize s

def validateFwAddRequest (req : FwAddRequest) : Except FwError FwAddRequest := do
  refuseIf (req.name ≠ "" ∧ (!isRuleName req.name.toList ∨ goTrim req.name.toList ≠ req.name.toList)) .name
  refuseIf (req.name ≠ "" ∧ fwReservedName req.name) .reservedName
  refuseIf (req.direction ≠ "in" ∧ req.direction ≠ "out") (.direction req.direction)
  refuseIf (req.action ≠ "allow" ∧ req.action ≠ "block") (.action req.action)
  let protocol := if req.protocol = "" then "any" else req.protocol
  refuseIf (protocol ≠ "tcp" ∧ protocol ≠ "udp" ∧ protocol ≠ "icmp" ∧ protocol ≠ "any") (.protocol req.protocol)
  let localPort ← fwField normalizeFwPort req.localPort
  let remotePort ← fwField normalizeFwPort req.remotePort
  refuseIf ((localPort ≠ "" ∨ remotePort ≠ "") ∧ protocol ≠ "tcp" ∧ protocol ≠ "udp") .portProtocol
  let remoteIP ← fwField normalizeFwRemoteIP req.remoteIP
  return ⟨req.name, req.direction, req.action, protocol, localPort, remotePort, remoteIP⟩

/-! ### The fields -/

theorem byteLength_ascii {s : List Char} (h : ∀ c ∈ s, c.toNat < 128) : byteLength s = s.length := by
  induction s with
  | nil => rfl
  | cons c s ih =>
    obtain ⟨hc, hs⟩ := List.forall_mem_cons.mp h
    have hsize : c.utf8Size = 1 := by
      rw [Char.utf8Size_eq_one_iff]
      show c.toNat ≤ 127
      omega
    have htail := ih hs
    rw [byteLength] at htail ⊢
    rw [List.map_cons, List.sum_cons, List.length_cons, hsize, htail]
    omega

theorem normalizeFwPort_eq_ok {s t : String} : normalizeFwPort s = .ok t ↔
    ∃ r, PortRange.read '-' s.toList = some r ∧ t = r.text := by
  have hread : (∃ r, PortRange.read '-' s.toList = some r ∧ t = r.text) ↔
      (PortRange.read '-' s.toList).map PortRange.text = some t := by
    rw [Option.map_eq_some_iff]
    exact exists_congr fun r => and_congr_right fun _ => eq_comm
  rw [hread, PortRange.read_map_text, normalizeFwPort]
  cases portMatch '-' s.toList with
  | none => exact iff_of_false (fun h => by contradiction) fun h => by contradiction
  | some m =>
    obtain ⟨a, b⟩ := m
    rw [Option.bind_some]
    dsimp only
    cases checkPorts a b with
    | error fault => exact iff_of_false (fun h => by cases fault <;> contradiction) fun h => by contradiction
    | ok u =>
      rw [Except.ok.injEq]
      exact Option.some_inj.symm

theorem first_full {a : Addr} {bits : Nat} (hb : bits ≤ a.family.bits) (hfull : bits = a.family.bits) :
    (NetipPrefix.masked ⟨a, bits, hb⟩).first = a := by
  subst hfull
  obtain ⟨f, v, hv⟩ := a
  simp [NetipPrefix.masked, Net.first, Net.ofAddr]

theorem masked_text {a : Addr} {bits : Nat} (hb : bits ≤ a.family.bits) (h4 : is4In6 a = false) :
    (if bits = a.family.bits then addrString a else prefixString (NetipPrefix.masked ⟨a, bits, hb⟩)) =
      (NetipPrefix.masked ⟨a, bits, hb⟩).text := by
  have htarget : targetOf a bits hb = some (NetipPrefix.masked ⟨a, bits, hb⟩) := by
    rw [← unmap_masked a bits hb fun h => by rw [h4] at h; contradiction, dif_neg (Bool.eq_false_iff.mp h4)]
  have hnet := addrString_of_not_mapped (targetOf_not_mapped htarget)
  rw [Net.text]
  by_cases hfull : bits = a.family.bits
  · rw [if_pos hfull, if_pos (show (NetipPrefix.masked ⟨a, bits, hb⟩).IsHost from hfull), ← hnet, first_full hb hfull]
  · rw [if_neg hfull, if_neg (show ¬(NetipPrefix.masked ⟨a, bits, hb⟩).IsHost from hfull), prefixString, hnet]

theorem fwRemotePrefix_target (s : List Char) :
    ((fwRemotePrefix s).bind fun p => targetOf p.addr p.bits p.bits_le) = readTarget s := by
  rw [fwRemotePrefix]
  split
  · rename_i hs
    rw [← canonicalPrefix_eq hs, canonicalPrefix]
    refine congrArg _ (funext fun p => ?_)
    exact (unmap_masked p.addr p.bits p.bits_le _).symm
  · rename_i hs
    rw [← canonicalHost_eq hs, canonicalHost, Option.bind_assoc]
    refine congrArg _ (funext fun a => ?_)
    split
    · rfl
    · rw [hostPrefix_unmap]
      rfl

theorem fwRemoteText_eq (p : NetipPrefix) :
    fwRemoteText p = (targetOf p.addr p.bits p.bits_le).map fun n => String.ofList n.text := by
  obtain ⟨a, bits, hb⟩ := p
  rw [fwRemoteText]
  dsimp only
  by_cases h4 : is4In6 a = true
  · have hv6 : a.family = .v6 := by
      simp only [is4In6, Bool.and_eq_true, decide_eq_true_eq] at h4
      exact h4.1
    have hv4 : is4In6 (unmap a) = false := by
      rw [unmap, if_pos h4]
      rfl
    have hb' : bits - 96 ≤ (unmap a).family.bits := by
      rw [unmap, if_pos h4]
      exact a.mapped_len_le hb hv6
    rw [← unmap_masked a bits hb fun _ => hb', dif_pos h4]
    by_cases h96 : bits < 96
    · rw [if_pos ⟨h4, h96⟩, if_pos h96]
      rfl
    · rw [if_neg fun h => h96 h.2, if_neg h96, if_pos h4, dif_pos hb', Option.map_some, ← masked_text hb' hv4,
        apply_ite String.ofList, apply_ite some]
  · rw [← unmap_masked a bits hb fun h => absurd h h4, dif_neg h4, if_neg fun h => h4 h.1, if_neg h4, Option.map_some]
    rw [unmap, if_neg h4, dif_pos hb, ← masked_text hb (Bool.eq_false_iff.mpr h4), apply_ite String.ofList,
      apply_ite some]

theorem fwRemote_guard {s : List Char} {n : Net} (h : readTarget s = some n) :
    ¬(64 < byteLength s ∨ (s.any fun c => c = ' ' || c = '\t' || c = '%') = true) := by
  obtain ⟨hchars, hlen, -⟩ := readTarget_spec h
  rintro (hlong | hchar)
  · rw [byteLength_ascii fun c hc => (isTargetChar_lt (hchars c hc)).2] at hlong
    omega
  · obtain ⟨c, hc, hspecial⟩ := List.any_eq_true.mp hchar
    have hlo := (isTargetChar_lt (hchars c hc)).1
    simp only [Bool.or_eq_true, decide_eq_true_eq] at hspecial
    rcases hspecial with (rfl | rfl) | rfl
    · contradiction
    · contradiction
    · rcases hchars '%' hc with h | h
      · contradiction
      · exact not_isAddrChar (.inr rfl) h

theorem normalizeFwRemoteIP_eq_ok {s t : String} : normalizeFwRemoteIP s = .ok t ↔
    ∃ n, readTarget s.toList = some n ∧ t = String.ofList n.text := by
  have htext : (fwRemotePrefix s.toList).bind fwRemoteText =
      (readTarget s.toList).map fun n => String.ofList n.text := by
    rw [← fwRemotePrefix_target, Option.map_bind]
    exact congrArg _ (funext fwRemoteText_eq)
  rw [normalizeFwRemoteIP]
  split
  · rename_i hguard
    refine iff_of_false (fun h => by contradiction) ?_
    rintro ⟨n, hn, -⟩
    exact fwRemote_guard hn hguard
  · rw [need_eq_ok, htext, Option.map_eq_some_iff]
    exact exists_congr fun n => and_congr_right fun _ => eq_comm

/-! ### The request -/

/-- What a field says: nothing where it is any. -/
def fwRead {α : Type} (read : List Char → Option α) (s : String) : Option α :=
  if fwIsAny s then none else read s.toList

/-- The request says the rule. -/
structure Says (req : FwAddRequest) (t : CustomRule) : Prop where
  name : req.name = t.name
  direction : req.direction = t.direction.text
  action : req.action = t.action.text
  protocol : (if req.protocol = "" then "any" else req.protocol) = t.protocol.text
  localPort : t.localPort = fwRead (PortRange.read '-') req.localPort
  remotePort : t.remotePort = fwRead (PortRange.read '-') req.remotePort
  remoteIp : t.remoteIp = fwRead readTarget req.remoteIP

section field
variable {α : Type} {normalize : String → Except FwError String} {read : List Char → Option α} {text : α → String}
  (hnormalize : ∀ s t, normalize s = .ok t ↔ ∃ a, read s.toList = some a ∧ t = text a)

include hnormalize

theorem fwField_eq {s t : String} (h : fwField normalize s = .ok t) : t = (fwRead read s).elim "" text := by
  rw [fwField] at h
  rw [fwRead]
  split at h
  · rename_i hany
    rw [if_pos hany]
    exact (Except.ok.inj h).symm
  · rename_i hany
    obtain ⟨a, ha, rfl⟩ := (hnormalize s t).mp h
    rw [if_neg hany, ha]
    rfl

theorem fwField_text (o : Option α) (hany : ∀ a, fwIsAny (text a) = false)
    (hread : ∀ a ∈ o, read (text a).toList = some a) :
    fwField normalize (o.elim "" text) = .ok (o.elim "" text) := by
  cases o with
  | none => rfl
  | some a =>
    rw [Option.elim_some, fwField, if_neg (Bool.eq_false_iff.mp (hany a))]
    exact (hnormalize _ _).mpr ⟨a, hread a rfl, rfl⟩

end field

theorem toLower_eq_n {c : Char} (h : c.toLower = 'n') : c = 'n' ∨ c = 'N' := by
  delta Char.toLower at h
  split at h
  · rename_i hc
    have hval : c.val + ('a'.val - 'A'.val) = 'n'.val := congrArg Char.val h
    have hnat := congrArg UInt32.toNat hval
    have hlo : 65 ≤ c.val.toNat := hc.1
    have hhi : c.val.toNat ≤ 90 := hc.2
    have hshift : ('a'.val - 'A'.val).toNat = 32 := by decide
    have hn : ('n'.val).toNat = 110 := by decide
    have hN : ('N'.val).toNat = 78 := by decide
    rw [UInt32.toNat_add, hshift, hn] at hnat
    refine .inr (Char.ext (UInt32.toNat_inj.mp ?_))
    omega
  · exact .inl h

theorem fwIsAny_false {s : List Char} (hne : s ≠ []) (hspace : ∀ c ∈ s, isGoSpace c = false) (hn : 'n' ∉ s)
    (hN : 'N' ∉ s) : fwIsAny (String.ofList s) = false := by
  rw [fwIsAny, String.toList_ofList, goTrim, trimBy_eq_self hspace, Bool.or_eq_false_iff, decide_eq_false_iff_not,
    decide_eq_false_iff_not]
  refine ⟨hne, fun hany => ?_⟩
  have hmem : 'n' ∈ s.map Char.toLower := by
    rw [hany]
    decide
  obtain ⟨c, hc, hlower⟩ := List.mem_map.mp hmem
  rcases toLower_eq_n hlower with rfl | rfl
  · exact hn hc
  · exact hN hc

theorem fwIsAny_ports (r : PortRange) : fwIsAny r.text = false := by
  have hchars : ∀ c ∈ r.textWith '-', c = '-' ∨ isDigit 10 c = true := fun c hc => PortRange.mem_textWith hc
  refine fwIsAny_false (PortRange.textWith_ne_nil '-' r) (fun c hc => ?_) (fun hc => ?_) fun hc => ?_
  · rcases hchars c hc with rfl | hdigit
    · decide
    · exact (isTargetChar_not_space (.inr (.inr (.inr (isDigit_mono (by norm_num) hdigit))))).2
  · exact absurd (hchars 'n' hc) (by decide)
  · exact absurd (hchars 'N' hc) (by decide)

theorem fwIsAny_net {n : Net} (h : ¬n.IsMapped) : fwIsAny (String.ofList n.text) = false := by
  obtain ⟨hchars, -, hne⟩ := readTarget_spec (readTarget_text h)
  have hnot : ∀ c, isDigit 16 c = false → c ≠ '/' → c ≠ '.' → c ≠ ':' → c ∉ n.text := by
    intro c hdigit hslash hdot hcolon hc
    rcases hchars c hc with h | h | h | h
    · exact hslash h
    · exact hdot h
    · exact hcolon h
    · rw [hdigit] at h
      contradiction
  refine fwIsAny_false hne (fun c hc => (isTargetChar_not_space (hchars c hc)).2) ?_ ?_
  · exact hnot 'n' (by decide) (by decide) (by decide) (by decide)
  · exact hnot 'N' (by decide) (by decide) (by decide) (by decide)

theorem portField_eq {s t : String} (h : fwField normalizeFwPort s = .ok t) :
    t = portField (fwRead (PortRange.read '-') s) := fwField_eq (fun _ _ => normalizeFwPort_eq_ok) h

theorem netField_eq {s t : String} (h : fwField normalizeFwRemoteIP s = .ok t) :
    t = netField (fwRead readTarget s) := fwField_eq (fun _ _ => normalizeFwRemoteIP_eq_ok) h

theorem portField_ne {o : Option PortRange} : portField o ≠ "" ↔ o.isSome := by
  cases o with
  | none => exact iff_of_false (fun h => h rfl) (by decide)
  | some r =>
    refine iff_of_true (fun h => ?_) rfl
    have hnil : (PortRange.text r).toList = [] := by
      rw [show PortRange.text r = "" from h]
      rfl
    rw [PortRange.text, String.toList_ofList] at hnil
    exact PortRange.textWith_ne_nil '-' r hnil

theorem ruleNameOk_iff {name : String} : RuleNameOk name ↔
    decide (name ≠ "" ∧ (!isRuleName name.toList ∨ goTrim name.toList ≠ name.toList)) = false ∧
      decide (name ≠ "" ∧ fwReservedName name) = false := by
  rw [decide_eq_false_iff_not, decide_eq_false_iff_not, RuleNameOk]
  by_cases hempty : name = ""
  · exact iff_of_true (.inl hempty) ⟨fun h => h.1 hempty, fun h => h.1 hempty⟩
  · rw [or_iff_right hempty, and_iff_right hempty, and_iff_right hempty, not_or, not_not, Bool.not_eq_true',
      Bool.not_eq_false, and_assoc]
    refine and_congr_right fun _ => and_congr_right fun htrim => ?_
    rw [fwReservedName, htrim, Bool.not_eq_true]

theorem direction_text {s : String} :
    decide (s ≠ "in" ∧ s ≠ "out") = false ↔ ∃ d : RuleDirection, s = d.text := by
  rw [decide_eq_false_iff_not, not_and_or, not_not, not_not]
  constructor
  · rintro (rfl | rfl)
    · exact ⟨.incoming, rfl⟩
    · exact ⟨.outgoing, rfl⟩
  · rintro ⟨d, rfl⟩
    cases d with
    | incoming => exact .inl rfl
    | outgoing => exact .inr rfl

theorem action_text {s : String} : decide (s ≠ "allow" ∧ s ≠ "block") = false ↔ ∃ a : RuleVerdict, s = a.text := by
  rw [decide_eq_false_iff_not, not_and_or, not_not, not_not]
  constructor
  · rintro (rfl | rfl)
    · exact ⟨.allow, rfl⟩
    · exact ⟨.block, rfl⟩
  · rintro ⟨a, rfl⟩
    cases a with
    | allow => exact .inl rfl
    | block => exact .inr rfl

theorem protocol_text {s : String} : decide (s ≠ "tcp" ∧ s ≠ "udp" ∧ s ≠ "icmp" ∧ s ≠ "any") = false ↔
    ∃ p : RuleProtocol, s = p.text := by
  rw [decide_eq_false_iff_not, not_and_or, not_and_or, not_and_or, not_not, not_not, not_not, not_not]
  constructor
  · rintro (rfl | rfl | rfl | rfl)
    · exact ⟨.tcp, rfl⟩
    · exact ⟨.udp, rfl⟩
    · exact ⟨.icmp, rfl⟩
    · exact ⟨.any, rfl⟩
  · rintro ⟨p, rfl⟩
    cases p with
    | tcp => exact .inl rfl
    | udp => exact .inr (.inl rfl)
    | icmp => exact .inr (.inr (.inl rfl))
    | any => exact .inr (.inr (.inr rfl))

theorem hasPorts_text {p : RuleProtocol} : p.HasPorts ↔ ¬(p.text ≠ "tcp" ∧ p.text ≠ "udp") := by
  cases p with
  | tcp => decide
  | udp => decide
  | icmp => decide
  | any => decide

theorem validateFwAddRequest_ok {req out : FwAddRequest} (h : validateFwAddRequest req = .ok out) :
    ∃ t, Says req t ∧ t.request = out := by
  unfold validateFwAddRequest at h
  obtain ⟨_, hname, h⟩ := bind_eq_ok.mp h
  obtain ⟨_, hreserved, h⟩ := bind_eq_ok.mp h
  obtain ⟨_, hdirection, h⟩ := bind_eq_ok.mp h
  obtain ⟨_, haction, h⟩ := bind_eq_ok.mp h
  obtain ⟨_, hprotocol, h⟩ := bind_eq_ok.mp h
  obtain ⟨localPort, hlocal, h⟩ := bind_eq_ok.mp h
  obtain ⟨remotePort, hremote, h⟩ := bind_eq_ok.mp h
  obtain ⟨_, hports, h⟩ := bind_eq_ok.mp h
  obtain ⟨remoteIP, hip, h⟩ := bind_eq_ok.mp h
  obtain rfl := Except.ok.inj h
  obtain rfl := portField_eq hlocal
  obtain rfl := portField_eq hremote
  obtain rfl := netField_eq hip
  rw [refuseIf_eq_ok] at hname hreserved hdirection haction hprotocol hports
  obtain ⟨direction, hdirection⟩ := direction_text.mp hdirection
  obtain ⟨action, haction⟩ := action_text.mp haction
  obtain ⟨protocol, hprotocol⟩ := protocol_text.mp hprotocol
  have hportsOk : (fwRead (PortRange.read '-') req.localPort).isSome ∨
      (fwRead (PortRange.read '-') req.remotePort).isSome → protocol.HasPorts := by
    intro hsome
    rw [hprotocol, decide_eq_false_iff_not, portField_ne, portField_ne] at hports
    exact hasPorts_text.mpr fun hother => hports ⟨hsome, hother⟩
  have hunmapped : ∀ n ∈ fwRead readTarget req.remoteIP, ¬n.IsMapped := by
    intro n hn
    rw [fwRead] at hn
    split at hn
    · contradiction
    · exact readTarget_not_mapped hn
  refine ⟨⟨req.name, direction, action, protocol, fwRead (PortRange.read '-') req.localPort,
    fwRead (PortRange.read '-') req.remotePort, fwRead readTarget req.remoteIP,
    ruleNameOk_iff.mpr ⟨hname, hreserved⟩, hportsOk, hunmapped⟩,
    ⟨rfl, hdirection, haction, hprotocol, rfl, rfl, rfl⟩, ?_⟩
  rw [CustomRule.request, ← hdirection, ← haction, ← hprotocol]

theorem fwField_ports (o : Option PortRange) : fwField normalizeFwPort (portField o) = .ok (portField o) := by
  refine fwField_text (fun _ _ => normalizeFwPort_eq_ok) o fwIsAny_ports fun r _ => ?_
  rw [PortRange.text, String.toList_ofList]
  exact PortRange.read_textWith (by decide) r

theorem fwField_net {o : Option Net} (h : ∀ n ∈ o, ¬n.IsMapped) :
    fwField normalizeFwRemoteIP (netField o) = .ok (netField o) := by
  cases o with
  | none => rfl
  | some n =>
    rw [netField, Option.elim_some, fwField, if_neg (Bool.eq_false_iff.mp (fwIsAny_net (h n rfl)))]
    refine normalizeFwRemoteIP_eq_ok.mpr ⟨n, ?_, rfl⟩
    rw [String.toList_ofList, readTarget_text (h n rfl)]

/-- What is accepted is accepted again, and stays as it is. -/
theorem validateFwAddRequest_request (t : CustomRule) : validateFwAddRequest t.request = .ok t.request := by
  obtain ⟨hname, hreserved⟩ := ruleNameOk_iff.mp t.name_ok
  have hprotocol : (if t.protocol.text = "" then "any" else t.protocol.text) = t.protocol.text := by
    cases t.protocol with
    | tcp => rfl
    | udp => rfl
    | icmp => rfl
    | any => rfl
  have hports : decide ((portField t.localPort ≠ "" ∨ portField t.remotePort ≠ "") ∧
      t.protocol.text ≠ "tcp" ∧ t.protocol.text ≠ "udp") = false := by
    rw [decide_eq_false_iff_not, portField_ne, portField_ne]
    rintro ⟨hsome, hother⟩
    exact hasPorts_text.mp (t.ports_ok hsome) hother
  unfold validateFwAddRequest CustomRule.request
  refine bind_eq_ok.mpr ⟨(), refuseIf_eq_ok.mpr hname, bind_eq_ok.mpr ⟨(), refuseIf_eq_ok.mpr hreserved, ?_⟩⟩
  refine bind_eq_ok.mpr ⟨(), refuseIf_eq_ok.mpr (direction_text.mpr ⟨_, rfl⟩), ?_⟩
  refine bind_eq_ok.mpr ⟨(), refuseIf_eq_ok.mpr (action_text.mpr ⟨_, rfl⟩), ?_⟩
  dsimp only
  rw [hprotocol]
  refine bind_eq_ok.mpr ⟨(), refuseIf_eq_ok.mpr (protocol_text.mpr ⟨_, rfl⟩), ?_⟩
  refine bind_eq_ok.mpr ⟨_, fwField_ports _, bind_eq_ok.mpr ⟨_, fwField_ports _, ?_⟩⟩
  exact bind_eq_ok.mpr ⟨(), refuseIf_eq_ok.mpr hports, bind_eq_ok.mpr ⟨_, fwField_net t.unmapped, rfl⟩⟩

end Obliguard.Agent
