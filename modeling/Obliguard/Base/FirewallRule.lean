import Obliguard.Base.Target
import Obliguard.Lib.Json

/-!
# Custom firewall rules

What the rule requests of the server and of the agents have in common: the ports, the names and the payload of
`firewall_add`. A `CustomRule` is a request that is valid, `CustomRule.request` the payload that says it, and
`CustomRule.Matches` what such a rule is for: the packets that it allows or blocks.
-/

namespace Obliguard

open Numeral AddrText Text

/-! ## Ports -/

/-- A port, or a range of them. -/
structure PortRange where
  lo : Nat
  hi : Nat
  pos : 0 < lo
  le : lo ≤ hi
  hi_le : hi ≤ 65535
deriving DecidableEq

/-- `[1-9][0-9]{0,4}`. -/
def isPort (p : List Char) : Bool :=
  decide (p ≠ []) && decide (p.length ≤ 5) && p.all (isDigit 10) && decide (p.head? ≠ some '0')

/-- The numbers of `N` or `A-B`, with the separator given. -/
def portMatch (sep : Char) (s : List Char) : Option (Nat × Option Nat) :=
  match s.splitOn sep with
  | [p] => if isPort p then some (ofDigits 10 p, none) else none
  | [p, q] => if isPort p && isPort q then some (ofDigits 10 p, some (ofDigits 10 q)) else none
  | _ => none

theorem eq_zero_of_digitVal {c : Char} (h : digitVal c = some 0) : c = '0' := by
  unfold digitVal at h
  split at h
  · rename_i hc
    have hlo : 48 ≤ c.toNat := hc.1
    have hval := Option.some.inj h
    rw [← Char.ofNat_toNat c, show c.toNat = 48 by omega]
  · split at h
    · rename_i hc
      have hlo : 97 ≤ c.toNat := hc.1
      have hval := Option.some.inj h
      omega
    · split at h
      · rename_i hc
        have hlo : 65 ≤ c.toNat := hc.1
        have hval := Option.some.inj h
        omega
      · contradiction

/-- Why the numbers of a text are refused. -/
inductive PortFault
  | port
  | range

/-- The checks of the numbers, and the text they leave. -/
def checkPorts (a : Nat) (b : Option Nat) : Except PortFault (List Char) :=
  if 65535 < a then .error .port
  else
    match b with
    | none => .ok (Nat.toDigits 10 a)
    | some b =>
      if 65535 < b ∨ b < a then .error .range
      else if a = b then .ok (Nat.toDigits 10 a)
      else .ok (Nat.toDigits 10 a ++ '-' :: Nat.toDigits 10 b)

namespace PortRange

def textWith (sep : Char) (r : PortRange) : List Char :=
  if r.lo = r.hi then Nat.toDigits 10 r.lo else Nat.toDigits 10 r.lo ++ sep :: Nat.toDigits 10 r.hi

/-- `N` or `A-B`. -/
def text (r : PortRange) : String := String.ofList (r.textWith '-')

def ofBounds (lo hi : Nat) : Option PortRange :=
  if h : 0 < lo ∧ lo ≤ hi ∧ hi ≤ 65535 then some ⟨lo, hi, h.1, h.2.1, h.2.2⟩ else none

/-- The range that a text names. -/
def read (sep : Char) (s : List Char) : Option PortRange :=
  (portMatch sep s).bind fun (lo, hi) => ofBounds lo (hi.getD lo)

instance : Membership Nat PortRange := ⟨fun r n => r.lo ≤ n ∧ n ≤ r.hi⟩

instance (n : Nat) (r : PortRange) : Decidable (n ∈ r) := inferInstanceAs (Decidable (_ ∧ _))

theorem ofBounds_self (r : PortRange) : ofBounds r.lo r.hi = some r := dif_pos ⟨r.pos, r.le, r.hi_le⟩

theorem ofBounds_eq_some {lo hi : Nat} {r : PortRange} : ofBounds lo hi = some r ↔ r.lo = lo ∧ r.hi = hi := by
  constructor
  · intro h
    rw [ofBounds] at h
    split at h
    · rw [← Option.some.inj h]
      exact ⟨rfl, rfl⟩
    · contradiction
  · rintro ⟨rfl, rfl⟩
    exact ofBounds_self r

theorem isPort_toDigits {n : Nat} (hpos : 0 < n) (hle : n ≤ 65535) : isPort (Nat.toDigits 10 n) = true := by
  have hlen : (Nat.toDigits 10 n).length ≤ 5 :=
    (Nat.length_toDigits_le_iff (by norm_num) (by norm_num)).mpr (by omega)
  have hdigits : ∀ c ∈ Nat.toDigits 10 n, isDigit 10 c = true := fun c hc =>
    isDigit_of_mem_toDigits (by norm_num) (by norm_num) n c hc
  have hhead : (Nat.toDigits 10 n).head? ≠ some '0' := fun h => by
    have := Json.head_toDigits h
    omega
  simp only [isPort, Bool.and_eq_true, decide_eq_true_eq, List.all_eq_true]
  exact ⟨⟨⟨Nat.toDigits_ne_nil, hlen⟩, hdigits⟩, hhead⟩

theorem ofDigits_pos {p : List Char} (h : isPort p = true) : 0 < ofDigits 10 p := by
  simp only [isPort, Bool.and_eq_true, decide_eq_true_eq, List.all_eq_true] at h
  obtain ⟨⟨⟨hne, -⟩, hdigits⟩, hhead⟩ := h
  cases p with
  | nil => exact absurd rfl hne
  | cons c cs =>
    obtain ⟨d, hd, -⟩ := isDigit_iff.mp (hdigits c List.mem_cons_self)
    have hpos : 0 < d := by
      rw [Nat.pos_iff_ne_zero]
      rintro rfl
      exact hhead (congrArg some (eq_zero_of_digitVal hd))
    exact (Nat.pow_pos (by norm_num)).trans_le (pow_le_ofDigits hd hpos cs)

theorem portMatch_pos {sep : Char} {s : List Char} {a : Nat} {b : Option Nat} (h : portMatch sep s = some (a, b)) :
    0 < a := by
  unfold portMatch at h
  split at h
  · split at h
    · rename_i hp
      rw [← (Prod.mk.inj (Option.some.inj h)).1]
      exact ofDigits_pos hp
    · contradiction
  · split at h
    · rename_i hp
      rw [Bool.and_eq_true] at hp
      rw [← (Prod.mk.inj (Option.some.inj h)).1]
      exact ofDigits_pos hp.1
    · contradiction
  · contradiction

theorem portMatch_textWith {sep : Char} (hsep : isDigit 16 sep = false) (r : PortRange) :
    portMatch sep (r.textWith sep) = some (r.lo, if r.lo = r.hi then none else some r.hi) := by
  have hnot : ∀ n, sep ∉ Nat.toDigits 10 n := fun n => not_mem_toDigits (by norm_num) (by norm_num) n hsep
  have hval : ∀ n, ofDigits 10 (Nat.toDigits 10 n) = n := fun n => ofDigits_toDigits (by norm_num) (by norm_num) n
  have hlo := isPort_toDigits r.pos (r.le.trans r.hi_le)
  have hhi := isPort_toDigits (r.pos.trans_le r.le) r.hi_le
  rw [textWith]
  split
  · rw [portMatch, List.splitOn_eq_singleton (hnot _)]
    dsimp only
    rw [if_pos hlo, hval]
  · rw [portMatch, List.splitOn_append_cons_self_of_not_mem (hnot _), List.splitOn_eq_singleton (hnot _)]
    dsimp only
    rw [hlo, hhi, Bool.and_true, if_pos rfl, hval, hval]

theorem read_textWith {sep : Char} (hsep : isDigit 16 sep = false) (r : PortRange) :
    read sep (r.textWith sep) = some r := by
  rw [read, portMatch_textWith hsep, Option.bind_some, ofBounds_eq_some]
  refine ⟨rfl, ?_⟩
  split
  · rename_i h
    exact h.symm
  · rfl

theorem checkPorts_eq_ok {a : Nat} {b : Option Nat} (hpos : 0 < a) {t : List Char} :
    checkPorts a b = .ok t ↔ ∃ r, ofBounds a (b.getD a) = some r ∧ t = r.textWith '-' := by
  have hbounds : ∀ r : PortRange, ofBounds a (b.getD a) = some r → a ≤ b.getD a ∧ b.getD a ≤ 65535 := by
    intro r hr
    obtain ⟨hlo, hhi⟩ := ofBounds_eq_some.mp hr
    have := r.le
    have := r.hi_le
    omega
  have hrange : ∀ h : a ≤ b.getD a ∧ b.getD a ≤ 65535, (∃ r, ofBounds a (b.getD a) = some r ∧ t = r.textWith '-') ↔
      t = textWith '-' ⟨a, b.getD a, hpos, h.1, h.2⟩ := by
    intro h
    rw [show ofBounds a (b.getD a) = some ⟨a, b.getD a, hpos, h.1, h.2⟩ from dif_pos ⟨hpos, h.1, h.2⟩]
    constructor
    · rintro ⟨r, hr, rfl⟩
      rw [← Option.some.inj hr]
    · intro ht
      exact ⟨_, rfl, ht⟩
  unfold checkPorts
  by_cases ha : 65535 < a
  · rw [if_pos ha]
    refine iff_of_false (fun h => by contradiction) ?_
    rintro ⟨r, hr, -⟩
    have := hbounds r hr
    omega
  · rw [if_neg ha]
    cases b with
    | none =>
      have htext : textWith '-' ⟨a, a, hpos, le_rfl, Nat.le_of_not_lt ha⟩ = Nat.toDigits 10 a := if_pos rfl
      rw [hrange ⟨le_rfl, Nat.le_of_not_lt ha⟩, Except.ok.injEq]
      dsimp only [Option.getD_none]
      rw [htext, eq_comm]
    | some b =>
      dsimp only
      by_cases hb : 65535 < b ∨ b < a
      · rw [if_pos hb]
        refine iff_of_false (fun h => by contradiction) ?_
        rintro ⟨r, hr, -⟩
        obtain ⟨hle, hmax⟩ := hbounds r hr
        dsimp only [Option.getD_some] at hle hmax
        omega
      · have h : a ≤ b ∧ b ≤ 65535 := by omega
        rw [if_neg hb, hrange h, textWith, ← apply_ite Except.ok, Except.ok.injEq]
        exact eq_comm

theorem read_map_text (s : List Char) : (read '-' s).map text =
    (portMatch '-' s).bind fun (a, b) => (checkPorts a b).toOption.map String.ofList := by
  rw [read]
  cases hmatch : portMatch '-' s with
  | none => rfl
  | some m =>
    obtain ⟨a, b⟩ := m
    have hcheck := fun t => @checkPorts_eq_ok a b (portMatch_pos hmatch) t
    rw [Option.bind_some, Option.bind_some]
    show (ofBounds a (b.getD a)).map text = (checkPorts a b).toOption.map String.ofList
    cases hports : checkPorts a b with
    | error fault =>
      cases hr : ofBounds a (b.getD a) with
      | none => rfl
      | some r =>
        have hok := (hcheck _).mpr ⟨r, hr, rfl⟩
        rw [hports] at hok
        contradiction
    | ok u =>
      obtain ⟨r, hr, rfl⟩ := (hcheck u).mp hports
      rw [hr]
      rfl

theorem mem_textWith {sep c : Char} {r : PortRange} (h : c ∈ r.textWith sep) : c = sep ∨ isDigit 10 c = true := by
  have hdigits : ∀ n, c ∈ Nat.toDigits 10 n → isDigit 10 c = true := fun n hc =>
    isDigit_of_mem_toDigits (by norm_num) (by norm_num) n c hc
  rw [textWith] at h
  split at h
  · exact .inr (hdigits _ h)
  · rcases List.mem_append.mp h with h | h
    · exact .inr (hdigits _ h)
    · rcases List.mem_cons.mp h with h | h
      · exact .inl h
      · exact .inr (hdigits _ h)

theorem textWith_ne_nil (sep : Char) (r : PortRange) : r.textWith sep ≠ [] := by
  rw [textWith]
  split
  · exact Nat.toDigits_ne_nil
  · exact List.append_ne_nil_of_left_ne_nil Nat.toDigits_ne_nil _

end PortRange

/-! ## Names -/

/-- `[A-Za-z0-9 _.-]{1,64}`. -/
def isRuleName (name : List Char) : Bool :=
  decide (name ≠ []) && decide (name.length ≤ 64) &&
    name.all fun c => c.isAlphanum || c = ' ' || c = '_' || c = '.' || c = '-'

/-- A name that a custom rule never takes, once it is trimmed and in lower case. -/
def reservedName (n : List Char) : Bool := n = "all".toList || "obliguard-block-".toList.isPrefixOf n

/-! ## Requests -/

/-- The payload of `firewall_add` as the agent decodes it; a field that is missing is empty. -/
structure FwAddRequest where
  name : String
  direction : String
  action : String
  protocol : String
  localPort : String
  remotePort : String
  remoteIP : String
deriving DecidableEq

inductive RuleDirection
  | incoming
  | outgoing
deriving DecidableEq

def RuleDirection.text : RuleDirection → String
  | .incoming => "in"
  | .outgoing => "out"

inductive RuleVerdict
  | allow
  | block
deriving DecidableEq

def RuleVerdict.text : RuleVerdict → String
  | .allow => "allow"
  | .block => "block"

inductive RuleProtocol
  | tcp
  | udp
  | icmp
  | any
deriving DecidableEq

def RuleProtocol.text : RuleProtocol → String
  | .tcp => "tcp"
  | .udp => "udp"
  | .icmp => "icmp"
  | .any => "any"

/-- The protocol has ports. -/
def RuleProtocol.HasPorts (p : RuleProtocol) : Prop := p = .tcp ∨ p = .udp

instance (p : RuleProtocol) : Decidable p.HasPorts := inferInstanceAs (Decidable (_ ∨ _))

/-- A name, or none: of the characters allowed, without space around it, and not reserved. -/
def RuleNameOk (name : String) : Prop :=
  name = "" ∨ isRuleName name.toList = true ∧ goTrim name.toList = name.toList ∧
    reservedName (name.toList.map Char.toLower) = false

instance (name : String) : Decidable (RuleNameOk name) := inferInstanceAs (Decidable (_ ∨ _))

/-- A request that is valid. -/
structure CustomRule where
  name : String
  direction : RuleDirection
  action : RuleVerdict
  protocol : RuleProtocol
  localPort : Option PortRange
  remotePort : Option PortRange
  remoteIp : Option Net
  name_ok : RuleNameOk name
  ports_ok : localPort.isSome ∨ remotePort.isSome → protocol.HasPorts
  /-- An IPv4-mapped network is written as the IPv4 network. -/
  unmapped : ∀ n ∈ remoteIp, ¬n.IsMapped

/-- The text of a field, empty for none. -/
def portField (o : Option PortRange) : String := o.elim "" PortRange.text

def netField (o : Option Net) : String := o.elim "" fun n => String.ofList n.text

/-- The payload that says the rule. -/
def CustomRule.request (t : CustomRule) : FwAddRequest where
  name := t.name
  direction := t.direction.text
  action := t.action.text
  protocol := t.protocol.text
  localPort := portField t.localPort
  remotePort := portField t.remotePort
  remoteIP := netField t.remoteIp

/-! ## Packets -/

inductive L4
  | tcp
  | udp
  | icmp
  | icmpv6
deriving DecidableEq

def L4.name : L4 → String
  | .tcp => "tcp"
  | .udp => "udp"
  | .icmp => "icmp"
  | .icmpv6 => "ipv6-icmp"

/-- What a packet carries, with its source and destination ports. -/
inductive Transport
  | tcp (sport dport : Nat)
  | udp (sport dport : Nat)
  | icmp
  | icmpv6
  | other

namespace Transport

def protocol : Transport → Option L4
  | .tcp _ _ => some .tcp
  | .udp _ _ => some .udp
  | .icmp => some .icmp
  | .icmpv6 => some .icmpv6
  | .other => none

def sport : Transport → Option Nat
  | .tcp s _ => some s
  | .udp s _ => some s
  | _ => none

def dport : Transport → Option Nat
  | .tcp _ d => some d
  | .udp _ d => some d
  | _ => none

end Transport

structure Packet where
  direction : RuleDirection
  src : Addr
  dst : Addr
  transport : Transport
  sameFamily : src.family = dst.family

namespace Packet

def family (p : Packet) : IpFamily := p.src.family

/-- The address of the other host. -/
def remote (p : Packet) : Addr :=
  match p.direction with
  | .incoming => p.src
  | .outgoing => p.dst

def localPort (p : Packet) : Option Nat :=
  match p.direction with
  | .incoming => p.transport.dport
  | .outgoing => p.transport.sport

def remotePort (p : Packet) : Option Nat :=
  match p.direction with
  | .incoming => p.transport.sport
  | .outgoing => p.transport.dport

end Packet

/-- The port is in the range, if there is one. -/
def PortRange.Admits (r : Option PortRange) (port : Option Nat) : Prop := ∀ range ∈ r, ∃ n ∈ port, n ∈ range

/-- The family of the remote network, IPv4 where there is none. -/
def CustomRule.family (t : CustomRule) : IpFamily := t.remoteIp.elim .v4 Net.family

/-- The protocol of the packets that a rule is about, `none` for every one; ICMP is that of the family. -/
def CustomRule.l4 (t : CustomRule) : Option L4 :=
  match t.protocol with
  | .tcp => some .tcp
  | .udp => some .udp
  | .icmp => if t.family = .v6 then some .icmpv6 else some .icmp
  | .any => none

/-- The packets that the rule decides. -/
structure CustomRule.Matches (t : CustomRule) (p : Packet) : Prop where
  direction : p.direction = t.direction
  remote : ∀ n ∈ t.remoteIp, p.remote ∈ n
  protocol : ∀ l ∈ t.l4, p.transport.protocol = some l
  localPort : PortRange.Admits t.localPort p.localPort
  remotePort : PortRange.Admits t.remotePort p.remotePort

/-! ## Criteria -/

/-- What a packet filter compares. -/
inductive Criterion
  | family (f : IpFamily)
  | src (n : Net)
  | dst (n : Net)
  | protocol (l : L4)
  | sport (r : PortRange)
  | dport (r : PortRange)
deriving DecidableEq

def Criterion.Holds (p : Packet) : Criterion → Prop
  | .family f => p.family = f
  | .src n => p.src ∈ n
  | .dst n => p.dst ∈ n
  | .protocol l => p.transport.protocol = some l
  | .sport r => ∃ port ∈ p.transport.sport, port ∈ r
  | .dport r => ∃ port ∈ p.transport.dport, port ∈ r

/-- A rule of a packet filter: the packets of one direction that meet every criterion. -/
structure FilterRule where
  direction : RuleDirection
  criteria : List Criterion
  action : RuleVerdict

def FilterRule.Matches (r : FilterRule) (p : Packet) : Prop :=
  p.direction = r.direction ∧ ∀ c ∈ r.criteria, c.Holds p

namespace RuleDirection

/-- The criterion on the address of the other host. -/
def remote : RuleDirection → Net → Criterion
  | .incoming => .src
  | .outgoing => .dst

def localPort : RuleDirection → PortRange → Criterion
  | .incoming => .dport
  | .outgoing => .sport

def remotePort : RuleDirection → PortRange → Criterion
  | .incoming => .sport
  | .outgoing => .dport

end RuleDirection

/-- The criteria of a rule. -/
def CustomRule.criteria (t : CustomRule) : List Criterion :=
  t.remoteIp.toList.map t.direction.remote ++ t.l4.toList.map .protocol ++
    t.localPort.toList.map t.direction.localPort ++ t.remotePort.toList.map t.direction.remotePort

theorem forall_mem_toList_map {α : Type} {o : Option α} {f : α → Criterion} {P : Criterion → Prop} :
    (∀ c ∈ o.toList.map f, P c) ↔ ∀ a ∈ o, P (f a) := by
  cases o with
  | none => simp
  | some a => simp

theorem holds_direction (p : Packet) :
    (∀ n, (p.direction.remote n).Holds p ↔ p.remote ∈ n) ∧
    (∀ r, (p.direction.localPort r).Holds p ↔ ∃ port ∈ p.localPort, port ∈ r) ∧
    ∀ r, (p.direction.remotePort r).Holds p ↔ ∃ port ∈ p.remotePort, port ∈ r := by
  unfold Packet.remote Packet.localPort Packet.remotePort
  cases p.direction with
  | incoming => exact ⟨fun _ => Iff.rfl, fun _ => Iff.rfl, fun _ => Iff.rfl⟩
  | outgoing => exact ⟨fun _ => Iff.rfl, fun _ => Iff.rfl, fun _ => Iff.rfl⟩

theorem CustomRule.matches_iff {t : CustomRule} {p : Packet} :
    t.Matches p ↔ p.direction = t.direction ∧ ∀ c ∈ t.criteria, c.Holds p := by
  have hcriteria : (∀ c ∈ t.criteria, c.Holds p) ↔ (∀ n ∈ t.remoteIp, (t.direction.remote n).Holds p) ∧
      (∀ l ∈ t.l4, (Criterion.protocol l).Holds p) ∧ (∀ r ∈ t.localPort, (t.direction.localPort r).Holds p) ∧
      ∀ r ∈ t.remotePort, (t.direction.remotePort r).Holds p := by
    rw [criteria, List.forall_mem_append, List.forall_mem_append, List.forall_mem_append, forall_mem_toList_map,
      forall_mem_toList_map, forall_mem_toList_map, forall_mem_toList_map, and_assoc, and_assoc]
  obtain ⟨hremote, hlocal, hport⟩ := holds_direction p
  rw [hcriteria]
  constructor
  · rintro ⟨hdirection, hr, hl4, hl, hp⟩
    rw [← hdirection]
    exact ⟨rfl, fun n hn => (hremote n).mpr (hr n hn), hl4, fun r hr => (hlocal r).mpr (hl r hr),
      fun r hr => (hport r).mpr (hp r hr)⟩
  · rintro ⟨hdirection, h⟩
    rw [← hdirection] at h
    obtain ⟨hr, hl4, hl, hp⟩ := h
    exact ⟨hdirection, fun n hn => (hremote n).mp (hr n hn), hl4, fun r hr => (hlocal r).mp (hl r hr),
      fun r hr => (hport r).mp (hp r hr)⟩

end Obliguard
