import Obliguard.Agent.FirewallRules
import Obliguard.Lib.Segments

/-!
# Command lines for custom rules

The builders of `agent/firewall_rules.go`, and the languages of the programs they call, as far as the builders use
them: each reader takes a command line to the rule that the program adds.
-/

namespace Obliguard.Agent

open Numeral AddrText Text

/-! ## Builders -/

/-- `fwIPFamily`. -/
def fwIPFamily (ip : String) : Nat := if ip = "" then 0 else if ':' ∈ ip.toList then 6 else 4

/-- `strings.ReplaceAll(p, "-", ":")`. -/
def colonPort (p : String) : String := String.ofList (p.toList.map fun c => if c = '-' then ':' else c)

/-- The tokens, unless the field is empty. -/
def unlessAny (field : String) (tokens : List String) : List String := if field = "" then [] else tokens

/-- The `switch` of `nftAddArgs`. -/
def nftProtocolArgs (req : FwAddRequest) : List String :=
  let out := req.direction = "out"
  if req.protocol = "tcp" ∨ req.protocol = "udp" then
    (if req.localPort = "" ∧ req.remotePort = "" then ["meta", "l4proto", req.protocol] else []) ++
      unlessAny req.localPort [req.protocol, if out then "sport" else "dport", req.localPort] ++
      unlessAny req.remotePort [req.protocol, if out then "dport" else "sport", req.remotePort]
  else if req.protocol = "icmp" then
    ["meta", "l4proto", if fwIPFamily req.remoteIP = 6 then "ipv6-icmp" else "icmp"]
  else []

def nftAddArgs (req : FwAddRequest) (family : String) : List String :=
  let out := req.direction = "out"
  ["add", "rule", family, "filter", if out then "output" else "input"] ++
    unlessAny req.remoteIP
      [if fwIPFamily req.remoteIP = 6 then "ip6" else "ip", if out then "daddr" else "saddr", req.remoteIP] ++
    nftProtocolArgs req ++
    [if req.action = "allow" then "accept" else "drop", "comment", "\"obliguard-custom\""]

/-- The `switch` of `iptablesAddCommand`. -/
def iptablesProtocolArgs (req : FwAddRequest) : List String :=
  if req.protocol = "tcp" ∨ req.protocol = "udp" then ["-p", req.protocol]
  else if req.protocol = "icmp" then ["-p", if fwIPFamily req.remoteIP = 6 then "ipv6-icmp" else "icmp"]
  else []

/-- The options of `iptablesAddCommand` after the protocol, up to the target. -/
def iptablesOptionArgs (req : FwAddRequest) : List String :=
  let out := req.direction = "out"
  unlessAny req.remoteIP [if out then "-d" else "-s", req.remoteIP] ++
    unlessAny req.localPort [if out then "--sport" else "--dport", colonPort req.localPort] ++
    unlessAny req.remotePort [if out then "--dport" else "--sport", colonPort req.remotePort]

/-- `iptablesAddCommand`: the binary and its arguments. -/
def iptablesAddCommand (req : FwAddRequest) : String × List String :=
  (if fwIPFamily req.remoteIP = 6 then "ip6tables" else "iptables",
    ["-A", if req.direction = "out" then "OUTPUT" else "INPUT"] ++ (iptablesProtocolArgs req ++
      (iptablesOptionArgs req ++ ["-j", if req.action = "block" then "DROP" else "ACCEPT"])))

/-- `port` with the port, unless it is empty. -/
def ufwPortArgs (p : String) : List String := unlessAny p ["port", colonPort p]

def ufwRemote (req : FwAddRequest) : String := if req.remoteIP = "" then "any" else req.remoteIP

/-- The two ends of the connection. -/
def ufwEnds (req : FwAddRequest) : List String :=
  if req.direction = "out" then
    ["from", "any"] ++ ufwPortArgs req.localPort ++ (["to", ufwRemote req] ++ ufwPortArgs req.remotePort)
  else ["from", ufwRemote req] ++ ufwPortArgs req.remotePort ++ (["to", "any"] ++ ufwPortArgs req.localPort)

def ufwProtocolArgs (req : FwAddRequest) : List String :=
  if req.protocol = "tcp" ∨ req.protocol = "udp" then ["proto", req.protocol] else []

def ufwAddArgs (req : FwAddRequest) : Except String (List String) :=
  if req.protocol = "icmp" then .error "ufw cannot add ICMP rules from the command line"
  else if req.remoteIP = "" ∧ req.localPort = "" ∧ req.remotePort = "" then
    .error "ufw requires a port or a remote IP"
  else
    .ok ([if req.action = "block" then "deny" else "allow", req.direction] ++
      (ufwProtocolArgs req ++ ufwEnds req))

/-- `key="value"`. -/
def richAttr (key value : String) : String := key ++ "=\"" ++ value ++ "\""

/-- The port or protocol element of a rich rule. -/
def richElement (req : FwAddRequest) : List String :=
  if req.localPort ≠ "" then ["port", richAttr "port" req.localPort, richAttr "protocol" req.protocol]
  else if req.remotePort ≠ "" then
    ["source-port", richAttr "port" req.remotePort, richAttr "protocol" req.protocol]
  else if req.protocol = "tcp" ∨ req.protocol = "udp" then ["protocol", richAttr "value" req.protocol]
  else if req.protocol = "icmp" then
    ["protocol", richAttr "value" (if fwIPFamily req.remoteIP = 6 then "ipv6-icmp" else "icmp")]
  else []

/-- The family and the source of a rich rule. -/
def richSourceArgs (req : FwAddRequest) : List String :=
  unlessAny req.remoteIP
    [richAttr "family" (if fwIPFamily req.remoteIP = 6 then "ipv6" else "ipv4"), "source",
      richAttr "address" req.remoteIP]

/-- `firewalldAddCommands`: the one call of `firewall-cmd` before the reload. -/
def firewalldAddCommands (req : FwAddRequest) : Except String (List String) :=
  if req.direction = "out" then .error "firewalld rules only filter inbound traffic"
  else if req.action = "allow" ∧ req.remoteIP = "" ∧ req.remotePort = "" ∧ req.localPort ≠ "" then
    .ok ["--permanent", "--add-port=" ++ req.localPort ++ "/" ++ req.protocol]
  else if req.localPort ≠ "" ∧ req.remotePort ≠ "" then
    .error "firewalld cannot combine a local and a remote port in one rule"
  else if richSourceArgs req ++ richElement req = [] then .error "firewalld needs a remote IP, a port or a protocol"
  else
    .ok ["--permanent", "--add-rich-rule=" ++ " ".intercalate ("rule" :: (richSourceArgs req ++ (richElement req ++
      [if req.action = "block" then "drop" else "accept"])))]

/-- The name of a rule, one that its fields make where it has none. -/
def netshName (req : FwAddRequest) : String :=
  if req.name = "" then
    "Obliguard-Custom-" ++ req.direction ++ "-" ++ req.protocol ++ "-" ++
      (if req.localPort = "" then "any" else req.localPort)
  else req.name

def netshProto (req : FwAddRequest) : String :=
  if req.protocol = "icmp" then if fwIPFamily req.remoteIP = 6 then "icmpv6" else "icmpv4" else req.protocol

def netshAddArgs (req : FwAddRequest) : List String :=
  ["advfirewall", "firewall", "add", "rule"] ++
    (["name=" ++ netshName req, "dir=" ++ req.direction,
      "action=" ++ (if req.action = "allow" then "allow" else "block"), "enable=yes", "protocol=" ++ netshProto req] ++
      unlessAny req.localPort ["localport=" ++ req.localPort] ++
      unlessAny req.remotePort ["remoteport=" ++ req.remotePort] ++
      unlessAny req.remoteIP ["remoteip=" ++ req.remoteIP])

/-! ### Any backend -/

/-- `platformRuleManager`. -/
inductive FirewallRuleManager
  | nft
  | firewalld
  | ufw
  | iptables
  | windows

structure FwCommand where
  program : String
  args : List String

/-- The command lines with which `AddRule` adds a rule, each where those before it fail. -/
def FirewallRuleManager.addRule (m : FirewallRuleManager) (req : FwAddRequest) : Except String (List FwCommand) :=
  match m with
  | .nft => .ok [⟨"nft", nftAddArgs req "inet"⟩,
      ⟨"nft", nftAddArgs req (if fwIPFamily req.remoteIP = 6 then "ip6" else "ip")⟩]
  | .firewalld => (firewalldAddCommands req).map fun args => [⟨"firewall-cmd", args⟩]
  | .ufw => (ufwAddArgs req).map fun args => [⟨"ufw", args⟩]
  | .iptables => .ok [⟨(iptablesAddCommand req).1, (iptablesAddCommand req).2⟩]
  | .windows => .ok [⟨"netsh", netshAddArgs req⟩]

/-! ## Reading command lines -/

/-- The protocol of a name, as `/etc/protocols` has it. -/
def l4Named : String → Option L4
  | "tcp" => some .tcp
  | "udp" => some .udp
  | "icmp" => some .icmp
  | "ipv6-icmp" => some .icmpv6
  | _ => none

/-- A protocol that has ports. -/
def portedL4 : String → Option L4
  | "tcp" => some .tcp
  | "udp" => some .udp
  | _ => none

def netOf (f : IpFamily) (s : List Char) : Option Net := (readTarget s).filter (·.family = f)

/-! ### nft -/

/-- The criteria of one match statement. -/
def nftMatch (what key value : String) : Option (List Criterion) :=
  let address (f : IpFamily) := (netOf f value.toList).bind fun n =>
    match key with
    | "saddr" => some [Criterion.src n]
    | "daddr" => some [.dst n]
    | _ => none
  match what with
  | "ip" => address .v4
  | "ip6" => address .v6
  | "meta" => if key = "l4proto" then (l4Named value).map fun l => [.protocol l] else none
  | proto => do
    let l ← portedL4 proto
    let r ← PortRange.read '-' value.toList
    match key with
    | "sport" => some [.protocol l, .sport r]
    | "dport" => some [.protocol l, .dport r]
    | _ => none

def nftVerdict : String → Option RuleVerdict
  | "accept" => some .allow
  | "drop" => some .block
  | _ => none

/-- The statements of a rule, up to its verdict and its comment. -/
def nftStatements : List String → Option (List Criterion × RuleVerdict)
  | what :: key :: value :: rest =>
    match rest with
    | [] => if key = "comment" then (nftVerdict what).map fun action => ([], action) else none
    | _ :: _ => do
      let criteria ← nftMatch what key value
      let (more, action) ← nftStatements rest
      some (criteria ++ more, action)
  | _ => none

/-- The packets of a table. -/
def nftFamily : String → Option (List Criterion)
  | "inet" => some []
  | "ip" => some [.family .v4]
  | "ip6" => some [.family .v6]
  | _ => none

def nftChain : String → Option RuleDirection
  | "input" => some .incoming
  | "output" => some .outgoing
  | _ => none

/-- `nft` reads its arguments as one line. -/
def readNft (args : List String) : Option FilterRule :=
  match words (" ".intercalate args) with
  | add :: rule :: family :: table :: chain :: statements =>
    if add = "add" ∧ rule = "rule" ∧ table = "filter" then do
      let packets ← nftFamily family
      let direction ← nftChain chain
      let (criteria, action) ← nftStatements statements
      some ⟨direction, packets ++ criteria, action⟩
    else none
  | _ => none

/-! ### iptables -/

/-- A port is compared after `-p tcp` or `-p udp` only. -/
def iptablesPort (l : Option L4) (value : String) : Option PortRange :=
  if l = some .tcp ∨ l = some .udp then PortRange.read ':' value.toList else none

def iptablesMatch (f : IpFamily) (l : Option L4) (flag value : String) : Option Criterion :=
  match flag with
  | "-s" => (netOf f value.toList).map .src
  | "-d" => (netOf f value.toList).map .dst
  | "--sport" => (iptablesPort l value).map .sport
  | "--dport" => (iptablesPort l value).map .dport
  | _ => none

def iptablesTarget : String → Option RuleVerdict
  | "ACCEPT" => some .allow
  | "DROP" => some .block
  | _ => none

/-- The options, up to the target. -/
def iptablesOptions (f : IpFamily) (l : Option L4) : List String → Option (List Criterion × RuleVerdict)
  | flag :: value :: rest =>
    match rest with
    | [] => if flag = "-j" then (iptablesTarget value).map fun action => ([], action) else none
    | _ :: _ => do
      let criterion ← iptablesMatch f l flag value
      let (more, action) ← iptablesOptions f l rest
      some (criterion :: more, action)
  | _ => none

/-- `-p`, and what comes after it. -/
def iptablesProtocol : List String → Option (Option L4 × List String)
  | flag :: value :: rest =>
    if flag = "-p" then (l4Named value).map fun l => (some l, rest) else some (none, flag :: value :: rest)
  | tokens => some (none, tokens)

def iptablesChain : String → Option RuleDirection
  | "INPUT" => some .incoming
  | "OUTPUT" => some .outgoing
  | _ => none

/-- `iptables` and `ip6tables` filter the packets of one family. -/
def readIptables (f : IpFamily) : List String → Option FilterRule
  | add :: chain :: options =>
    if add = "-A" then do
      let direction ← iptablesChain chain
      let (l, options) ← iptablesProtocol options
      let (criteria, action) ← iptablesOptions f l options
      some ⟨direction, .family f :: l.toList.map .protocol ++ criteria, action⟩
    else none
  | _ => none

/-! ### ufw -/

/-- `port`, and what comes after it. -/
def ufwPort (l : Option L4) : List String → Option (Option PortRange × List String)
  | key :: value :: rest =>
    if key = "port" then (iptablesPort l value).map fun r => (some r, rest) else some (none, key :: value :: rest)
  | tokens => some (none, tokens)

/-- One end of the connection, and what comes after it. -/
def ufwEnd (key : String) (l : Option L4) : List String → Option (Option Net × Option PortRange × List String)
  | word :: host :: rest =>
    if word = key then do
      let net ← if host = "any" then some none else (readTarget host.toList).map some
      let (port, rest) ← ufwPort l rest
      some (net, port, rest)
    else none
  | _ => none

def ufwProtocol : List String → Option (Option L4 × List String)
  | key :: value :: rest =>
    if key = "proto" then (portedL4 value).map fun l => (some l, rest) else some (none, key :: value :: rest)
  | tokens => some (none, tokens)

def ufwAction : String → Option RuleVerdict
  | "allow" => some .allow
  | "deny" => some .block
  | _ => none

def ufwDirection : String → Option RuleDirection
  | "in" => some .incoming
  | "out" => some .outgoing
  | _ => none

def readUfw : List String → Option FilterRule
  | verdict :: dir :: tokens => do
    let action ← ufwAction verdict
    let direction ← ufwDirection dir
    let (l, tokens) ← ufwProtocol tokens
    let (src, sport, tokens) ← ufwEnd "from" l tokens
    let (dst, dport, tokens) ← ufwEnd "to" l tokens
    if tokens = [] then
      some ⟨direction, l.toList.map .protocol ++ src.toList.map .src ++ sport.toList.map .sport ++
        dst.toList.map .dst ++ dport.toList.map .dport, action⟩
    else none
  | _ => none

/-! ### firewall-cmd -/

/-- The value of `key="value"`. -/
def readAttr (key s : String) : Option (List Char) :=
  match s.toList.splitOn '"' with
  | [k, value, []] => if k = key.toList ++ ['='] then some value else none
  | _ => none

def richFamily (family : List Char) : Option IpFamily :=
  if family = "ipv4".toList then some .v4 else if family = "ipv6".toList then some .v6 else none

/-- The source of a rich rule with its family, and what comes after it. -/
def richSource : List String → Option (List Criterion × List String)
  | word :: source :: address :: rest =>
    match readAttr "family" word with
    | none => some ([], word :: source :: address :: rest)
    | some family =>
      if source = "source" then do
        let n ← netOf (← richFamily family) (← readAttr "address" address)
        some ([.src n], rest)
      else none
  | tokens => some ([], tokens)

/-- The attributes of a port element. -/
def richPort (port protocol : String) : Option (PortRange × L4) := do
  let r ← PortRange.read '-' (← readAttr "port" port)
  let l ← portedL4 (String.ofList (← readAttr "protocol" protocol))
  some (r, l)

/-- The element of a rich rule, and what comes after it. -/
def richCriteria : List String → Option (List Criterion × List String)
  | [] => none
  | word :: rest =>
    match word, rest with
    | "port", port :: protocol :: rest => (richPort port protocol).map fun (r, l) => ([.protocol l, .dport r], rest)
    | "source-port", port :: protocol :: rest =>
      (richPort port protocol).map fun (r, l) => ([.protocol l, .sport r], rest)
    | "protocol", value :: rest => do
      let l ← l4Named (String.ofList (← readAttr "value" value))
      some ([.protocol l], rest)
    | word, rest => some ([], word :: rest)

/-- A rich rule without a direction filters what comes in. -/
def readRichRule (rule : List Char) : Option FilterRule :=
  match words (String.ofList rule) with
  | [] => none
  | word :: tokens =>
    if word = "rule" then do
      let (source, tokens) ← richSource tokens
      let (element, tokens) ← richCriteria tokens
      match tokens with
      | [verdict] => (nftVerdict verdict).map fun action => ⟨.incoming, source ++ element, action⟩
      | _ => none
    else none

/-- The port of `--add-port`. -/
def readAddPort (port : List Char) : Option FilterRule :=
  match port.splitOn '/' with
  | [range, protocol] => do
    let r ← PortRange.read '-' range
    let l ← portedL4 (String.ofList protocol)
    some ⟨.incoming, [.protocol l, .dport r], .allow⟩
  | _ => none

/-- An option `key=value`, cut at the first `=`. -/
def readOption (s : String) : Option (String × List Char) :=
  match s.toList.dropWhile (· ≠ '=') with
  | [] => none
  | _ :: value => some (String.ofList (s.toList.takeWhile (· ≠ '=')), value)

def readFirewalld : List String → Option FilterRule
  | [permanent, call] =>
    if permanent = "--permanent" then
      match readOption call with
      | some ("--add-port", port) => readAddPort port
      | some ("--add-rich-rule", rule) => readRichRule rule
      | _ => none
    else none
  | _ => none

/-! ### netsh -/

def netshAction (action : List Char) : Option RuleVerdict :=
  if action = "allow".toList then some .allow else if action = "block".toList then some .block else none

def netshDirection (dir : List Char) : Option RuleDirection :=
  if dir = "in".toList then some .incoming else if dir = "out".toList then some .outgoing else none

/-- The protocol, `none` for any. -/
def netshProtocol (protocol : List Char) : Option (Option L4) :=
  if protocol = "tcp".toList then some (some .tcp)
  else if protocol = "udp".toList then some (some .udp)
  else if protocol = "icmpv4".toList then some (some .icmp)
  else if protocol = "icmpv6".toList then some (some .icmpv6)
  else if protocol = "any".toList then some none
  else none

/-- A rule that is not enabled filters nothing. -/
def netshEnabled (enable : List Char) : Option Unit := if enable = "yes".toList then some () else none

/-- The value of an option that may be missing. -/
def readOptional {α : Type} (read : List Char → Option α) : Option (List Char) → Option (Option α)
  | none => some none
  | some value => (read value).map some

def netshPorts (l : Option L4) (value : List Char) : Option PortRange :=
  if l = some .tcp ∨ l = some .udp then PortRange.read '-' value else none

/-- The options of a rule may come in any order. -/
def readNetshRule (options : List (String × List Char)) : Option FilterRule := do
  let _ ← options.lookup "name"
  let direction ← netshDirection (← options.lookup "dir")
  let action ← netshAction (← options.lookup "action")
  let _ ← netshEnabled (← options.lookup "enable")
  let l ← netshProtocol (← options.lookup "protocol")
  let localPort ← readOptional (netshPorts l) (options.lookup "localport")
  let remotePort ← readOptional (netshPorts l) (options.lookup "remoteport")
  let remote ← readOptional readTarget (options.lookup "remoteip")
  some ⟨direction, remote.toList.map direction.remote ++ l.toList.map .protocol ++
    localPort.toList.map direction.localPort ++ remotePort.toList.map direction.remotePort, action⟩

def readNetsh : List String → Option FilterRule
  | program :: firewall :: add :: rule :: options =>
    if program = "advfirewall" ∧ firewall = "firewall" ∧ add = "add" ∧ rule = "rule" then
      (options.mapM readOption).bind readNetshRule
    else none
  | _ => none

/-! ### Any program -/

/-- The rule that a command line adds. -/
def FwCommand.read (c : FwCommand) : Option FilterRule :=
  match c.program with
  | "nft" => readNft c.args
  | "firewall-cmd" => readFirewalld c.args
  | "ufw" => readUfw c.args
  | "iptables" => readIptables .v4 c.args
  | "ip6tables" => readIptables .v6 c.args
  | "netsh" => readNetsh c.args
  | _ => none

/-- The command is about the packets of one family: those of `iptables` are, and of `nft` in a table other than
`inet`. -/
def FwCommand.singleFamily (c : FwCommand) : Bool :=
  match c.program with
  | "nft" => decide (c.args[2]? ≠ some "inet")
  | "iptables" => true
  | "ip6tables" => true
  | _ => false

end Obliguard.Agent
