import Obliguard.Agent.BanEntry
import Obliguard.Agent.EventQueue
import Obliguard.Agent.Strconv

/-!
# The log parsers of the agent

The parsers of `agent/logwatcher.go`. Go's `regexp` is a parameter: a parser uses what a pattern
finds in a line and nothing else of it.

Every parser ends in `authEvents`. `IsEvent` is what holds of its events: the address is the text of
one, and an authentication failure has the key of the config it was parsed for.
-/

namespace Obliguard.Agent

open Text Numeral

/-! ## Strings -/

/-- The part of a text from the first occurrence of `sub`, `s[strings.Index(s, sub):]`. -/
def fromIndex (sub : List Char) : List Char → Option (List Char)
  | [] => none
  | c :: s => if sub.isPrefixOf (c :: s) then some (c :: s) else fromIndex sub s

/-- `strings.Count` of a text that is not empty, the first `skip` characters left out. -/
def countFrom (sub : List Char) : Nat → List Char → Nat
  | _, [] => 0
  | skip + 1, _ :: s => countFrom sub skip s
  | 0, c :: s =>
    if sub.isPrefixOf (c :: s) then countFrom sub (sub.length - 1) s + 1 else countFrom sub 0 s

/-- `strings.Count`. -/
def count (s sub : String) : Nat := countFrom sub.toList 0 s.toList

/-- `strings.Contains`. -/
def contains (s sub : String) : Bool := (fromIndex sub.toList s.toList).isSome

/-- `strings.Fields`. -/
def fieldsOf (s : List Char) : List String :=
  ((s.splitOnP isGoSpace).filter (· ≠ [])).map String.ofList

/-- The lower case of a character where that is ASCII. -/
def goLower (c : Char) : Char :=
  if c.toNat = 0x130 then 'i' else if c.toNat = 0x212a then 'k' else c.toLower

/-- `fmt.Sscanf(s, "%d", &n)`, 0 where it fails. -/
def sscanf (s : List Char) : Int :=
  let (negative, s) := signed (s.dropWhile isGoSpace)
  let digits := s.takeWhile (isDigit 10)
  if digits = [] then 0 else (int64 negative digits).getD 0

/-- What Go's `regexp` finds. A pattern is named by its text. -/
structure Regexp where
  /-- `FindStringSubmatch`: the match and its groups, a group without a match being empty. -/
  findStringSubmatch : String → String → Option (List String)
  /-- `FindStringIndex`: the ends of the match, in characters. -/
  findStringIndex : String → String → Option (Nat × Nat)
  /-- `Compile` and `SubexpNames`; `none` if the pattern is not valid. -/
  subexpNames : String → Option (List String)

/-! ## Events -/

/-- What `makeEvent` draws: a fresh id and the time. -/
structure Stamp where
  id : String
  timestamp : String

/-- `makeEvent`. -/
def makeEvent (stamp : Stamp) (ip username service eventType rawLog : String) : AgentIpEvent where
  id := stamp.id
  ip := ip
  username := username
  service := service
  eventType := eventType
  timestamp := stamp.timestamp
  rawLog := rawLog.toUTF8.toList

/-- `cleanIP` validates an extracted address and returns its canonical form, `""` when it is not a
literal address. -/
def cleanIP (s : String) : String :=
  let s := goTrim s.toList
  let s := if s.head? = some '[' then s.drop 1 else s
  let s := if s.getLast? = some ']' then s.dropLast else s
  let s := s.takeWhile (· ≠ '%')
  match parseAddr s with
  | none => ""
  | some ip => String.ofList (unmap ip).text

/-- `maxRepeatEvents`. -/
def maxRepeatEvents : Nat := 10

/-- `authEvents`: `n` events for one line, none when `ip` is not a valid address. -/
def authEvents (stamps : Nat → Stamp) (n : Nat) (ip username svcKey eventType line : String) :
    List AgentIpEvent :=
  let addr := cleanIP ip
  if addr = "" then []
  else (List.range (min (max n 1) maxRepeatEvents)).map fun i =>
    makeEvent (stamps i) addr username svcKey eventType line

/-- `repeatCount` parses a decimal count, defaulting to 1. -/
def repeatCount (s : String) : Nat :=
  match atoi s.toList with
  | none => 1
  | some n => if n < 1 then 1 else n.toNat

/-- `hasInjectedFrom`. -/
def hasInjectedFrom (username : String) : Bool :=
  contains username " from " || contains username " from:"

/-- Group `i` of a match. -/
def group (m : List String) (i : Nat) : String := m.getD i ""

/-- A user name of `-` is none. -/
def dashUser (user : String) : String := if user = "-" then "" else user

/-! ## Patterns -/

def repeatedRe : String := "message repeated (\\d+) times: \\[ ?(.*)\\]\\s*$"

def sshFailRe : String :=
  "Failed (?:password|publickey|keyboard-interactive/pam|none) for (invalid user )?(.*) " ++
    "from (\\S+) port \\d+(?: ssh\\d?)?(?:: .*)?$"

def sshAcceptRe : String :=
  "Accepted (?:password|publickey|keyboard-interactive/pam|gssapi-with-mic|hostbased) for (.*) " ++
    "from (\\S+) port \\d+(?: ssh\\d?)?(?:: .*)?$"

def rdpEventRe : String :=
  "EventID:(4625|4624)\\b.*?Account Name:[ \\t]*(.*?)[ \\t]+" ++
    "Source Network Address:[ \\t]*(\\S+)\\s*$"

def httpAccess401Re : String :=
  "^(\\S+) \\S+ (.*?) \\[[^\\]]*\\] \"[A-Z]+ (?:[^\"\\\\]|\\\\.)*\" 401(?: |$)"

def httpVhostPrefixRe : String := "^[^\\s:]+:\\d+ "

def apacheAuthErrRe : String :=
  "^\\[[^\\]]*\\] (?:\\[[^\\]]*\\] )*?\\[client ([^\\]\\s]+)\\] (AH\\d+: )?user (.*?)" ++
    "(?:: authentication failure for |: password mismatch| not found)"

def nginxAuthErrRe : String :=
  "^\\d{4}/\\d\\d/\\d\\d \\d\\d:\\d\\d:\\d\\d \\[\\w+\\] \\d+#\\d+: \\*\\d+ user \"(.*)\"" ++
    "(?:: password mismatch| was not found in \"[^\"]*\"), client: ([^,\\s]+), server: "

def vsftpdLoginRe : String :=
  "\\[pid \\d+\\] (?:\\[(.*?)\\] )?(OK|FAIL) LOGIN: Client \"([0-9A-Fa-f:.]+)\""

def pureFtpdFailRe : String :=
  "\\(\\?@([0-9A-Fa-f:.]+)\\) \\[WARNING\\] Authentication failed for user \\[(.*)\\]"

def proftpdFailRe : String :=
  "\\([^\\s()\\[\\]]*\\[([0-9A-Fa-f:.]+)\\]\\) - USER (.*?)" ++
    "(?: \\(Login failed\\)|: no such user found)"

def pamFailRe : String :=
  "pam_unix\\((?:vsftpd|proftpd|pure-ftpd|ftp)\\b[^)]*\\): authentication failure;.*? " ++
    "ruser=(.*?) rhost=(\\S*)"

def dovecotFailRe : String :=
  "auth failed, (\\d+) attempts?\\b.*, rip=([0-9A-Fa-f:.]+)(?:,|\\s*$)"

def dovecotUserRe : String := ": user=<(.*?)>"

def postfixFailRe : String :=
  "warning: [^\\s\\[\\]]+\\[([0-9A-Fa-f:.]+)\\]: SASL [\\w-]+ authentication failed\\b" ++
    "(?:: (Connection lost to authentication server))?"

def postfixUserRe : String := ", sasl_username=(.*)$"

def mysqlFailRe : String :=
  "Access denied for user '(.*)'@'([^']*)' \\(using password: (?:YES|NO)\\)"

def opnWebFailRe : String :=
  "Web GUI authentication error for '(.*)' from:?\\s*(\\S+)(?: \\([^()]*\\))?\\s*$"

def opnAuthErrorRe : String :=
  "Authentication error for\\s+(.*) from:?\\s*(\\S+)(?: \\([^()]*\\))?\\s*$"

def opnSuccessRe : String :=
  "Successful login for user '(.*)' from:?\\s*(\\S+)(?: \\([^()]*\\))?\\s*$"

def opnInvalidUserRe : String := "(?:Invalid|Illegal) user (.*) from (\\S+)(?: port \\d+)?\\s*$"

/-! ## Parsers -/

/-- `servicePorts`. -/
def servicePorts : List (Int × String) :=
  [(21, "ftp"), (22, "ssh"), (25, "mail"), (80, "nginx"), (110, "mail"), (143, "mail"),
    (443, "nginx"), (465, "mail"), (587, "mail"), (993, "mail"), (995, "mail"), (3306, "mysql"),
    (3389, "rdp"), (8080, "nginx"), (8443, "nginx")]

/-- A port of `servicePorts`. -/
def servicePort (port : Int) : Option String := servicePorts.lookup port

/-- The columns of an IIS log: the name of each in lower case. -/
structure IISLayout where
  names : List String
deriving DecidableEq

/-- `newIISLayout`. -/
def newIISLayout (names : List String) : IISLayout :=
  ⟨names.map fun name => String.ofList (name.toList.map goLower)⟩

/-- The column of a name, its last one. -/
def IISLayout.col (l : IISLayout) (cols : List String) (name : String) : String :=
  (((l.names.zip cols).reverse.find? (·.1 == name)).map (·.2)).getD ""

/-- `iisDefaultLayout`. -/
def iisDefaultLayout : IISLayout := newIISLayout
  ["date", "time", "s-ip", "cs-method", "cs-uri-stem", "cs-uri-query", "s-port", "cs-username",
    "c-ip", "cs(User-Agent)", "cs(Referer)", "sc-status", "sc-substatus", "sc-win32-status",
    "time-taken"]

/-- `iisDefaultLayoutNoReferer`. -/
def iisDefaultLayoutNoReferer : IISLayout := newIISLayout
  ["date", "time", "s-ip", "cs-method", "cs-uri-stem", "cs-uri-query", "s-port", "cs-username",
    "c-ip", "cs(User-Agent)", "sc-status", "sc-substatus", "sc-win32-status", "time-taken"]

/-- `iisNoCredentialsWin32`. -/
def iisNoCredentialsWin32 : String := "2148074254"

/-- `IISParser.PrimeHeader`. -/
def iisPrimeHeader (layout : Option IISLayout) (line : String) : Option IISLayout :=
  if "#Fields:".toList.isPrefixOf line.toList then
    match fieldsOf (line.toList.drop 8) with
    | [] => layout
    | names => some (newIISLayout names)
  else layout

/-- The layout a line is read with. -/
def iisLayoutFor (layout : Option IISLayout) (cols : List String) : Option IISLayout :=
  match layout with
  | some l => some l
  | none =>
    if cols.length = iisDefaultLayout.names.length then some iisDefaultLayout
    else if cols.length = iisDefaultLayoutNoReferer.names.length then some iisDefaultLayoutNoReferer
    else none

section parsers
variable (re : Regexp) (stamps : Nat → Stamp) (line svcKey : String)

/-- `unwrapRepeated` returns the folded message and how many times it repeated. -/
def unwrapRepeated : String × Nat :=
  match re.findStringSubmatch repeatedRe line with
  | some m => (group m 2, repeatCount (group m 1))
  | none => (line, 1)

/-- `parseSSHLine`; `none` if the line does not match. -/
def parseSSHLine : Option (List AgentIpEvent) :=
  let (body, n) := unwrapRepeated re line
  match re.findStringSubmatch sshFailRe body with
  | some m =>
    if hasInjectedFrom (group m 2) then some []
    else some (authEvents stamps n (group m 3) (group m 2) svcKey "auth_failure" line)
  | none =>
    match re.findStringSubmatch sshAcceptRe body with
    | some m =>
      if hasInjectedFrom (group m 1) then some []
      else some (authEvents stamps 1 (group m 2) (group m 1) svcKey "auth_success" line)
    | none => none

/-- `SSHParser.Parse`. -/
def parseSSH : List AgentIpEvent := (parseSSHLine re stamps line svcKey).getD []

/-- `RDPParser.Parse`. -/
def parseRDP : List AgentIpEvent :=
  match re.findStringSubmatch rdpEventRe line with
  | none => []
  | some m =>
    if contains (group m 2) "Source Network Address:" then []
    else authEvents stamps 1 (group m 3) (dashUser (group m 2)) svcKey
      (if group m 1 = "4624" then "auth_success" else "auth_failure") line

/-- `apacheClientIP` strips the port that Apache 2.4 appends to the client address. -/
def apacheClientIP (field : String) (v24 : Bool) : String :=
  let port := (field.toList.reverse.takeWhile (· ≠ ':')).reverse
  let host := field.toList.take (field.toList.length - port.length - 1)
  if v24 ∧ host ≠ [] ∧ (atoi port).isSome ∧ cleanIP (String.ofList host) ≠ "" then
    cleanIP (String.ofList host)
  else field

/-- `parseHTTPAuthLine`, of nginx and Apache. -/
def parseHTTPAuthLine : List AgentIpEvent :=
  match re.findStringSubmatch apacheAuthErrRe line with
  | some m =>
    authEvents stamps 1 (apacheClientIP (group m 1) (group m 2 ≠ "")) (group m 3) svcKey
      "auth_failure" line
  | none =>
    match re.findStringSubmatch nginxAuthErrRe line with
    | some m =>
      if count line ", client: " ≠ 1 then []
      else authEvents stamps 1 (group m 2) (group m 1) svcKey "auth_failure" line
    | none =>
      let body := match re.findStringIndex httpVhostPrefixRe line with
        | some loc => String.ofList (line.toList.drop loc.2)
        | none => line
      match re.findStringSubmatch httpAccess401Re body with
      | some m => authEvents stamps 1 (group m 1) (dashUser (group m 2)) svcKey "auth_failure" line
      | none => []

/-- `IISParser.Parse`, with the layout it leaves. -/
def parseIIS (layout : Option IISLayout) : Option IISLayout × List AgentIpEvent :=
  if ['#'].isPrefixOf line.toList then (iisPrimeHeader layout line, [])
  else
    let cols := fieldsOf line.toList
    match iisLayoutFor layout cols with
    | none => (layout, [])
    | some l =>
      if cols.length ≠ l.names.length ∨ l.col cols "sc-status" ≠ "401" then (layout, [])
      -- the anonymous challenge and the NTLM handshake carry no credential
      else if l.col cols "sc-substatus" = "2" ∨
          l.col cols "sc-win32-status" = iisNoCredentialsWin32 then (layout, [])
      else (layout, authEvents stamps 1 (l.col cols "c-ip") (dashUser (l.col cols "cs-username"))
        svcKey "auth_failure" line)

/-- `FTPParser.Parse`. -/
def parseFTP : List AgentIpEvent :=
  match re.findStringSubmatch vsftpdLoginRe line with
  | some m =>
    if count line " LOGIN: Client \"" ≠ 1 then []
    else authEvents stamps 1 (group m 3) (group m 1) svcKey
      (if group m 2 = "OK" then "auth_success" else "auth_failure") line
  | none =>
    match re.findStringSubmatch pureFtpdFailRe line with
    | some m => authEvents stamps 1 (group m 1) (group m 2) svcKey "auth_failure" line
    | none =>
      match re.findStringSubmatch proftpdFailRe line with
      | some m => authEvents stamps 1 (group m 1) (group m 2) svcKey "auth_failure" line
      | none =>
        match re.findStringSubmatch pamFailRe line with
        | some m =>
          if count line " rhost=" ≠ 1 then []
          else authEvents stamps 1 (group m 2) (group m 1) svcKey "auth_failure" line
        | none => []

/-- The user that a second pattern finds. -/
def userOf (pattern : String) : String :=
  ((re.findStringSubmatch pattern line).map fun u => group u 1).getD ""

/-- `MailParser.Parse`. -/
def parseMail : List AgentIpEvent :=
  match re.findStringSubmatch dovecotFailRe line with
  | some m =>
    if count line ", rip=" ≠ 1 then []
    else authEvents stamps (repeatCount (group m 1)) (group m 2) (userOf re line dovecotUserRe)
      svcKey "auth_failure" line
  | none =>
    match re.findStringSubmatch postfixFailRe line with
    | some m =>
      -- the SASL backend failed, not the client
      if group m 2 ≠ "" then []
      else authEvents stamps 1 (group m 1) (userOf re line postfixUserRe) svcKey "auth_failure" line
    | none => []

/-- `MySQLParser.Parse`. -/
def parseMySQL : List AgentIpEvent :=
  match re.findStringSubmatch mysqlFailRe line with
  | none => []
  | some m =>
    if contains (group m 1) "'@'" then []
    else authEvents stamps 1 (group m 2) (group m 1) svcKey "auth_failure" line

/-- `opnEvent` builds the event of an OPNsense match. -/
def opnEvent (m : List String) (eventType : String) : List AgentIpEvent :=
  if hasInjectedFrom (group m 1) then []
  else authEvents stamps 1 (group m 2) (group m 1) svcKey eventType line

/-- `OPNsenseParser.Parse`. -/
def parseOPNsense : List AgentIpEvent :=
  match re.findStringSubmatch opnWebFailRe line with
  | some m => opnEvent stamps line svcKey m "auth_failure"
  | none =>
    match re.findStringSubmatch opnAuthErrorRe line with
    | some m => opnEvent stamps line svcKey m "auth_failure"
    | none =>
      let ssh := if contains line "Failed " || contains line "Accepted " then
        parseSSHLine re stamps line svcKey else none
      match ssh with
      | some evs => evs
      | none =>
        match re.findStringSubmatch opnInvalidUserRe line with
        | some m => opnEvent stamps line svcKey m "auth_failure"
        | none =>
          match re.findStringSubmatch opnSuccessRe line with
          | some m => opnEvent stamps line svcKey m "auth_success"
          | none => []

/-- The fields of the CSV payload of a filterlog line. -/
def filterFields : Option (List String) :=
  (fromIndex "filterlog".toList line.toList).bind fun rest =>
    (fromIndex ": ".toList rest).map fun rest =>
      ((rest.drop 2).splitOn ',').map String.ofList

/-- What a filterlog line says of the packet. -/
structure FilterPacket where
  protoName : String
  srcIP : String
  dstIP : String
  srcPort : String
  dstPort : String

/-- The fields of a packet of either version: the protocol at `proto`, the source address at `src`
and what follows it. -/
def filterPacketAt (proto src : Nat) (fields : List String) : Option FilterPacket :=
  let protoName := fields.getD proto ""
  let ports := protoName = "tcp" ∨ protoName = "udp"
  if fields.length < src + 2 ∨ ports ∧ fields.length < src + 4 then none
  else some {
    protoName := protoName
    srcIP := fields.getD src ""
    dstIP := fields.getD (src + 1) ""
    srcPort := if ports then fields.getD (src + 2) "" else ""
    dstPort := if ports then fields.getD (src + 3) "" else "" }

/-- The packet of the fields, by their version. -/
def filterPacket (fields : List String) : Option FilterPacket :=
  match fields.getD 8 "" with
  | "4" => filterPacketAt 16 18 fields
  | "6" => filterPacketAt 12 15 fields
  | _ => none

/-- The line that describes a packet. -/
def filterRaw (action dir : String) (p : FilterPacket) : String :=
  "pf " ++ action ++ " " ++ dir ++ " " ++ p.srcIP ++ ":" ++ p.srcPort ++ " → " ++ p.dstIP ++ ":" ++
    p.dstPort ++ " (" ++ (if p.protoName = "" then "unknown" else p.protoName) ++ ")"

/-- The service of a packet: a passed one belongs to that of its port. -/
def filterService (action : String) (p : FilterPacket) : String :=
  if p.dstPort ≠ "" ∧ action = "pass" then
    (servicePort (sscanf p.dstPort.toList)).getD svcKey
  else svcKey

/-- `OPNsenseFilterParser.Parse`: inbound packets, a blocked one is a failure. -/
def parseOPNsenseFilter : List AgentIpEvent :=
  match filterFields line with
  | none => []
  | some fields =>
    let action := fields.getD 6 ""
    let dir := fields.getD 7 ""
    if fields.length < 8 ∨ dir ≠ "in" then []
    else
      match filterPacket fields with
      | none => []
      | some p =>
        if action = "pass" then
          authEvents stamps 1 p.srcIP "" (filterService svcKey action p) "auth_success"
            (filterRaw action dir p)
        else if action = "block" then
          authEvents stamps 1 p.srcIP "" (filterService svcKey action p) "auth_failure"
            (filterRaw action dir p)
        else []

/-- The named groups of a match: the address and the user. -/
def namedGroups (names m : List String) : String × String :=
  ((names.zip m).drop 1).foldl (fun out p =>
    if p.1 = "ip" then (p.2, out.2) else if p.1 = "username" then (out.1, p.2) else out) ("", "")

/-- `CustomRegexParser.Parse`. -/
def parseCustomRegex (regex : String) : List AgentIpEvent :=
  match re.subexpNames regex with
  | none => []
  | some names =>
    match re.findStringSubmatch regex line with
    | none => []
    | some m =>
      let (ip, username) := namedGroups names m
      authEvents stamps 1 ip username svcKey "auth_failure" line

end parsers

/-! ## What a line yields -/

/-- What every event is: its address is the text of one that is not IPv4-mapped, and a failure has
the key it was added for as its service. -/
structure IsEvent (svcKey : String) (e : AgentIpEvent) : Prop where
  ip : ∃ a : Addr, e.ip = String.ofList (unmap a).text
  service : e.eventType = "auth_failure" → e.service = svcKey

theorem cleanIP_eq (s : String) :
    cleanIP s = "" ∨ ∃ a : Addr, cleanIP s = String.ofList (unmap a).text := by
  unfold cleanIP
  dsimp only
  split
  · exact .inl rfl
  · exact .inr ⟨_, rfl⟩

theorem isEvent_of_mem_authEvents {stamps : Nat → Stamp} {n : Nat}
    {ip username service svcKey eventType line : String} {e : AgentIpEvent}
    (h : e ∈ authEvents stamps n ip username service eventType line)
    (hservice : eventType = "auth_failure" → service = svcKey) : IsEvent svcKey e := by
  rw [authEvents] at h
  split at h
  · contradiction
  · rename_i hip
    obtain ⟨i, -, rfl⟩ := List.mem_map.mp h
    exact ⟨(cleanIP_eq ip).resolve_left hip, hservice⟩

section specs
variable {re : Regexp} {stamps : Nat → Stamp} {line svcKey : String} {e : AgentIpEvent}

theorem isEvent_of_mem_authEvents_self {n : Nat} {ip username eventType raw : String}
    (h : e ∈ authEvents stamps n ip username svcKey eventType raw) : IsEvent svcKey e :=
  isEvent_of_mem_authEvents h fun _ => rfl

theorem isEvent_of_mem_parseSSHLine {evs : List AgentIpEvent}
    (h : parseSSHLine re stamps line svcKey = some evs) (he : e ∈ evs) : IsEvent svcKey e := by
  unfold parseSSHLine at h
  dsimp only at h
  split at h
  · split at h
    · cases h
      contradiction
    · cases h
      exact isEvent_of_mem_authEvents_self he
  · split at h
    · split at h
      · cases h
        contradiction
      · cases h
        exact isEvent_of_mem_authEvents_self he
    · contradiction

theorem isEvent_of_mem_parseSSH (h : e ∈ parseSSH re stamps line svcKey) : IsEvent svcKey e := by
  unfold parseSSH at h
  cases hline : parseSSHLine re stamps line svcKey with
  | none =>
    rw [hline] at h
    contradiction
  | some evs =>
    rw [hline] at h
    exact isEvent_of_mem_parseSSHLine hline h

theorem isEvent_of_mem_parseRDP (h : e ∈ parseRDP re stamps line svcKey) : IsEvent svcKey e := by
  unfold parseRDP at h
  split at h
  · contradiction
  · split at h
    · contradiction
    · exact isEvent_of_mem_authEvents_self h

theorem isEvent_of_mem_parseHTTPAuthLine (h : e ∈ parseHTTPAuthLine re stamps line svcKey) :
    IsEvent svcKey e := by
  unfold parseHTTPAuthLine at h
  split at h
  · exact isEvent_of_mem_authEvents_self h
  · split at h
    · split at h
      · contradiction
      · exact isEvent_of_mem_authEvents_self h
    · dsimp only at h
      split at h
      · exact isEvent_of_mem_authEvents_self h
      · contradiction

theorem isEvent_of_mem_parseIIS {layout : Option IISLayout}
    (h : e ∈ (parseIIS stamps line svcKey layout).2) : IsEvent svcKey e := by
  unfold parseIIS at h
  split at h
  · contradiction
  · dsimp only at h
    split at h
    · contradiction
    · split at h
      · contradiction
      · split at h
        · contradiction
        · dsimp only at h
          exact isEvent_of_mem_authEvents_self h

theorem isEvent_of_mem_parseFTP (h : e ∈ parseFTP re stamps line svcKey) : IsEvent svcKey e := by
  unfold parseFTP at h
  split at h
  · split at h
    · contradiction
    · exact isEvent_of_mem_authEvents_self h
  · split at h
    · exact isEvent_of_mem_authEvents_self h
    · split at h
      · exact isEvent_of_mem_authEvents_self h
      · split at h
        · split at h
          · contradiction
          · exact isEvent_of_mem_authEvents_self h
        · contradiction

theorem isEvent_of_mem_parseMail (h : e ∈ parseMail re stamps line svcKey) : IsEvent svcKey e := by
  unfold parseMail at h
  split at h
  · split at h
    · contradiction
    · exact isEvent_of_mem_authEvents_self h
  · split at h
    · split at h
      · contradiction
      · exact isEvent_of_mem_authEvents_self h
    · contradiction

theorem isEvent_of_mem_parseMySQL (h : e ∈ parseMySQL re stamps line svcKey) :
    IsEvent svcKey e := by
  unfold parseMySQL at h
  split at h
  · contradiction
  · split at h
    · contradiction
    · exact isEvent_of_mem_authEvents_self h

theorem isEvent_of_mem_opnEvent {m : List String} {eventType : String}
    (h : e ∈ opnEvent stamps line svcKey m eventType) : IsEvent svcKey e := by
  unfold opnEvent at h
  split at h
  · contradiction
  · exact isEvent_of_mem_authEvents_self h

theorem isEvent_of_mem_parseOPNsense (h : e ∈ parseOPNsense re stamps line svcKey) :
    IsEvent svcKey e := by
  unfold parseOPNsense at h
  split at h
  · exact isEvent_of_mem_opnEvent h
  · split at h
    · exact isEvent_of_mem_opnEvent h
    · dsimp only at h
      split at h
      · rename_i evs hssh
        split at hssh
        · exact isEvent_of_mem_parseSSHLine hssh h
        · contradiction
      · split at h
        · exact isEvent_of_mem_opnEvent h
        · split at h
          · exact isEvent_of_mem_opnEvent h
          · contradiction

theorem isEvent_of_mem_parseOPNsenseFilter (h : e ∈ parseOPNsenseFilter stamps line svcKey) :
    IsEvent svcKey e := by
  unfold parseOPNsenseFilter at h
  split at h
  · contradiction
  · dsimp only at h
    split at h
    · contradiction
    · split at h
      · contradiction
      · split at h
        · exact isEvent_of_mem_authEvents h fun hne => absurd hne (by decide)
        · rename_i hpass
          split at h
          · refine isEvent_of_mem_authEvents h fun _ => ?_
            rw [filterService, if_neg fun hport => hpass hport.2]
          · contradiction

theorem isEvent_of_mem_parseCustomRegex {regex : String}
    (h : e ∈ parseCustomRegex re stamps line svcKey regex) : IsEvent svcKey e := by
  unfold parseCustomRegex at h
  split at h
  · contradiction
  · split at h
    · contradiction
    · dsimp only at h
      exact isEvent_of_mem_authEvents_self h

end specs

end Obliguard.Agent
