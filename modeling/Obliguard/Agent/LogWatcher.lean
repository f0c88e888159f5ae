import Obliguard.Agent.LogParsers

/-!
# The log watcher of the agent

The tailers of `agent/logwatcher.go`, with the two pollers that add events of their own:
`secEventToAgentEvent` of `eventlog_windows.go` and `runNetConnLoop` of `netconn.go`.

`Emits` is what the agent can add under given service configs: nothing for a service that is not
enabled, and events of the service otherwise (`Emits.isEvent`).
-/

namespace Obliguard.Agent

open Text

/-! ## Tailers -/

/-- A parser of a tailer, with its state. -/
inductive LogParser
  | ssh
  | rdp
  | nginx
  | apache
  | iis (layout : Option IISLayout)
  | ftp
  | mail
  | mysql
  | opnsense
  | opnsenseFilter
  | customRegex (regex : String)
deriving DecidableEq

/-- `lw.parsers`, where IIS has a new parser for each tailer. -/
def builtinParser (svcKey : String) : Option LogParser :=
  match svcKey with
  | "ssh" => some .ssh
  | "rdp" => some .rdp
  | "nginx" => some .nginx
  | "apache" => some .apache
  | "iis" => some (.iis none)
  | "ftp" => some .ftp
  | "mail" => some .mail
  | "mysql" => some .mysql
  | "opnsense" => some .opnsense
  | "opnsense_filter" => some .opnsenseFilter
  | _ => none

/-- `AgentServiceConfig`. -/
structure AgentServiceConfig where
  enabled : Bool
  threshold : Nat
  windowSeconds : Nat
  customRegex : Option String
  sampleRequested : Bool
deriving DecidableEq

/-- `getParser`. -/
def getParser (svcKey : String) (customRegex : Option String) : Option LogParser :=
  match customRegex with
  | some regex => if regex ≠ "" then some (.customRegex regex) else builtinParser svcKey
  | none => builtinParser svcKey

/-- `Parse` of a parser, with its next state. -/
def LogParser.parse (re : Regexp) (stamps : Nat → Stamp) (line svcKey : String) :
    LogParser → LogParser × List AgentIpEvent
  | .ssh => (.ssh, parseSSH re stamps line svcKey)
  | .rdp => (.rdp, parseRDP re stamps line svcKey)
  | .nginx => (.nginx, parseHTTPAuthLine re stamps line svcKey)
  | .apache => (.apache, parseHTTPAuthLine re stamps line svcKey)
  | .iis layout =>
    let p := parseIIS stamps line svcKey layout
    (.iis p.1, p.2)
  | .ftp => (.ftp, parseFTP re stamps line svcKey)
  | .mail => (.mail, parseMail re stamps line svcKey)
  | .mysql => (.mysql, parseMySQL re stamps line svcKey)
  | .opnsense => (.opnsense, parseOPNsense re stamps line svcKey)
  | .opnsenseFilter => (.opnsenseFilter, parseOPNsenseFilter stamps line svcKey)
  | .customRegex regex => (.customRegex regex, parseCustomRegex re stamps line svcKey regex)

/-- `PrimeHeader` of the parsers that have it. -/
def LogParser.primeHeader (line : String) : LogParser → LogParser
  | .iis layout => .iis (iisPrimeHeader layout line)
  | p => p

/-- The service configs, by key. -/
abbrev ServiceConfigs := String → Option AgentServiceConfig

/-- `IsServiceEnabled`. -/
def isServiceEnabled (configs : ServiceConfigs) (svc : String) : Bool :=
  (configs svc).any (·.enabled)

/-- `resolveLogPath`, over `defaultLogPath` of the host. -/
def resolveLogPath (defaultLogPath : String → String) (svcKey : String) : String :=
  if "custom:".toList.isPrefixOf svcKey.toList then String.ofList (svcKey.toList.drop 7)
  else defaultLogPath svcKey

/-- The path names a child that follows a log: a journald unit or a circular log. -/
def isChildPath (logPath : String) : Bool :=
  "journald:".toList.isPrefixOf logPath.toList || "clog:".toList.isPrefixOf logPath.toList

/-- A line as a tailer reads it, with what its events draw. -/
structure LogLine where
  text : String
  stamps : Nat → Stamp

/-- One line of `tailFile`; `none` ends the tailer. -/
def tailFileLine (re : Regexp) (configs : ServiceConfigs) (svcKey : String) (p : LogParser)
    (l : LogLine) : Option (LogParser × List AgentIpEvent) :=
  if isServiceEnabled configs svcKey then
    if l.text = "" then some (p, []) else some (p.parse re l.stamps l.text svcKey)
  else none

/-- One line of `tailJournald` and of `tailClog`, which skip an empty line before they look at the
config. -/
def tailChildLine (re : Regexp) (configs : ServiceConfigs) (svcKey : String) (p : LogParser)
    (l : LogLine) : Option (LogParser × List AgentIpEvent) :=
  if l.text = "" then some (p, [])
  else if isServiceEnabled configs svcKey then some (p.parse re l.stamps l.text svcKey)
  else none

/-- The loop of a tailer over the lines it reads. -/
def tail (line : LogParser → LogLine → Option (LogParser × List AgentIpEvent)) :
    LogParser → List LogLine → List AgentIpEvent
  | _, [] => []
  | p, l :: ls =>
    match line p l with
    | none => []
    | some (p', evs) => evs ++ tail line p' ls

/-- The tailer of a log path. A file's header lines of before are handed to the parser first. -/
def tailPath (re : Regexp) (configs : ServiceConfigs) (svcKey logPath : String) (p : LogParser)
    (headers : List String) (lines : List LogLine) : List AgentIpEvent :=
  if isChildPath logPath then tail (tailChildLine re configs svcKey) p lines
  else
    let p := (headers.filter fun h => ['#'].isPrefixOf h.toList).foldl (fun p h => p.primeHeader h) p
    tail (tailFileLine re configs svcKey) p lines

/-! ## Pollers -/

/-- A time, with its text in RFC 3339. -/
structure EventTime where
  nanos : Int
  rfc3339 : String

/-- `secLogonEvent`: a value that the event does not have is empty. -/
structure SecLogonEvent where
  eventID : Nat
  time : Option EventTime
  data : String → String

/-- `eventLogMaxReplayAge`. -/
def eventLogMaxReplayAge : Int := 24 * 3600 * 1000000000

/-- `IsLoopback` or `IsUnspecified`. -/
def isLocalAddr (a : Addr) : Bool :=
  match a.family with
  | .v4 => a.value / 2 ^ 24 == 127 || a.value == 0
  | .v6 => a.value == 1 || a.value == 0

/-- The event type of a Security event, if it is one to report. -/
def secEventType (ev : SecLogonEvent) : Option String :=
  if ev.eventID = 4625 then some "auth_failure"
  else if ev.eventID = 4624 ∧ ev.data "LogonType" = "10" then some "auth_success"
  else none

/-- `secEventToAgentEvent`. -/
def secEventToAgentEvent (stamp : Stamp) (ev : SecLogonEvent) (now : Int) : Option AgentIpEvent :=
  (secEventType ev).bind fun evType =>
    let ip := cleanIP (ev.data "IpAddress")
    let user := dashUser (ev.data "TargetUserName")
    if ((parseAddr ip.toList).all fun a => isLocalAddr (unmap a)) ∨ user.toList.getLast? = some '$' ∨
        ev.time.any (fun t => decide (now - t.nanos > eventLogMaxReplayAge)) then none
    else
      let rawLog := "EventID:" ++ toString ev.eventID ++ " Account Name: " ++ user ++
        " Source Network Address: " ++ ip ++ " Logon Type: " ++ ev.data "LogonType"
      let e := makeEvent stamp ip user "rdp" evType rawLog
      some { e with timestamp := (ev.time.map (·.rfc3339)).getD e.timestamp }

/-- `tcpConn`. The remote address is written as `net.IP.String` writes it. -/
structure TcpConn where
  localPort : Nat
  remoteAddr : Addr
  remotePort : Nat

/-- A new connection of `runNetConnLoop` to the port of the service `svc`. -/
def connectionEvent (stamp : Stamp) (conn : TcpConn) (svc : String) : AgentIpEvent :=
  let remoteAddr := String.ofList (unmap conn.remoteAddr).text
  makeEvent stamp remoteAddr "" svc "auth_success"
    ("New connection: " ++ remoteAddr ++ ":" ++ toString conn.remotePort ++ " → :" ++
      toString conn.localPort ++ " (" ++ svc ++ ")")

/-! ## What the agent emits -/

/-- The events that the watcher adds under its configs, with the key that each is added for. A tailer
may have been started with an older config of its key. -/
inductive Emits (re : Regexp) (defaultLogPath : String → String) (configs : ServiceConfigs) :
    String → AgentIpEvent → Prop
  | tailed {svcKey : String} {started : AgentServiceConfig} {p : LogParser}
      (headers : List String) (lines : List LogLine) {e : AgentIpEvent}
      (henabled : started.enabled = true) (hpath : resolveLogPath defaultLogPath svcKey ≠ "")
      (hparser : getParser svcKey started.customRegex = some p)
      (he : e ∈ tailPath re configs svcKey (resolveLogPath defaultLogPath svcKey) p headers lines) :
      Emits re defaultLogPath configs svcKey e
  | securityLog (stamp : Stamp) (ev : SecLogonEvent) (now : Int) {e : AgentIpEvent}
      (henabled : isServiceEnabled configs "rdp" = true)
      (he : secEventToAgentEvent stamp ev now = some e) :
      Emits re defaultLogPath configs "rdp" e
  | connection (stamp : Stamp) (conn : TcpConn) {svc : String}
      (hport : servicePort conn.localPort = some svc)
      (henabled : isServiceEnabled configs svc = true) :
      Emits re defaultLogPath configs svc (connectionEvent stamp conn svc)

/-! ## What every emitted event is -/

section specs
variable {re : Regexp} {svcKey : String} {e : AgentIpEvent}

theorem isEvent_of_mem_parse {p : LogParser} {stamps : Nat → Stamp} {line : String}
    (h : e ∈ (p.parse re stamps line svcKey).2) : IsEvent svcKey e := by
  cases p with
  | ssh => exact isEvent_of_mem_parseSSH h
  | rdp => exact isEvent_of_mem_parseRDP h
  | nginx => exact isEvent_of_mem_parseHTTPAuthLine h
  | apache => exact isEvent_of_mem_parseHTTPAuthLine h
  | iis layout => exact isEvent_of_mem_parseIIS h
  | ftp => exact isEvent_of_mem_parseFTP h
  | mail => exact isEvent_of_mem_parseMail h
  | mysql => exact isEvent_of_mem_parseMySQL h
  | opnsense => exact isEvent_of_mem_parseOPNsense h
  | opnsenseFilter => exact isEvent_of_mem_parseOPNsenseFilter h
  | customRegex regex => exact isEvent_of_mem_parseCustomRegex h

theorem mem_tail {line : LogParser → LogLine → Option (LogParser × List AgentIpEvent)}
    {P : AgentIpEvent → Prop}
    (hline : ∀ p l p' evs, line p l = some (p', evs) → ∀ e ∈ evs, P e) :
    ∀ {p : LogParser} {ls : List LogLine}, e ∈ tail line p ls → P e := by
  intro p ls
  induction ls generalizing p with
  | nil =>
    intro h
    contradiction
  | cons l ls ih =>
    intro h
    rw [tail] at h
    split at h
    · contradiction
    · rename_i p' evs hl
      rcases List.mem_append.mp h with h | h
      · exact hline _ _ _ _ hl e h
      · exact ih h

theorem isEvent_of_tailFileLine {configs : ServiceConfigs} {p p' : LogParser} {l : LogLine}
    {evs : List AgentIpEvent} (h : tailFileLine re configs svcKey p l = some (p', evs)) :
    ∀ e ∈ evs, isServiceEnabled configs svcKey = true ∧ IsEvent svcKey e := by
  intro e he
  unfold tailFileLine at h
  split at h
  · rename_i henabled
    split at h
    · cases h
      contradiction
    · have hevs : (p.parse re l.stamps l.text svcKey).2 = evs := congrArg Prod.snd (Option.some.inj h)
      rw [← hevs] at he
      exact ⟨henabled, isEvent_of_mem_parse he⟩
  · contradiction

theorem isEvent_of_tailChildLine {configs : ServiceConfigs} {p p' : LogParser} {l : LogLine}
    {evs : List AgentIpEvent} (h : tailChildLine re configs svcKey p l = some (p', evs)) :
    ∀ e ∈ evs, isServiceEnabled configs svcKey = true ∧ IsEvent svcKey e := by
  intro e he
  unfold tailChildLine at h
  split at h
  · cases h
    contradiction
  · split at h
    · rename_i henabled
      have hevs : (p.parse re l.stamps l.text svcKey).2 = evs := congrArg Prod.snd (Option.some.inj h)
      rw [← hevs] at he
      exact ⟨henabled, isEvent_of_mem_parse he⟩
    · contradiction

theorem isEvent_of_mem_tailPath {configs : ServiceConfigs} {logPath : String} {p : LogParser}
    {headers : List String} {lines : List LogLine}
    (h : e ∈ tailPath re configs svcKey logPath p headers lines) :
    isServiceEnabled configs svcKey = true ∧ IsEvent svcKey e := by
  unfold tailPath at h
  split at h
  · exact mem_tail (fun _ _ _ _ hl => isEvent_of_tailChildLine hl) h
  · exact mem_tail (fun _ _ _ _ hl => isEvent_of_tailFileLine hl) h

end specs

theorem isEvent_of_secEventToAgentEvent {stamp : Stamp} {ev : SecLogonEvent} {now : Int}
    {e : AgentIpEvent} (h : secEventToAgentEvent stamp ev now = some e) : IsEvent "rdp" e := by
  unfold secEventToAgentEvent at h
  obtain ⟨evType, -, h⟩ := Option.bind_eq_some_iff.mp h
  dsimp only at h
  split at h
  · contradiction
  · rename_i hskip
    cases h
    refine ⟨(cleanIP_eq (ev.data "IpAddress")).resolve_left fun hempty => hskip (.inl ?_), fun _ => rfl⟩
    rw [hempty]
    decide

/-- Nothing is emitted for a service that is not enabled, and what is emitted is an event of it. -/
theorem Emits.isEvent {re : Regexp} {defaultLogPath : String → String} {configs : ServiceConfigs}
    {svcKey : String} {e : AgentIpEvent} (h : Emits re defaultLogPath configs svcKey e) :
    isServiceEnabled configs svcKey = true ∧ IsEvent svcKey e := by
  cases h with
  | tailed headers lines _ _ _ he => exact isEvent_of_mem_tailPath he
  | securityLog stamp ev now henabled he => exact ⟨henabled, isEvent_of_secEventToAgentEvent he⟩
  | connection stamp conn hport henabled =>
    exact ⟨henabled, ⟨conn.remoteAddr, rfl⟩, fun hne => absurd hne (show "auth_success" ≠ _ by decide)⟩

theorem tailPath_congr {re : Regexp} {configs configs' : ServiceConfigs} {svcKey : String}
    (h : isServiceEnabled configs svcKey = isServiceEnabled configs' svcKey) :
    tailPath re configs svcKey = tailPath re configs' svcKey := by
  funext logPath p headers lines
  unfold tailPath
  have hchild : tailChildLine re configs svcKey = tailChildLine re configs' svcKey := by
    funext p l
    rw [tailChildLine, tailChildLine, h]
  have hfile : tailFileLine re configs svcKey = tailFileLine re configs' svcKey := by
    funext p l
    rw [tailFileLine, tailFileLine, h]
  rw [hchild, hfile]

theorem Emits.of_enabled {re : Regexp} {defaultLogPath : String → String}
    {configs configs' : ServiceConfigs} {svcKey : String} {e : AgentIpEvent}
    (h : Emits re defaultLogPath configs svcKey e) (h' : isServiceEnabled configs' svcKey = true) :
    Emits re defaultLogPath configs' svcKey e := by
  have hsame : isServiceEnabled configs svcKey = isServiceEnabled configs' svcKey :=
    h.isEvent.1.trans h'.symm
  cases h with
  | tailed headers lines henabled hpath hparser he =>
    rw [tailPath_congr hsame] at he
    exact .tailed headers lines henabled hpath hparser he
  | securityLog stamp ev now _ he => exact .securityLog stamp ev now h' he
  | connection stamp conn hport _ => exact .connection stamp conn hport h'

end Obliguard.Agent
