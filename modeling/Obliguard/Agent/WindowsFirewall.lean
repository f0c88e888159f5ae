import Mathlib.Data.List.Sort
import Obliguard.Agent.Netsh

/-!
# The netsh backend

`WindowsFirewall` of `agent/firewall_netsh.go` over the rules that netsh keeps. `appliedRules` is the
mirror of the grouped rules (`Mirror`); what a `Flush` leaves of it is `Synced`.

The banlist file is read once, before anything is written to it; the WFP filters of an earlier run,
which the first successful `Flush` removes, are no rules of netsh.
-/

namespace Obliguard.Agent

/-- The grouped rules this process created or updated, with their `remoteip` lists. -/
abbrev AppliedRules := AList fun _ : List Char => List Char

inductive NetshError
  /-- An entry that does not parse. -/
  | entry
  /-- `netsh: %d rule(s) not applied: rule %s: …` -/
  | notApplied (failed : Nat) (rule : List Char)
deriving DecidableEq

structure WindowsFirewall where
  netsh : Netsh
  /-- The banlist file as the process finds it. -/
  banlist : Option (List Char)
  cache : List String
  dirty : Bool
  loaded : Bool
  legacyCleaned : Bool
  /-- `none` until the first sync. -/
  appliedRules : Option AppliedRules
  unapplied : List String
  /-- The clean-up has run and could list the rules. -/
  listed : Bool

/-- The backend of a fresh process. -/
def WindowsFirewall.start (rules : List Rule) (banlist : Option (List Char)) : WindowsFirewall where
  netsh := ⟨rules, 0, []⟩
  banlist := banlist
  cache := []
  dirty := false
  loaded := false
  legacyCleaned := false
  appliedRules := none
  unapplied := []
  listed := false

/-! ## Loading -/

/-- `\d{1,3}` and the `.` after it, at the start of a text. -/
def octetDot (s : List Char) : Option (List Char) :=
  let digits := s.takeWhile fun c => '0' ≤ c ∧ c ≤ '9'
  if 1 ≤ digits.length ∧ digits.length ≤ 3 then
    match s.drop digits.length with
    | '.' :: rest => some rest
    | _ => none
  else none

/-- `ipPattern().MatchString`. -/
def ipPattern : List Char → Bool
  | [] => false
  | c :: s =>
    (((octetDot (c :: s)).bind octetDot).bind octetDot).any
      (fun rest => rest.head?.any fun d => '0' ≤ d ∧ d ≤ '9') || ipPattern s

/-- The entry of a per-IP rule of older agents, by the name of the rule. -/
def legacyIP (raw : List Char) : Option String :=
  if isGroupedRuleName raw then none
  else
    let raw := trimSuffix "-out".toList (trimSuffix "-in".toList raw)
    let ip := (trimPrefix winRulePrefix raw).map fun c => if c = '-' then '.' else c
    if ipPattern ip then (canonicalBanEntry (String.ofList ip)).map (·.1) else none

/-- `getLegacyIPs`. -/
def getLegacyIPs (env : NetshEnv) (n : Netsh) : Netsh × List String :=
  match n.show env (·.dir = .in) with
  | (n, none) => (n, [])
  | (n, some out) => (n, distinct ((parseNetshRuleNames out).filterMap legacyIP))

/-- The entries of the banlist file. -/
def banlistEntries (data : List Char) : List String :=
  (data.splitOn '\n').filterMap fun line => (canonicalBanEntry (String.ofList line)).map (·.1)

/-- `loadCache`. -/
def WindowsFirewall.loadCache (env : NetshEnv) (f : WindowsFirewall) : WindowsFirewall :=
  if f.loaded then f
  else
    let (n, legacyIPs) := getLegacyIPs env f.netsh
    let cache := distinct ((f.banlist.map banlistEntries).getD [] ++ legacyIPs)
    { f with
      loaded := true
      netsh := n
      cache
      dirty := f.dirty || decide (legacyIPs ≠ []) || decide (cache ≠ []) }

/-! ## Deltas -/

def WindowsFirewall.banIP (env : NetshEnv) (f : WindowsFirewall) (ip : String) :
    WindowsFirewall × Option NetshError :=
  let f := f.loadCache env
  match canonicalBanEntry ip with
  | none => (f, some .entry)
  | some (ip, _) =>
    if ip ∈ f.cache then
      -- re-sent after a failed rule update: retry
      (if ip ∈ f.unapplied then { f with dirty := true } else f, none)
    else ({ f with cache := f.cache ++ [ip], dirty := true }, none)

def WindowsFirewall.unbanIP (env : NetshEnv) (f : WindowsFirewall) (ip : String) : WindowsFirewall :=
  let f := f.loadCache env
  let ip := ((canonicalBanEntry ip).map (·.1)).getD ip
  if ip ∈ f.cache then { f with cache := f.cache.filter (· ≠ ip), dirty := true } else f

def WindowsFirewall.getBannedIPs (env : NetshEnv) (f : WindowsFirewall) : List String × WindowsFirewall :=
  let f := f.loadCache env
  (f.cache.filter (· ∉ f.unapplied), f)

/-! ## The grouped rules -/

def maxIPsPerRule : Nat := 500

structure GroupedRule where
  name : List Char
  dir : Direction
  ipList : List Char
  entries : List String

/-- The two rules of one chunk. -/
def groupedRules (suffix : List Char) (chunk : List String) : List GroupedRule :=
  let list := [','].intercalate (chunk.map String.toList)
  [⟨winRuleIn ++ suffix, .in, list, chunk⟩, ⟨winRuleOut ++ suffix, .out, list, chunk⟩]

/-- The suffix of the names of group `i`, counted from 0. -/
def groupSuffix (chunks i : Nat) : List Char := if chunks > 1 then '-' :: Nat.toDigits 10 (i + 1) else []

/-- `desiredGroupedRules`. -/
def desiredGroupedRules (ips : List String) : List GroupedRule :=
  let chunks := slices maxIPsPerRule ips
  chunks.zipIdx.flatMap fun (chunk, i) => groupedRules (groupSuffix chunks.length i) chunk

/-- `applyGroupedRule`. -/
def applyGroupedRule (env : NetshEnv) (n : Netsh) (r : GroupedRule) (known : Bool) : Netsh × Bool :=
  let (n, updated) := if known then n.set env r.name r.dir r.ipList else (n, false)
  if updated then (n, true)
  else netshRetry env (n.delete env r.name).1 r.name r.dir r.ipList

/-- The variables of `syncRules`. -/
structure Sync where
  netsh : Netsh
  applied : AppliedRules
  unapplied : List String
  failed : Nat
  firstErr : Option (List Char)

/-- One desired group. -/
def syncGroup (env : NetshEnv) (st : Sync) (r : GroupedRule) : Sync :=
  if st.applied.lookup r.name = some r.ipList then st
  else
    let (n, ok) := applyGroupedRule env st.netsh r (st.applied.lookup r.name).isSome
    if ok then { st with netsh := n, applied := st.applied.insert r.name r.ipList }
    else
      { netsh := n
        applied := st.applied.erase r.name
        unapplied := st.unapplied ++ r.entries
        failed := st.failed + 1
        firstErr := st.firstErr.or (some r.name) }

/-- One group of the mirror, kept if it is wanted. -/
def dropGroup (env : NetshEnv) (want : List (List Char)) (st : Sync) (name : List Char) : Sync :=
  if name ∈ want then st
  else { st with netsh := (st.netsh.delete env name).1, applied := st.applied.erase name }

/-- `syncRules`. -/
def WindowsFirewall.syncRules (env : NetshEnv) (f : WindowsFirewall) (ips : List String) :
    WindowsFirewall × Option NetshError :=
  let first := f.appliedRules.isNone
  let desired := desiredGroupedRules ips
  let want := desired.map (·.name)
  let st := desired.foldl (syncGroup env) ⟨f.netsh, f.appliedRules.getD ∅, [], 0, none⟩
  -- groups no longer needed
  let st := (env.order st.netsh.ran st.applied.keys).foldl (dropGroup env want) st
  -- the base names of a previous single-group run
  let n := if first ∧ desired.length > 2 then
      (((st.netsh.delete env winRuleIn).1).delete env winRuleOut).1
    else st.netsh
  ({ f with netsh := n, appliedRules := some st.applied, unapplied := st.unapplied },
    st.firstErr.map (.notApplied st.failed))

/-! ## The clean-up -/

/-- `isDesiredGroupName`. -/
def isDesiredGroupName (name : List Char) (groups : Nat) : Bool :=
  if groups = 1 then decide (name = winRuleIn) || decide (name = winRuleOut)
  else (List.range groups).any fun i =>
    decide (name = numbered winRuleIn (i + 1)) || decide (name = numbered winRuleOut (i + 1))

def netshStaleWalkMax : Nat := 1000

/-- `deleteNumberedRulesFrom`, from `i` on, with what is left of the walk. -/
def deleteNumberedRulesFrom (env : NetshEnv) : Nat → Nat → Nat → Netsh → Netsh
  | 0, _, _, n => n
  | walk + 1, i, misses, n =>
    if misses < 8 then
      let (n, hitIn) := n.delete env (numbered winRuleIn i)
      let (n, hitOut) := n.delete env (numbered winRuleOut i)
      deleteNumberedRulesFrom env walk (i + 1) (if hitIn || hitOut then 0 else misses + 1) n
    else n

/-- One rule that the clean-up finds. -/
def cleanupRule (env : NetshEnv) (applied : AppliedRules) (groups : Nat) (n : Netsh) (name : List Char) :
    Netsh :=
  if name ∈ applied then n
  else if isGroupedRuleName name && isDesiredGroupName name groups then n
  else (n.delete env name).1

/-- `cleanupStaleRules`, and whether it could list the rules. -/
def cleanupStaleRules (env : NetshEnv) (applied : AppliedRules) (groups : Nat) (n : Netsh) :
    Netsh × Bool :=
  match n.show env fun _ => true with
  | (n, none) =>
    let start := if groups ≤ 1 then 1 else groups + 1
    let n := if groups = 0 then (((n.delete env winRuleIn).1).delete env winRuleOut).1 else n
    (deleteNumberedRulesFrom env netshStaleWalkMax start 0 n, false)
  | (n, some out) => ((parseNetshRuleNames out).foldl (cleanupRule env applied groups) n, true)

/-- The clean-up, on the first flush only. -/
def WindowsFirewall.firstCleanup (env : NetshEnv) (f : WindowsFirewall) (groups : Nat) : WindowsFirewall :=
  if f.legacyCleaned then f
  else
    let (n, listed) := cleanupStaleRules env (f.appliedRules.getD ∅) groups f.netsh
    { f with netsh := n, legacyCleaned := true, listed }

/-- `Flush`. -/
def WindowsFirewall.flush (env : NetshEnv) (f : WindowsFirewall) : WindowsFirewall × Option NetshError :=
  let f := f.loadCache env
  if ¬ f.dirty then (f, none)
  else
    let ips := f.cache.insertionSort (· ≤ ·)
    let (f, err) := WindowsFirewall.syncRules env { f with dirty := false } ips
    let f := f.firstCleanup env (slices maxIPsPerRule ips).length
    ({ f with dirty := err.isSome }, err)

inductive WinCall
  | ban (ip : String)
  | unban (ip : String)
  | flush
  /-- `GetBannedIPs`. -/
  | report
deriving DecidableEq

def WindowsFirewall.call (env : NetshEnv) (f : WindowsFirewall) : WinCall → WindowsFirewall
  | .ban ip => (f.banIP env ip).1
  | .unban ip => f.unbanIP env ip
  | .flush => (f.flush env).1
  | .report => (f.getBannedIPs env).2

def WindowsFirewall.calls (env : NetshEnv) (f : WindowsFirewall) (cs : List WinCall) : WindowsFirewall :=
  cs.foldl (WindowsFirewall.call env) f

/-- A rule of the direction blocks the entry. -/
def Netsh.Blocks (n : Netsh) (dir : Direction) (ip : String) : Prop :=
  ∃ r ∈ n.rules, r.dir = dir ∧ r.action = .block ∧ r.enabled = true ∧ ip.toList ∈ r.entries

end Obliguard.Agent
