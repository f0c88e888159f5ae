import Mathlib.Data.List.AList
import Obliguard.Agent.BanEntry

/-!
# Rules of the Windows firewall

The rules that `netsh advfirewall firewall` works on, the four commands that `agent/firewall_netsh.go`
runs, and the names of the grouped rules.

Which commands fail, what `show` prints for a list of rules and the order in which a map is visited are
the environment's. A command that fails changes nothing.
-/

namespace Obliguard.Agent

open Numeral

/-! ## Commands -/

inductive Direction
  | in
  | out
deriving DecidableEq

inductive RuleAction
  | block
  | allow
deriving DecidableEq

structure Rule where
  name : List Char
  dir : Direction
  action : RuleAction
  remoteip : List Char
  enabled : Bool
deriving DecidableEq

/-- The entries of the `remoteip` field. -/
def Rule.entries (r : Rule) : List (List Char) := r.remoteip.splitOn ','

structure Netsh where
  rules : List Rule
  /-- How many commands were run. -/
  ran : Nat
  /-- The names with a rule that a delete command failed on, up to the next one that succeeds. -/
  kept : List (List Char)

structure NetshEnv where
  /-- Command `n` fails. -/
  fails : Nat → Bool
  /-- What `show rule` prints. -/
  output : List Rule → List Char
  /-- The order in which `range` visits the keys of a map, command `n` being the next. -/
  order : Nat → List (List Char) → List (List Char)
  perm : ∀ n l, (order n l).Perm l

section commands
variable (env : NetshEnv) (n : Netsh)

/-- `show rule name=all`, of the rules selected. -/
def Netsh.show (p : Rule → Bool) : Netsh × Option (List Char) :=
  ({ n with ran := n.ran + 1 }, if env.fails n.ran then none else some (env.output (n.rules.filter p)))

/-- `delete rule`; it fails where no rule has the name. -/
def Netsh.delete (name : List Char) : Netsh × Bool :=
  if ∃ r ∈ n.rules, r.name = name then
    if env.fails n.ran then ({ n with ran := n.ran + 1, kept := name :: n.kept }, false)
    else ({
      rules := n.rules.filter (·.name ≠ name)
      ran := n.ran + 1
      kept := n.kept.filter (· ≠ name) }, true)
  else ({ n with ran := n.ran + 1 }, false)

/-- `set rule … new remoteip=… enable=yes`; it fails where no rule of the direction has the name. -/
def Netsh.set (name : List Char) (dir : Direction) (remoteip : List Char) : Netsh × Bool :=
  if env.fails n.ran ∨ ¬ ∃ r ∈ n.rules, r.name = name ∧ r.dir = dir then ({ n with ran := n.ran + 1 }, false)
  else ({ n with
    ran := n.ran + 1
    rules := n.rules.map fun r =>
      if r.name = name ∧ r.dir = dir then { r with remoteip, enabled := true } else r }, true)

/-- `add rule … action=block … enable=yes`. -/
def Netsh.add (name : List Char) (dir : Direction) (remoteip : List Char) : Netsh × Bool :=
  if env.fails n.ran then ({ n with ran := n.ran + 1 }, false)
  else ({ n with
    ran := n.ran + 1
    rules := n.rules ++ [⟨name, dir, .block, remoteip, true⟩] }, true)

/-- In milliseconds. -/
def netshRetryDelays : List Nat := [250, 1000]

/-- `netshRetry` of an `add rule`: a failed one is run again after each delay. -/
def netshRetry (name : List Char) (dir : Direction) (remoteip : List Char) : Netsh × Bool :=
  netshRetryDelays.foldl (fun out _ => if out.2 then out else out.1.add env name dir remoteip)
    (n.add env name dir remoteip)

end commands

/-! ### What they do -/

/-- What a delete command makes of the rules. -/
structure Deleted (n : Netsh) (name : List Char) (d : Netsh) : Prop where
  mem : ∀ r ∈ d.rules, r ∈ n.rules
  mem_of_ne : ∀ r ∈ n.rules, r.name ≠ name → r ∈ d.rules
  /-- A rule of the name is left only where the command failed on it. -/
  kept : ∀ r ∈ d.rules, r.name = name → name ∈ d.kept
  kept_of_ne : ∀ m ∈ n.kept, m ≠ name → m ∈ d.kept

section results
variable {env : NetshEnv} {n : Netsh} {name : List Char} {dir : Direction} {remoteip : List Char}

theorem deleted_delete : Deleted n name (n.delete env name).1 := by
  unfold Netsh.delete
  split
  · split
    · exact ⟨fun r hr => hr, fun r hr _ => hr, fun r _ _ => List.mem_cons_self,
        fun m hm _ => List.mem_cons_of_mem name hm⟩
    · refine ⟨fun r hr => (List.mem_filter.mp hr).1, fun r hr hne => ?_, fun r hr hname => ?_,
        fun m hm hne => ?_⟩
      · exact List.mem_filter.mpr ⟨hr, decide_eq_true hne⟩
      · exact absurd hname (of_decide_eq_true (List.mem_filter.mp hr).2)
      · exact List.mem_filter.mpr ⟨hm, decide_eq_true hne⟩
  · rename_i hnone
    exact ⟨fun r hr => hr, fun r hr _ => hr, fun r hr hname => absurd ⟨r, hr, hname⟩ hnone, fun m hm _ => hm⟩

theorem set_false (h : (n.set env name dir remoteip).2 = false) :
    (n.set env name dir remoteip).1.rules = n.rules ∧ (n.set env name dir remoteip).1.kept = n.kept := by
  unfold Netsh.set at h ⊢
  split
  · exact ⟨rfl, rfl⟩
  · rename_i hset
    rw [if_neg hset] at h
    contradiction

theorem set_true (h : (n.set env name dir remoteip).2 = true) :
    (n.set env name dir remoteip).1.rules = n.rules.map (fun r =>
        if r.name = name ∧ r.dir = dir then { r with remoteip, enabled := true } else r) ∧
      (n.set env name dir remoteip).1.kept = n.kept := by
  unfold Netsh.set at h ⊢
  split
  · rename_i hset
    rw [if_pos hset] at h
    contradiction
  · exact ⟨rfl, rfl⟩

/-- What one or more `add rule` commands have made of the rules. -/
structure Added (n : Netsh) (name : List Char) (dir : Direction) (remoteip : List Char)
    (out : Netsh × Bool) : Prop where
  rules : out.1.rules = if out.2 then n.rules ++ [⟨name, dir, .block, remoteip, true⟩] else n.rules
  kept : out.1.kept = n.kept

theorem added_add : Added n name dir remoteip (n.add env name dir remoteip) := by
  unfold Netsh.add
  split
  · exact ⟨rfl, rfl⟩
  · exact ⟨rfl, rfl⟩

theorem Added.again {out : Netsh × Bool} (h : Added n name dir remoteip out) :
    Added n name dir remoteip (if out.2 then out else out.1.add env name dir remoteip) := by
  split
  · exact h
  · rename_i hfailed
    have hadd := @added_add env out.1 name dir remoteip
    refine ⟨?_, hadd.kept.trans h.kept⟩
    rw [hadd.rules, h.rules, if_neg hfailed]

theorem added_netshRetry : Added n name dir remoteip (netshRetry env n name dir remoteip) :=
  added_add.again.again

end results

/-! ## Names -/

def winRuleIn : List Char := "Obliguard-Block-in".toList

def winRuleOut : List Char := "Obliguard-Block-out".toList

def winRulePrefix : List Char := "Obliguard-Block-".toList

/-- `base-i`. -/
def numbered (base : List Char) (i : Nat) : List Char := base ++ '-' :: Nat.toDigits 10 i

/-- `strings.TrimPrefix`. -/
def trimPrefix (p s : List Char) : List Char := if p.isPrefixOf s then s.drop p.length else s

/-- `strings.TrimSuffix`. -/
def trimSuffix (p s : List Char) : List Char := if p.isSuffixOf s then s.take (s.length - p.length) else s

/-- `strings.TrimRight`. -/
def trimRight (cut s : List Char) : List Char := (s.reverse.dropWhile (· ∈ cut)).reverse

/-- The text before the first occurrence of `sub`, and the text from there on. -/
def cutIndex (sub : List Char) : List Char → Option (List Char × List Char)
  | [] => none
  | c :: s =>
    if sub.isPrefixOf (c :: s) then some ([], c :: s)
    else (cutIndex sub s).map fun (before, rest) => (c :: before, rest)

/-- `isGroupedRuleName`. -/
def isGroupedRuleName (name : List Char) : Bool :=
  [winRuleIn, winRuleOut].any fun base =>
    let n := trimPrefix (base ++ ['-']) name
    decide (name = base) || decide (n ≠ name) && decide (n ≠ []) && n.all (· ∈ "0123456789".toList)

/-- The rule name on one line of the output of `show rule`. -/
def ruleNameOf (line : List Char) : Option (List Char) :=
  (cutIndex winRulePrefix (trimRight [' ', '\r', '\t'] line)).bind fun (before, name) =>
    let label := trimRight [' ', '\t'] before
    if label ≠ [] ∧ label.getLast? ≠ some ':' ∧ label.getLast? ≠ some '：' then none
    else if name.any (· ∈ [' ', '\t', ',', ';']) then none
    else some name

/-- `parseNetshRuleNames`. -/
def parseNetshRuleNames (out : List Char) : List (List Char) :=
  distinct ((out.splitOn '\n').filterMap ruleNameOf)

/-! ### The names of the groups -/

/-- The direction that a grouped rule has by its name. -/
def dirOf (name : List Char) : Direction := if winRuleIn.isPrefixOf name then .in else .out

theorem toDigits_injective {i j : Nat} (h : Nat.toDigits 10 i = Nat.toDigits 10 j) : i = j := by
  have hi := ofDigits_toDigits (b := 10) (by omega) (by omega) i
  have hj := ofDigits_toDigits (b := 10) (by omega) (by omega) j
  rw [← hi, h, hj]

theorem numbered_injective {base : List Char} {i j : Nat} (h : numbered base i = numbered base j) : i = j := by
  have hdigits := List.append_cancel_left h
  exact toDigits_injective (List.cons.inj hdigits).2

theorem numbered_ne (base : List Char) (i : Nat) : numbered base i ≠ base := by
  intro h
  have hlen := congrArg List.length h
  rw [numbered, List.length_append, List.length_cons] at hlen
  omega

theorem dirOf_append_in (s : List Char) : dirOf (winRuleIn ++ s) = .in := by
  rw [dirOf, if_pos (List.isPrefixOf_iff_prefix.mpr (List.prefix_append _ s))]

theorem dirOf_append_out (s : List Char) : dirOf (winRuleOut ++ s) = .out := rfl

theorem append_in_ne_append_out (s t : List Char) : winRuleIn ++ s ≠ winRuleOut ++ t := by
  intro h
  have hdir := congrArg dirOf h
  rw [dirOf_append_in, dirOf_append_out] at hdir
  contradiction

end Obliguard.Agent
