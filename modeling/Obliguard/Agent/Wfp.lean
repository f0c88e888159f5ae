import Obliguard.Agent.BanEntry

/-!
# The Windows filtering platform

The filters that `agent/firewall_wfp_windows.go` builds and reads back, and the engine as one session of
`tailscale/wf` sees it. A filter is identified by a GUID; the engine refuses a second one with the same id.

An operation of the engine may fail, and then has no effect. A transaction that is open takes every later
operation of the session, until it is committed or aborted.
-/

namespace Obliguard.Agent

open HighBits

/-! ## Filters -/

/-- `wf.LayerID`. -/
inductive WfLayer
  /-- `LayerALEAuthRecvAcceptV4` -/
  | authRecvAcceptV4
  /-- `LayerALEAuthRecvAcceptV6` -/
  | authRecvAcceptV6
  | other
deriving DecidableEq

inductive WfAction
  | block
  | other
deriving DecidableEq

/-- The provider or sublayer of a filter. -/
inductive WfOwner
  /-- `obliProviderID`, `obliSublayerID` -/
  | obliguard
  | other
deriving DecidableEq

inductive WfField
  /-- `FieldIPRemoteAddress` -/
  | remoteAddress
  | other
deriving DecidableEq

inductive WfOp
  /-- `MatchTypeEqual` -/
  | equal
  /-- `MatchTypeRange` -/
  | range
  | other
deriving DecidableEq

/-- The value of a condition; an invalid one counts as `other`. -/
inductive WfValue
  /-- `netip.Prefix` -/
  | net (p : NetipPrefix)
  /-- `netip.Addr` -/
  | addr (a : Addr)
  /-- `netipx.IPRange` -/
  | range (lo hi : Addr)
  | other

/-- `wf.Match`. -/
structure WfMatch where
  field : WfField
  op : WfOp
  value : WfValue

/-- `wf.Rule`. -/
structure WfRule (Id : Type) where
  id : Id
  layer : WfLayer
  sublayer : WfOwner
  provider : WfOwner
  action : WfAction
  conditions : List WfMatch

/-- The last address of a network. -/
def lastAddr (n : Net) : Addr where
  family := n.family
  value := n.addr + (2 ^ n.host - 1)
  value_lt := by
    have hpow : 2 ^ n.family.bits = 2 ^ n.host * 2 ^ n.len := by
      rw [← pow_add, Net.host, Nat.sub_add_cancel n.len_le]
    obtain ⟨c, hc⟩ := n.masked
    have hlt := n.addr_lt
    have hpos := Nat.two_pow_pos n.host
    change n.addr = 2 ^ n.host * c at hc
    rw [hpow] at hlt ⊢
    rw [hc] at hlt ⊢
    have hcl : c + 1 ≤ 2 ^ n.len := Nat.lt_of_mul_lt_mul_left hlt
    calc 2 ^ n.host * c + (2 ^ n.host - 1) < 2 ^ n.host * c + 2 ^ n.host := by omega
      _ = 2 ^ n.host * (c + 1) := by rw [Nat.mul_add, Nat.mul_one]
      _ ≤ 2 ^ n.host * 2 ^ n.len := Nat.mul_le_mul_left _ hcl

/-- A condition on the remote address. -/
def WfMatch.holds (m : WfMatch) (a : Addr) : Bool :=
  decide (m.field = .remoteAddress) &&
    match m.op, m.value with
    | .equal, .net p => decide (a ∈ p.masked)
    | .equal, .addr b => decide (a = b)
    | .range, .range lo hi =>
      decide (a.family = lo.family) && decide (a.family = hi.family) && decide (lo.value ≤ a.value) &&
        decide (a.value ≤ hi.value)
    | _, _ => false

/-- The inbound layer of a family. -/
def acceptLayer : IpFamily → WfLayer
  | .v4 => .authRecvAcceptV4
  | .v6 => .authRecvAcceptV6

/-- The filter blocks every inbound connection from the network. -/
def WfRule.Blocks {Id : Type} (r : WfRule Id) (n : Net) : Prop :=
  r.action = .block ∧ r.layer = acceptLayer n.family ∧ ∃ m, r.conditions = [m] ∧ ∀ a ∈ n, m.holds a = true

/-- `wfpRemoteMatch`: a host is an address/mask, a network the range of its first to its last address. -/
def wfpRemoteMatch (p : Net) : WfMatch where
  field := .remoteAddress
  op := if isHostEntry p then .equal else .range
  value := if isHostEntry p then .net ⟨p.first, p.len, p.len_le⟩ else .range p.first (lastAddr p)

/-- `IPRange.Prefix`: the network that is exactly the range. -/
def rangePrefix (lo hi : Addr) : Option Net :=
  let host := Nat.log2 (hi.value + 1 - lo.value)
  if h : lo.family = hi.family ∧ lo.value + (2 ^ host - 1) = hi.value ∧ host ≤ lo.family.bits ∧
      2 ^ host ∣ lo.value then
    some ⟨lo.family, lo.value, lo.family.bits - host, lo.value_lt, Nat.sub_le _ _, by
      rw [Nat.sub_sub_self h.2.2.1]
      exact h.2.2.2⟩
  else none

/-- `wfpMatchPrefix`: the network that a condition read back enforces, and whether it has the current
form (a network as address/mask is outdated). -/
def wfpMatchPrefix (m : WfMatch) : Option (Net × Bool) :=
  if m.field ≠ .remoteAddress then none
  else
    match m.value with
    | .net p => if m.op ≠ .equal then none else some (p.masked, isHostEntry p.masked)
    | .addr a => if m.op ≠ .equal then none else some (hostPrefix (unmap a), true)
    | .range lo hi =>
      if m.op ≠ .range then none else (rangePrefix lo hi).map fun pr => (pr, !isHostEntry pr)
    | .other => none

/-- `buildRule`; `ruleID` derives the id from the key. -/
def buildRule {Id : Type} (ruleID : String → Id) (key : String) (p : Net) : WfRule Id where
  id := ruleID key
  layer := acceptLayer p.family
  sublayer := .obliguard
  provider := .obliguard
  action := .block
  conditions := [wfpRemoteMatch p]

/-! ## The engine -/

section engine
variable {Id : Type}

/-- A session. -/
structure Wfp (Id : Type) where
  filters : List (WfRule Id)
  /-- The filters as the open transaction leaves them. -/
  txn : Option (List (WfRule Id))

inductive WfpError
  /-- `fwpErrAlreadyExists` -/
  | alreadyExists
  /-- `fwpErrNotFound`, `fwpErrFilterNotFound` -/
  | notFound
  | failed
deriving DecidableEq

/-- The filters that the session sees. -/
def Wfp.view (w : Wfp Id) : List (WfRule Id) := w.txn.getD w.filters

def Wfp.write (w : Wfp Id) (l : List (WfRule Id)) : Wfp Id :=
  match w.txn with
  | some _ => { w with txn := some l }
  | none => { w with filters := l }

variable [DecidableEq Id]

/-- `AddRule`. -/
def Wfp.addRule (fails : Bool) (w : Wfp Id) (r : WfRule Id) : Wfp Id × Option WfpError :=
  if fails then (w, some .failed)
  else if r.id ∈ w.view.map (·.id) then (w, some .alreadyExists)
  else (w.write (w.view ++ [r]), none)

/-- `DeleteRule`. -/
def Wfp.deleteRule (fails : Bool) (w : Wfp Id) (id : Id) : Wfp Id × Option WfpError :=
  if fails then (w, some .failed)
  else if id ∉ w.view.map (·.id) then (w, some .notFound)
  else (w.write (w.view.filter (·.id ≠ id)), none)

omit [DecidableEq Id]

/-- `txnBegin`, refused while a transaction is open. -/
def Wfp.txnBegin (fails : Bool) (w : Wfp Id) : Option (Wfp Id) :=
  if fails ∨ w.txn.isSome then none else some { w with txn := some w.filters }

/-- `txnCommit`; when it fails, the transaction stays open. -/
def Wfp.txnCommit (fails : Bool) (w : Wfp Id) : Option (Wfp Id) :=
  if fails then none else some { filters := w.view, txn := none }

/-- `txnAbort`. -/
def Wfp.txnAbort (fails : Bool) (w : Wfp Id) : Wfp Id := if fails then w else { w with txn := none }

end engine

end Obliguard.Agent
