import Mathlib.Data.List.AList
import Obliguard.Agent.Wfp

/-!
# The WFP backend

`WFPFirewall` of `agent/firewall_wfp_windows.go`. `desired` is what should be enforced, `applied` the mirror
of the filters in the engine, `stale` the ids of filters to delete. `Flush` sends the difference in
transactions of `wfpBatchSize` operations; a batch whose transaction fails is replayed operation by
operation.

The banlist file that `Flush` writes is read by the next process only.
-/

namespace Obliguard.Agent

/-- The order in which Go ranges over a map. -/
structure MapOrder (α : Type) where
  order : List α → List α
  perm : ∀ l, (order l).Perm l

def MapOrder.asListed (α : Type) : MapOrder α := ⟨id, fun _ => List.Perm.refl _⟩

/-- Canonical key to masked prefix. -/
abbrev DesiredMap := AList fun _ : String => Net

/-- `wfpOp`; an addition or deletion carries what `want` or `have` holds for its key. -/
inductive WfpOp (Id : Type)
  | stale (id : Id)
  | add (key : String) (p : Net)
  | del (key : String) (id : Id)

structure WFPFirewall (Id : Type) where
  sess : Wfp Id
  desired : DesiredMap
  /-- Canonical key to the id of its filter. -/
  applied : AList fun _ : String => Id
  stale : List Id
  closed : Bool

/-- The engine calls that fail in one batch; an operation by its position. -/
structure BatchFaults (Id : Type) where
  /-- Also for a session without a handle. -/
  noBegin : Bool
  inTxn : Nat → WfpOp Id → Bool
  noCommit : Bool
  noAbort : Bool
  replay : Nat → WfpOp Id → Bool

/-- What a `Flush` meets. -/
structure FlushRun (Id : Type) where
  adds : MapOrder (Sigma fun _ : String => Net)
  dels : MapOrder (Sigma fun _ : String => Id)
  batches : Nat → BatchFaults Id

section backend
variable {Id : Type}

/-! ## Deltas -/

def wfpMaxFilters : Nat := 100000

/-- `addDesiredLocked`, and whether the entry is desired then. -/
def WFPFirewall.addDesiredLocked (f : WFPFirewall Id) (key : String) (p : Net) : WFPFirewall Id × Bool :=
  if key ∈ f.desired then (f, true)
  else if f.desired.entries.length ≥ wfpMaxFilters then (f, false)
  else ({ f with desired := f.desired.insert key p }, true)

inductive WfpBanError
  /-- `wfp ban: parse %q: …` -/
  | parse
  /-- `wfp ban %s: filter limit reached (%d)` -/
  | limit (key : String)
  /-- `wfp unban: parse %q: …` -/
  | unbanParse
deriving DecidableEq

def WFPFirewall.banIP (f : WFPFirewall Id) (ip : String) : WFPFirewall Id × Option WfpBanError :=
  match canon ip with
  | none => (f, some .parse)
  | some (key, p) =>
    let (f, ok) := f.addDesiredLocked key p
    (f, if ok then none else some (.limit key))

def WFPFirewall.unbanIP (f : WFPFirewall Id) (ip : String) : WFPFirewall Id × Option WfpBanError :=
  match canon ip with
  | none => (f, some .unbanParse)
  | some (key, _) => ({ f with desired := f.desired.erase key }, none)

/-- The keys that are reported as enforced. -/
def WFPFirewall.getBannedIPs (f : WFPFirewall Id) : List String := f.applied.keys

/-! ## Reading the engine -/

section enumerate
variable [DecidableEq Id]

/-- One filter of the engine. -/
def classifyRule (ruleID : String → Id) (st : (AList fun _ : String => Id) × List Id) (r : WfRule Id) :
    (AList fun _ : String => Id) × List Id :=
  if r.provider ≠ .obliguard ∧ r.sublayer ≠ .obliguard then st
  else
    match r.conditions with
    | [m] =>
      match wfpMatchPrefix m with
      | some (p, true) =>
        let key := keyForPrefix p
        if r.id ≠ ruleID key ∨ key ∈ st.1 then (st.1, st.2 ++ [r.id])
        else (st.1.insert key r.id, st.2)
      | _ => (st.1, st.2 ++ [r.id])
    | _ => (st.1, st.2 ++ [r.id])

/-- `classifyWFPRules`: the enforced entries and the stale filters. -/
def classifyWFPRules (ruleID : String → Id) (rules : List (WfRule Id)) :
    (AList fun _ : String => Id) × List Id :=
  rules.foldl (classifyRule ruleID) (∅, [])

/-- `readWFPBanlist`, on the content of the file. -/
def readWFPBanlist (data : List Char) : DesiredMap :=
  (data.splitOn '\n').foldl (fun out line => match canon (String.ofList line) with
    | some (k, p) => out.insert k p
    | none => out) ∅

/-- What `openWFPFirewall` meets. -/
structure OpenRun (Id : Type) where
  enumerated : Bool
  banlist : Option (List Char)
  listed : MapOrder (Sigma fun _ : String => Net)
  existing : MapOrder (Sigma fun _ : String => Id)

/-- `openWFPFirewall`, the session being open. Without a banlist, or with an empty one, the live filters
are adopted. -/
def openWFPFirewall (ruleID : String → Id) (o : OpenRun Id) (sess : Wfp Id) : WFPFirewall Id :=
  let (existing, stale) := if o.enumerated then classifyWFPRules ruleID sess.view else (∅, [])
  let f : WFPFirewall Id := ⟨sess, ∅, existing, stale, false⟩
  let banlist := (o.banlist.map readWFPBanlist).getD ∅
  if banlist.entries ≠ [] then
    (o.listed.order banlist.entries).foldl (fun f e => (f.addDesiredLocked e.1 e.2).1) f
  else
    (o.existing.order existing.entries).foldl (fun f e => match canon e.1 with
      | some (_, p) => (f.addDesiredLocked e.1 p).1
      | none => f) f

end enumerate

/-! ## Flush -/

section flush
variable [DecidableEq Id]

/-- One operation; `AlreadyExists` on an addition and `NotFound` on a deletion are successes. -/
def execOp (ruleID : String → Id) (fails : Bool) (w : Wfp Id) : WfpOp Id → Wfp Id × Bool
  | .stale id =>
    let (w, err) := w.deleteRule fails id
    (w, err = none ∨ err = some .notFound)
  | .add key p =>
    let (w, err) := w.addRule fails (buildRule ruleID key p)
    (w, err = none ∨ err = some .alreadyExists)
  | .del _ id =>
    let (w, err) := w.deleteRule fails id
    (w, err = none ∨ err = some .notFound)

/-- `runOps`, from position `i` on: the operations that took effect, and whether none failed. -/
def runOps (ruleID : String → Id) (fails : Nat → WfpOp Id → Bool) (stopOnErr : Bool) :
    Nat → Wfp Id → List (WfpOp Id) → Wfp Id × List (WfpOp Id) × Bool
  | _, w, [] => (w, [], true)
  | i, w, o :: ops =>
    let (w, ok) := execOp ruleID (fails i o) w o
    if ok then
      let (w, applied, ok) := runOps ruleID fails stopOnErr (i + 1) w ops
      (w, o :: applied, ok)
    else if stopOnErr then (w, [], false)
    else
      let (w, applied, _) := runOps ruleID fails stopOnErr (i + 1) w ops
      (w, applied, false)

/-- `commitBatch`: one transaction, or else the operations one by one. Returns those that took effect. -/
def commitBatch (ruleID : String → Id) (φ : BatchFaults Id) (w : Wfp Id) (batch : List (WfpOp Id)) :
    Wfp Id × List (WfpOp Id) :=
  let replay (w : Wfp Id) :=
    let (w, applied, _) := runOps ruleID φ.replay false 0 w batch
    (w, applied)
  match w.txnBegin φ.noBegin with
  | none => replay w
  | some w =>
    let (w, applied, ok) := runOps ruleID φ.inTxn true 0 w batch
    if ok then
      match w.txnCommit φ.noCommit with
      | some w => (w, applied)
      -- a failed commit leaves the transaction open
      | none => replay (w.txnAbort φ.noAbort)
    else replay (w.txnAbort φ.noAbort)

/-- The mirror after an operation that took effect. -/
def recordOp (ruleID : String → Id) (applied : AList fun _ : String => Id) :
    WfpOp Id → AList fun _ : String => Id
  | .stale _ => applied
  | .add key _ => applied.insert key (ruleID key)
  | .del key _ => applied.erase key

/-- The variables of the loop over the batches. -/
structure Batches (Id : Type) where
  sess : Wfp Id
  applied : AList fun _ : String => Id
  staleDone : List Id

def wfpBatchSize : Nat := 4096

/-- One batch. -/
def flushBatch (ruleID : String → Id) (φ : FlushRun Id) (st : Batches Id) (b : List (WfpOp Id) × Nat) :
    Batches Id :=
  let (sess, committed) := commitBatch ruleID (φ.batches b.2) st.sess b.1
  { sess
    applied := committed.foldl (recordOp ruleID) st.applied
    staleDone := st.staleDone ++ committed.filterMap fun | .stale id => some id | _ => none }

/-- The operations of a `Flush`: the stale filters first, since an outdated one has the id of its
replacement. -/
def WFPFirewall.flushOps (φ : FlushRun Id) (f : WFPFirewall Id) : List (WfpOp Id) :=
  f.stale.map .stale ++
    ((φ.adds.order f.desired.entries).filter (·.1 ∉ f.applied)).map (fun e => .add e.1 e.2) ++
    ((φ.dels.order f.applied.entries).filter (·.1 ∉ f.desired)).map fun e => .del e.1 e.2

/-- `Flush`, and whether it was refused (`errWFPClosed`). -/
def WFPFirewall.flush (ruleID : String → Id) (φ : FlushRun Id) (f : WFPFirewall Id) : WFPFirewall Id × Bool :=
  if f.closed then (f, true)
  else
    let st := (slices wfpBatchSize (f.flushOps φ)).zipIdx.foldl (flushBatch ruleID φ) ⟨f.sess, f.applied, []⟩
    ({ f with sess := st.sess, applied := st.applied, stale := f.stale.filter (· ∉ st.staleDone) }, false)

/-- The mirror swap of `resync`. -/
def WFPFirewall.reread (ruleID : String → Id) (f : WFPFirewall Id) : WFPFirewall Id :=
  let (applied, stale) := classifyWFPRules ruleID f.sess.view
  { f with applied, stale }

/-- Desired and applied keys differ, or a stale filter appeared. -/
def WFPFirewall.needFlush (f : WFPFirewall Id) : Bool :=
  decide (f.stale ≠ []) || decide (f.desired.entries.length ≠ f.applied.entries.length) ||
    f.desired.keys.any (· ∉ f.applied)

/-- `resync`; `enumerated` says whether the engine could be read. -/
def WFPFirewall.resync (ruleID : String → Id) (enumerated : Bool) (φ : FlushRun Id) (f : WFPFirewall Id) :
    WFPFirewall Id :=
  if f.closed ∨ ¬ enumerated then f
  else
    let f := f.reread ruleID
    if f.needFlush then (f.flush ruleID φ).1 else f

inductive WfpCall (Id : Type)
  | ban (ip : String)
  | unban (ip : String)
  | flush (φ : FlushRun Id)
  | resync (enumerated : Bool) (φ : FlushRun Id)

def WFPFirewall.call (ruleID : String → Id) (f : WFPFirewall Id) : WfpCall Id → WFPFirewall Id
  | .ban ip => (f.banIP ip).1
  | .unban ip => (f.unbanIP ip).1
  | .flush φ => (f.flush ruleID φ).1
  | .resync enumerated φ => f.resync ruleID enumerated φ

end flush

end backend

end Obliguard.Agent
