import Obliguard.Lib.Budget
import Obliguard.Lib.Keyed
import Obliguard.Server.AgentCommands

/-!
# Update attempts

The table `agent_update_attempts`, one row for a device and a target version, and the nine statements
that write it. `find_exec` says what a statement does to the row of a pair; the offers that
`recordUpdateOffer` counts and the resets of the budget are the events of a statement.
-/

namespace Obliguard.Server

open Budget Numeral

/-! ## Versions -/

/-- `Number` of a row of digits: exact below 2^53, else the nearest double, ties to even, with 2^1024
for infinity. -/
def toDouble (n : Nat) : Nat :=
  if n < 2 ^ 53 then n
  else
    let unit := 2 ^ (Nat.log2 n - 52)
    let up := unit < 2 * (n % unit) ∨ unit = 2 * (n % unit) ∧ n / unit % 2 = 1
    min ((if up then n / unit + 1 else n / unit) * unit) (2 ^ 1024)

/-- `goAtoi`: a sign and digits, read as a number of JavaScript, else 0. -/
def goAtoi (s : List Char) : Int :=
  let digits := match s with
    | '+' :: cs | '-' :: cs => cs
    | cs => cs
  if digits ≠ [] ∧ digits.all (isDigit 10) then
    if s.head? = some '-' then -(toDouble (ofDigits 10 digits) : Int) else toDouble (ofDigits 10 digits)
  else 0

def parseAgentSemver (v : List Char) : Int × Int × Int :=
  let s := match v with
    | 'v' :: cs => cs
    | cs => cs
  match s.splitOn '.' with
  | a :: b :: c :: rest => (goAtoi a, goAtoi b, goAtoi (List.intercalate ['.'] (c :: rest)))
  | _ => (0, 0, 0)

def isStrictlyNewerAgentVersion (remote current : List Char) : Bool :=
  let r := parseAgentSemver remote
  let c := parseAgentSemver current
  if r.1 ≠ c.1 then c.1 < r.1
  else if r.2.1 ≠ c.2.1 then c.2.1 < r.2.1
  else c.2.2 < r.2.2

/-! ## Rows -/

inductive AgentUpdatePhase
  | offered
  | downloading
  | verifying
  | installing
  | restarting
  | succeeded
  | failed
  | cancelled
deriving DecidableEq

namespace AgentUpdatePhase

/-- `PROGRESS_UPDATE_PHASES`. -/
def isProgress : AgentUpdatePhase → Bool
  | .downloading | .verifying | .installing | .restarting => true
  | _ => false

/-- `AGENT_REPORTED_UPDATE_PHASES`. -/
def isReported (phase : AgentUpdatePhase) : Bool := phase.isProgress || phase == .failed

/-- The phases after which an offer starts a new budget. -/
def isFresh : AgentUpdatePhase → Bool
  | .cancelled | .succeeded => true
  | _ => false

end AgentUpdatePhase

/-- A row of `agent_update_attempts`. The pair of device and target version is unique and stands for
the id. -/
structure UpdateAttemptRow where
  deviceId : Nat
  targetVersion : List Char
  offeredCount : Nat
  lastOfferedAt : Option Int
  phase : AgentUpdatePhase
  lastError : Option String
  createdAt : Int
  updatedAt : Int
  finishedAt : Option Int
deriving DecidableEq

def attemptKey (r : UpdateAttemptRow) : Nat × List Char := (r.deviceId, r.targetVersion)

def updateOfferMinIntervalMs : Int := 10 * 60 * 1000

def updateRequestMaxOffers : Nat := 3

def updateAttemptTimeoutMs : Int := 10 * 60 * 1000

/-- What `parseUpdateStatusFrame` accepts. -/
structure ParsedUpdateStatus where
  targetVersion : List Char
  phase : AgentUpdatePhase
  error : Option String
  reported : phase.isReported = true

/-! ## Statements -/

/-- The statements that write `agent_update_attempts`. -/
inductive AttemptWrite
  /-- The upsert of `recordUpdateOffer`. -/
  | recordOffer (deviceId : Nat) (version : List Char) (now : Int)
  /-- The update of `requestUpdate`. -/
  | restoreBudget (eligible : List Nat) (served : List Char) (now : Int)
  /-- The upsert of `applyUpdateStatus`. -/
  | applyStatus (deviceId : Nat) (st : ParsedUpdateStatus) (now : Int)
  /-- The update of `setDeviceUpdating`: by id alone. -/
  | install (attempt : Nat × List Char) (now : Int)
  /-- The first update of `reconcileUpdateAttempts`. -/
  | succeed (attempt : Nat × List Char) (now : Int)
  /-- The second one. -/
  | revert (attempt : Nat × List Char) (phase : AgentUpdatePhase) (now : Int)
  /-- `cancelOpenAttempts`. -/
  | cancel (deviceIds : List Nat) (now : Int)
  /-- The update of `resolveAdvertisedVersion`. -/
  | noProgress (attempt : Nat × List Char) (now : Int)
  /-- The update of `cleanupStuckUpdating`. -/
  | timeOut (stuckIds : List Nat) (now : Int)

namespace AttemptWrite

/-- The row of an `INSERT`. -/
def inserts : AttemptWrite → Option UpdateAttemptRow
  | .recordOffer deviceId version now => some {
      deviceId := deviceId
      targetVersion := version
      offeredCount := 1
      lastOfferedAt := some now
      phase := .offered
      lastError := none
      createdAt := now
      updatedAt := now
      finishedAt := none }
  | .applyStatus deviceId st now => some {
      deviceId := deviceId
      targetVersion := st.targetVersion
      offeredCount := 0
      lastOfferedAt := none
      phase := st.phase
      lastError := if st.phase = .failed then some (st.error.getD "failed") else none
      createdAt := now
      updatedAt := now
      finishedAt := if st.phase = .failed then some now else none }
  | _ => none

/-- The `WHERE` of an update, and the conflict with its own. -/
def cond (w : AttemptWrite) (r : UpdateAttemptRow) : Bool :=
  match w with
  | .recordOffer deviceId version now => attemptKey r == (deviceId, version) &&
      r.lastOfferedAt.all (· < now - updateOfferMinIntervalMs) &&
      (r.phase.isFresh || decide (r.offeredCount < updateRequestMaxOffers))
  | .restoreBudget eligible served _ =>
    eligible.contains r.deviceId && r.targetVersion == served && r.phase != .succeeded
  | .applyStatus deviceId st _ =>
    attemptKey r == (deviceId, st.targetVersion) && r.phase != .succeeded
  | .install attempt _ => attemptKey r == attempt
  | .succeed attempt _ => attemptKey r == attempt && r.phase != .succeeded
  | .revert attempt phase _ => attemptKey r == attempt && r.phase == phase
  | .cancel deviceIds _ =>
    deviceIds.contains r.deviceId && (r.phase == .offered || r.phase.isProgress)
  | .noProgress attempt _ =>
    attemptKey r == attempt && r.phase != .failed && r.phase != .succeeded && r.phase != .cancelled
  | .timeOut stuckIds now => r.phase.isProgress &&
      (decide (r.updatedAt < now - updateAttemptTimeoutMs) || stuckIds.contains r.deviceId)

/-- The `SET` of an update. -/
def set (w : AttemptWrite) (r : UpdateAttemptRow) : UpdateAttemptRow :=
  match w with
  | .recordOffer _ _ now => { r with
      offeredCount := if r.phase.isFresh then 1 else r.offeredCount + 1
      lastOfferedAt := some now
      phase := .offered
      lastError := none
      finishedAt := none
      updatedAt := now }
  | .restoreBudget _ _ now => { r with
      offeredCount := 0
      phase := .offered
      lastError := none
      finishedAt := none
      updatedAt := now }
  | .applyStatus _ st now => { r with
      phase := st.phase
      lastError := if st.phase = .failed then some (st.error.getD "failed") else none
      finishedAt := if st.phase = .failed then some now else none
      updatedAt := now }
  | .install _ now => { r with
      phase := .installing
      lastError := none
      finishedAt := none
      updatedAt := now }
  | .succeed _ now => { r with
      phase := .succeeded
      lastError := none
      finishedAt := some now
      updatedAt := now }
  | .revert _ _ now => { r with
      phase := .failed
      lastError := some "reverted_or_failed"
      finishedAt := some now
      updatedAt := now }
  | .cancel _ now => { r with
      phase := .cancelled
      finishedAt := some now
      updatedAt := now }
  | .noProgress _ now => { r with
      phase := .failed
      lastError := some "no_progress"
      finishedAt := some now
      updatedAt := now }
  | .timeOut _ now => { r with
      phase := .failed
      lastError := some "timeout"
      finishedAt := some now
      updatedAt := now }

theorem attemptKey_set (w : AttemptWrite) (r : UpdateAttemptRow) :
    attemptKey (w.set r) = attemptKey r := by
  cases w <;> rfl

/-- One statement. -/
def exec (w : AttemptWrite) (t : Keyed attemptKey) : Keyed attemptKey :=
  match w.inserts with
  | some r => t.upsert r w.cond w.set w.attemptKey_set
  | none => t.update w.cond w.set w.attemptKey_set

theorem key_of_cond {w : AttemptWrite} {r r' : UpdateAttemptRow} (hins : w.inserts = some r)
    (hcond : w.cond r' = true) : attemptKey r = attemptKey r' := by
  cases w with
  | recordOffer deviceId version now =>
    simp only [cond, Bool.and_eq_true, beq_iff_eq] at hcond
    rw [← Option.some.inj hins, hcond.1.1]
    rfl
  | applyStatus deviceId st now =>
    simp only [cond, Bool.and_eq_true, beq_iff_eq] at hcond
    rw [← Option.some.inj hins, hcond.1]
    rfl
  | restoreBudget | install | succeed | revert | cancel | noProgress | timeOut => contradiction

/-- A statement, seen at a pair of device and target. -/
theorem find_exec (w : AttemptWrite) (t : Keyed attemptKey) (k : Nat × List Char) :
    (w.exec t).find k = match t.find k with
      | some r => some (if w.cond r then w.set r else r)
      | none => w.inserts.filter (attemptKey · = k) := by
  unfold exec
  cases hins : w.inserts with
  | none =>
    dsimp only
    rw [Keyed.find_update]
    cases t.find k with
    | none => rfl
    | some r => rfl
  | some r =>
    dsimp only
    rw [Keyed.find_upsert]
    cases hfind : t.find k with
    | none =>
      dsimp only
      split
      · rename_i hk
        rw [Option.filter_some, if_pos (decide_eq_true hk)]
      · rename_i hk
        rw [Option.filter_some, if_neg (by simpa using hk)]
    | some r' =>
      dsimp only
      split
      · rfl
      · rename_i hk
        rw [if_neg]
        intro hcond
        rw [key_of_cond hins hcond, (Keyed.find_eq_some.mp hfind).2] at hk
        exact hk rfl

end AttemptWrite

/-! ## Events -/

inductive AttemptEvent
  /-- `recordUpdateOffer` counts an offer. -/
  | offered (attempt : Nat × List Char) (now : Int)
  /-- An operator request, or a transition to cancelled or succeeded. -/
  | reset (attempt : Nat × List Char)
deriving DecidableEq

namespace AttemptEvent

def isOffer (k : Nat × List Char) : AttemptEvent → Bool
  | .offered attempt _ => attempt == k
  | .reset _ => false

def isReset (k : Nat × List Char) : AttemptEvent → Bool
  | .offered _ _ => false
  | .reset attempt => attempt == k

end AttemptEvent

/-- The counted offers with their clocks. -/
def offers (log : List AttemptEvent) : List ((Nat × List Char) × Int) :=
  log.filterMap fun
    | .offered attempt now => some (attempt, now)
    | .reset _ => none

namespace AttemptWrite

/-- Whether `RETURNING` gives the row of a pair. -/
def hits (w : AttemptWrite) (t : Keyed attemptKey) (k : Nat × List Char) : Bool :=
  match t.find k with
  | some r => w.cond r
  | none => w.inserts.any (attemptKey · = k)

/-- The events of a statement. -/
def events (w : AttemptWrite) (t : Keyed attemptKey) : List AttemptEvent :=
  match w with
  | .recordOffer deviceId version now =>
    if w.hits t (deviceId, version) then [.offered (deviceId, version) now] else []
  | .restoreBudget .. | .succeed .. | .cancel .. =>
    (t.rows.filter w.cond).map fun r => .reset (attemptKey r)
  | _ => []

end AttemptWrite

end Obliguard.Server
