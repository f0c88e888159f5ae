import Obliguard.Server.SignIn

/-!
# What backs a sign-in

Over every interleaving of requests, the steps accepted for an account grow and a code signs in one session at most
(`totpCode_once`); a session of a user was opened with the proofs that its account asked for (`session_signedIn`); a
confirmation that lets a sensitive action through is recent and has a proof of its own (`passage_steppedUp`).
-/

namespace Obliguard.Server

open Runs

/-! ## What backs a proof -/

/-- The password of a local account, as the account was read. -/
structure GavePassword (log : List AuthEvent) (u : Nat) (use : FactorUse) (row : FactorAccount) : Prop where
  password : .password row use ∈ log
  id : row.id = u
  isLocal : row.isSso = false

/-- A code of an e-mail for the same use. -/
structure GaveMailedCode (log : List AuthEvent) (u : Nat) (codeHash : String) (use : FactorUse) : Prop where
  mailed : .mailed u codeHash use ∈ log
  emailed : .emailed u codeHash use ∈ log

/-- A sign-in had the password of the account, and its second factor if it had one. -/
def SignIn.Backed (log : List AuthEvent) (u : Nat) : SignIn → Prop
  | .password => ∃ row, GavePassword log u .signIn row ∧ row.totpEnabled = false ∧ row.emailOtpEnabled = false
  | .totp step => .claimed u step .signIn ∈ log ∧ ∃ row, GavePassword log u .signIn row
  | .email codeHash => GaveMailedCode log u codeHash .signIn ∧ ∃ row, GavePassword log u .signIn row
  | .sso => True

/-- A confirmation had a code of its own, or the password of an account without a second factor. -/
def StepUpProof.Backed (log : List AuthEvent) (u : Nat) : StepUpProof → Prop
  | .password => ∃ row, GavePassword log u .stepUp row ∧ row.hasTotp = false ∧ row.emailOtpEnabled = false
  | .totp step => .claimed u step .stepUp ∈ log
  | .email codeHash => GaveMailedCode log u codeHash .stepUp

def AuthEvent.Backed (log : List AuthEvent) : AuthEvent → Prop
  | .password row _ => row.isSso = false
  | .emailed u codeHash use => .mailed u codeHash use ∈ log
  | .signedIn _ u how => how.Backed log u
  | .steppedUp _ u proof _ => proof.Backed log u
  | .passed sid u .fresh now => ∃ proof t, .steppedUp sid u proof t ∈ log ∧ t ≤ now ∧ now < t + stepUpTtlMs
  | _ => True

/-- Every event is backed by those before it. -/
def BackedLog : List AuthEvent → Prop
  | [] => True
  | e :: log => e.Backed log ∧ BackedLog log

/-- What a session says of its user was proved for it. -/
structure LoginSession.Backed (log : List AuthEvent) (sid : Nat) (s : LoginSession) : Prop where
  user : ∀ u ∈ s.userId, ∃ how, .signedIn sid u how ∈ log
  pendingUser : ∀ u ∈ s.pendingMfaUserId, ∃ row, .password row .signIn ∈ log ∧ row.id = u
  pendingCode : ∀ p ∈ s.pendingEmailOtp, ∃ u ∈ s.pendingMfaUserId, .mailed u p.codeHash .signIn ∈ log
  stepUpCode : ∀ p ∈ s.stepUpEmailOtp, ∃ u ∈ s.userId, .mailed u p.codeHash .stepUp ∈ log
  stepUp : ∀ t ∈ s.stepUpAt, ∃ u ∈ s.stepUpUserId, ∃ proof, .steppedUp sid u proof t ∈ log

/-- What a request has read and proved. -/
def AuthPc.Backed (log : List AuthEvent) (session : LoginSession) : AuthPc → Prop
  | .loginRegenerate row => .password row .signIn ∈ log
  | .loginSave row => .password row .signIn ∈ log
  | .verifyCheck row _ _ => session.pendingMfaUserId = some row.id
  | .verifyRegenerate row how => how.Backed log row.id
  | .verifySave row how => how.Backed log row.id
  | .stepUpCheck row _ _ _ => session.userId = some row.id
  | .stamp u _ proof => proof.Backed log u
  | _ => True

structure AuthFlight.Backed (log : List AuthEvent) (f : AuthFlight) : Prop where
  session : f.session.Backed log f.sid
  pc : f.pc.Backed log f.session

/-! ## What a code is worth -/

/-- The step that an event claims for a user. -/
def AuthEvent.claim (u : Nat) : AuthEvent → Option Int
  | .claimed v step _ => if v = u then some step else none
  | _ => none

/-- The steps claimed for a user, the last one first. -/
def claims (u : Nat) (log : List AuthEvent) : List Int := log.filterMap (·.claim u)

/-- The claims of an account grow, and its last step is at least each of them. -/
structure ClaimOrder (accounts : Table FactorAccount.id) (log : List AuthEvent) : Prop where
  sorted : ∀ u, (claims u log).Pairwise (· > ·)
  last : ∀ row ∈ accounts.rows, ∀ step ∈ claims row.id log, ∃ last ∈ row.totpLastStep, step ≤ last
  known : ∀ u, ∀ step ∈ claims u log, u < accounts.seq

/-- The code that a session is signed in with. -/
def AuthEvent.spends : AuthEvent → Option (Nat × Int)
  | .signedIn _ u (.totp step) => some (u, step)
  | _ => none

/-- The code that a request holds. -/
def AuthPc.spends : AuthPc → Option (Nat × Int)
  | .verifyRegenerate row (.totp step) => some (row.id, step)
  | .verifySave row (.totp step) => some (row.id, step)
  | _ => none

/-- A code signs in one session, and one request at most holds it before. -/
structure SpentOnce (flights : Registry AuthFlight) (log : List AuthEvent) : Prop where
  nodup : (log.filterMap AuthEvent.spends).Nodup
  held : ∀ rid f, flights.get rid = some f → ∀ x ∈ f.pc.spends, x ∉ log.filterMap AuthEvent.spends ∧
    ∀ rid' f', flights.get rid' = some f' → f'.pc.spends = some x → rid' = rid

/-- Everything is backed by what was proved. -/
structure AuthState.Backed (s : AuthState) : Prop where
  events : BackedLog s.log
  claims : ClaimOrder s.accounts s.log
  spent : SpentOnce s.flights s.log
  sessions : ∀ sid session, s.sessions.get sid = some session → session.Backed s.log sid
  flights : ∀ rid f, s.flights.get rid = some f → f.Backed s.log

/-! ### A log only grows -/

section mono
variable {log log' : List AuthEvent} (hlog : log ⊆ log')

include hlog

theorem GavePassword.mono {u : Nat} {use : FactorUse} {row : FactorAccount} (h : GavePassword log u use row) :
    GavePassword log' u use row :=
  ⟨hlog h.password, h.id, h.isLocal⟩

theorem GaveMailedCode.mono {u : Nat} {codeHash : String} {use : FactorUse}
    (h : GaveMailedCode log u codeHash use) : GaveMailedCode log' u codeHash use :=
  ⟨hlog h.mailed, hlog h.emailed⟩

theorem SignIn.Backed.mono {u : Nat} {how : SignIn} (h : how.Backed log u) : how.Backed log' u := by
  cases how with
  | password =>
    obtain ⟨row, hrow, h⟩ := h
    exact ⟨row, hrow.mono hlog, h⟩
  | totp step =>
    obtain ⟨hclaimed, row, hrow⟩ := h
    exact ⟨hlog hclaimed, row, hrow.mono hlog⟩
  | email codeHash =>
    obtain ⟨hcode, row, hrow⟩ := h
    exact ⟨hcode.mono hlog, row, hrow.mono hlog⟩
  | sso => trivial

theorem StepUpProof.Backed.mono {u : Nat} {proof : StepUpProof} (h : proof.Backed log u) : proof.Backed log' u := by
  cases proof with
  | password =>
    obtain ⟨row, hrow, h⟩ := h
    exact ⟨row, hrow.mono hlog, h⟩
  | totp step => exact hlog h
  | email codeHash => exact GaveMailedCode.mono hlog h

theorem AuthEvent.Backed.mono {e : AuthEvent} (h : e.Backed log) : e.Backed log' := by
  cases e with
  | password row use => exact h
  | claimed u step use => trivial
  | mailed u codeHash use => trivial
  | emailed u codeHash use => exact hlog h
  | signedIn sid u how => exact SignIn.Backed.mono hlog h
  | steppedUp sid u proof t => exact StepUpProof.Backed.mono hlog h
  | passed sid u passage now =>
    cases passage with
    | fresh =>
      obtain ⟨proof, t, hproof, h⟩ := h
      exact ⟨proof, t, hlog hproof, h⟩
    | exempt => trivial
    | unknownUser => trivial

theorem LoginSession.Backed.mono {sid : Nat} {s : LoginSession} (h : s.Backed log sid) : s.Backed log' sid where
  user := fun u hu => (h.user u hu).imp fun _ h => hlog h
  pendingUser := fun u hu => (h.pendingUser u hu).imp fun _ h => ⟨hlog h.1, h.2⟩
  pendingCode := fun p hp => (h.pendingCode p hp).imp fun _ h => ⟨h.1, hlog h.2⟩
  stepUpCode := fun p hp => (h.stepUpCode p hp).imp fun _ h => ⟨h.1, hlog h.2⟩
  stepUp := fun t ht => (h.stepUp t ht).imp fun _ h => ⟨h.1, h.2.imp fun _ h => hlog h⟩

theorem AuthPc.Backed.mono {session : LoginSession} {pc : AuthPc} (h : pc.Backed log session) :
    pc.Backed log' session := by
  cases pc with
  | loginRegenerate row => exact hlog h
  | loginSave row => exact hlog h
  | verifyRegenerate row how => exact SignIn.Backed.mono hlog h
  | verifySave row how => exact SignIn.Backed.mono hlog h
  | stamp u method proof => exact StepUpProof.Backed.mono hlog h
  | _ => exact h

theorem AuthFlight.Backed.mono {f : AuthFlight} (h : f.Backed log) : f.Backed log' :=
  ⟨h.session.mono hlog, h.pc.mono hlog⟩

end mono

/-! ### Claims -/

@[simp] theorem claims_cons_claimed {u : Nat} {step : Int} {use : FactorUse} {log : List AuthEvent} :
    claims u (.claimed u step use :: log) = step :: claims u log := List.filterMap_cons_some (if_pos rfl)

theorem claims_cons_of_ne {u v : Nat} {step : Int} {use : FactorUse} {log : List AuthEvent} (h : v ≠ u) :
    claims u (.claimed v step use :: log) = claims u log := List.filterMap_cons_none (if_neg h)

theorem claims_cons_of_none {u : Nat} {e : AuthEvent} {log : List AuthEvent} (he : e.claim u = none) :
    claims u (e :: log) = claims u log := List.filterMap_cons_none he

theorem mem_claims {u : Nat} {step : Int} {use : FactorUse} {log : List AuthEvent} (h : .claimed u step use ∈ log) :
    step ∈ claims u log := List.mem_filterMap.mpr ⟨_, h, if_pos rfl⟩

theorem use_unique {u : Nat} {step : Int} {use use' : FactorUse} {log : List AuthEvent}
    (h : (claims u log).Pairwise (· > ·)) (huse : .claimed u step use ∈ log) (huse' : .claimed u step use' ∈ log) :
    use = use' := by
  induction log with
  | nil => contradiction
  | cons e log ih =>
    by_cases he : ∃ x, e = .claimed u step x
    · obtain ⟨x, rfl⟩ := he
      rw [claims_cons_claimed, List.pairwise_cons] at h
      have hold : ∀ y, .claimed u step y ∈ log → False := fun y hy => lt_irrefl step (h.1 step (mem_claims hy))
      have hhead : ∀ y, .claimed u step y ∈ AuthEvent.claimed u step x :: log → y = x := by
        intro y hy
        rcases List.mem_cons.mp hy with hy | hy
        · injection hy
        · exact (hold y hy).elim
      rw [hhead use huse, hhead use' huse']
    · have htail : ∀ y, .claimed u step y ∈ e :: log → .claimed u step y ∈ log := by
        intro y hy
        rcases List.mem_cons.mp hy with hy | hy
        · exact (he ⟨y, hy.symm⟩).elim
        · exact hy
      refine ih ?_ (htail use huse) (htail use' huse')
      cases hclaim : e.claim u with
      | none => rwa [claims_cons_of_none hclaim] at h
      | some x =>
        rw [claims, List.filterMap_cons_some hclaim, List.pairwise_cons] at h
        exact h.2

namespace ClaimOrder

variable {accounts : Table FactorAccount.id} {log : List AuthEvent}

theorem record (h : ClaimOrder accounts log) {e : AuthEvent} (he : ∀ u, e.claim u = none) :
    ClaimOrder accounts (e :: log) := by
  have hsame : ∀ u, claims u (e :: log) = claims u log := fun u => claims_cons_of_none (he u)
  exact ⟨fun u => hsame u ▸ h.sorted u, fun row hrow => hsame row.id ▸ h.last row hrow, fun u => hsame u ▸ h.known u⟩

theorem update (h : ClaimOrder accounts log) {p : FactorAccount → Bool} {f : FactorAccount → FactorAccount}
    {hf : ∀ r, (f r).id = r.id} (hkeep : ∀ r, (f r).totpLastStep = r.totpLastStep) :
    ClaimOrder (accounts.update p f hf) log where
  sorted := h.sorted
  last := by
    intro row hrow step hstep
    obtain ⟨old, hold, rfl⟩ := Table.mem_update.mp hrow
    split at hstep
    · rename_i hp
      rw [if_pos hp, hkeep]
      exact h.last old hold step (hf old ▸ hstep)
    · rename_i hp
      rw [if_neg hp]
      exact h.last old hold step hstep
  known := h.known

theorem insert (h : ClaimOrder accounts log) {mk : Nat → FactorAccount} {hmk : ∀ k, (mk k).id = k} :
    ClaimOrder (accounts.insert mk hmk) log where
  sorted := h.sorted
  last := by
    intro row hrow step hstep
    rcases Table.mem_insert.mp hrow with hrow | rfl
    · exact h.last row hrow step hstep
    · rw [hmk] at hstep
      exact absurd (h.known _ step hstep) (lt_irrefl _)
  known := fun u step hstep => Nat.lt_succ_of_lt (h.known u step hstep)

theorem delete (h : ClaimOrder accounts log) {p : FactorAccount → Bool} : ClaimOrder (accounts.delete p) log :=
  ⟨h.sorted, fun row hrow => h.last row (Table.mem_delete.mp hrow).1, h.known⟩

theorem lt_of_newer (h : ClaimOrder accounts log) {row : FactorAccount} (hrow : row ∈ accounts.rows) {step : Int}
    (hnewer : AuthState.newerStep step row = true) : ∀ x ∈ claims row.id log, x < step := by
  intro x hx
  obtain ⟨last, hlast, hle⟩ := h.last row hrow x hx
  rw [AuthState.newerStep, Option.mem_def.mp hlast, Option.all_some, decide_eq_true_eq] at hnewer
  exact lt_of_le_of_lt hle hnewer

/-- The conditional update of the last step, whatever else it writes. -/
theorem claim (h : ClaimOrder accounts log) {row : FactorAccount} (hrow : row ∈ accounts.rows) {step : Int}
    (hnewer : AuthState.newerStep step row = true) (use : FactorUse) {p : FactorAccount → Bool}
    {f : FactorAccount → FactorAccount} (hf : ∀ r, (f r).id = r.id) (hp : ∀ r, p r = true → r.id = row.id)
    (hprow : p row = true) (hset : ∀ r, (f r).totpLastStep = some step) :
    ClaimOrder (accounts.update p f hf) (.claimed row.id step use :: log) where
  sorted := by
    intro u
    by_cases hu : row.id = u
    · subst hu
      rw [claims_cons_claimed, List.pairwise_cons]
      exact ⟨h.lt_of_newer hrow hnewer, h.sorted row.id⟩
    · rw [claims_cons_of_ne hu]
      exact h.sorted u
  last := by
    intro new hnew x hx
    obtain ⟨old, hold, rfl⟩ := Table.mem_update.mp hnew
    by_cases hid : old.id = row.id
    · obtain rfl := Table.eq_of_key hold hrow hid
      rw [if_pos hprow] at hx ⊢
      rw [hf, claims_cons_claimed] at hx
      refine ⟨step, hset old, ?_⟩
      rcases List.mem_cons.mp hx with rfl | hx
      · exact le_rfl
      · exact (h.lt_of_newer hold hnewer x hx).le
    · have hpold : ¬p old = true := fun hpold => hid (hp old hpold)
      rw [if_neg hpold] at hx ⊢
      rw [claims_cons_of_ne (Ne.symm hid)] at hx
      exact h.last old hold x hx
  known := by
    intro u x hx
    by_cases hu : row.id = u
    · exact hu ▸ (accounts.bounds row hrow).2
    · rw [claims_cons_of_ne hu] at hx
      exact h.known u x hx

end ClaimOrder

/-! ### Codes of sessions -/

theorem BackedLog.mem {log : List AuthEvent} (h : BackedLog log) {e : AuthEvent} (he : e ∈ log) : e.Backed log := by
  induction log with
  | nil => contradiction
  | cons a log ih =>
    have hlog := List.subset_cons_self a log
    rcases List.mem_cons.mp he with rfl | he
    · exact h.1.mono hlog
    · exact (ih h.2 he).mono hlog

theorem claimed_of_spends {log : List AuthEvent} (h : BackedLog log) {u : Nat} {step : Int}
    (hspent : (u, step) ∈ log.filterMap AuthEvent.spends) : .claimed u step .signIn ∈ log := by
  obtain ⟨e, he, hspends⟩ := List.mem_filterMap.mp hspent
  have hbacked := h.mem he
  unfold AuthEvent.spends at hspends
  split at hspends
  · obtain ⟨rfl, rfl⟩ := Prod.mk.inj (Option.some.inj hspends)
    exact hbacked.1
  · contradiction

theorem claimed_of_held {log : List AuthEvent} {session : LoginSession} {pc : AuthPc} (h : pc.Backed log session)
    {u : Nat} {step : Int} (hheld : pc.spends = some (u, step)) : .claimed u step .signIn ∈ log := by
  unfold AuthPc.spends at hheld
  split at hheld
  · obtain ⟨rfl, rfl⟩ := Prod.mk.inj (Option.some.inj hheld)
    exact h.1
  · obtain ⟨rfl, rfl⟩ := Prod.mk.inj (Option.some.inj hheld)
    exact h.1
  · contradiction

namespace SpentOnce

variable {flights : Registry AuthFlight} {log : List AuthEvent}

theorem record (h : SpentOnce flights log) {e : AuthEvent} (he : e.spends = none) : SpentOnce flights (e :: log) := by
  have hsame : (e :: log).filterMap AuthEvent.spends = log.filterMap AuthEvent.spends := List.filterMap_cons_none he
  exact ⟨hsame ▸ h.nodup, hsame ▸ h.held⟩

theorem erase (h : SpentOnce flights log) (rid : Nat) : SpentOnce (flights.erase rid) log where
  nodup := h.nodup
  held := by
    intro t f hget x hx
    obtain ⟨hnew, hsole⟩ := h.held t f (Registry.get_erase_eq_some hget).2 x hx
    exact ⟨hnew, fun t' f' hget' => hsole t' f' (Registry.get_erase_eq_some hget').2⟩

theorem put (h : SpentOnce flights log) {rid : Nat} {f : AuthFlight} (hheld : ∀ x ∈ f.pc.spends,
    x ∉ log.filterMap AuthEvent.spends ∧ ∀ t g, flights.get t = some g → g.pc.spends = some x → t = rid) :
    SpentOnce (flights.put rid f) log where
  nodup := h.nodup
  held := by
    intro t g hget x hx
    rcases Registry.get_put_eq_some hget with ⟨rfl, rfl⟩ | ⟨hne, hold⟩
    · refine ⟨(hheld x hx).1, fun t' g' hget' hx' => ?_⟩
      rcases Registry.get_put_eq_some hget' with ⟨rfl, -⟩ | ⟨-, hold'⟩
      · rfl
      · exact (hheld x hx).2 t' g' hold' hx'
    · refine ⟨(h.held t g hold x hx).1, fun t' g' hget' hx' => ?_⟩
      rcases Registry.get_put_eq_some hget' with ⟨rfl, rfl⟩ | ⟨-, hold'⟩
      · exact absurd ((hheld x hx').2 t g hold hx) hne
      · exact (h.held t g hold x hx).2 t' g' hold' hx'

theorem spend (h : SpentOnce flights log) {rid : Nat} {f : AuthFlight} (hget : flights.get rid = some f)
    {e : AuthEvent} (he : ∀ x ∈ e.spends, f.pc.spends = some x) : SpentOnce (flights.erase rid) (e :: log) := by
  cases hspends : e.spends with
  | none => exact (h.erase rid).record hspends
  | some x =>
    have hlog : (e :: log).filterMap AuthEvent.spends = x :: log.filterMap AuthEvent.spends :=
      List.filterMap_cons_some hspends
    obtain ⟨hnew, hsole⟩ := h.held rid f hget x (he x hspends)
    refine ⟨hlog ▸ List.nodup_cons.mpr ⟨hnew, h.nodup⟩, fun t g hget' y hy => ?_⟩
    obtain ⟨hne, hget'⟩ := Registry.get_erase_eq_some hget'
    obtain ⟨hold, hother⟩ := h.held t g hget' y hy
    refine ⟨?_, fun t' g' hget'' => hother t' g' (Registry.get_erase_eq_some hget'').2⟩
    rw [hlog, List.mem_cons, not_or]
    refine ⟨?_, hold⟩
    rintro rfl
    exact hne (hsole t g hget' hy)

end SpentOnce

/-! ### Operations -/

theorem find_any {accounts : Table FactorAccount.id} {u : Nat} {q : FactorAccount → Bool}
    (h : (accounts.find u).any q = true) : ∃ row ∈ accounts.rows, row.id = u ∧ q row = true := by
  obtain ⟨row, hfind, hq⟩ := (Option.any_eq_true _ _).mp h
  obtain ⟨hrow, hid⟩ := Table.find_eq_some.mp hfind
  exact ⟨row, hrow, hid, hq⟩

namespace AuthState.Backed

variable {s : AuthState} {rid : Nat} {f : AuthFlight}

theorem record (h : s.Backed) {e : AuthEvent} (he : e.Backed s.log) (hclaim : ∀ u, e.claim u = none)
    (hspends : e.spends = none) : (s.record e).Backed where
  events := ⟨he, h.events⟩
  claims := h.claims.record hclaim
  spent := h.spent.record hspends
  sessions := fun sid session hget => (h.sessions sid session hget).mono (List.subset_cons_self e s.log)
  flights := fun rid f hget => (h.flights rid f hget).mono (List.subset_cons_self e s.log)

theorem setAccounts (h : s.Backed) {accounts : Table FactorAccount.id} (hclaims : ClaimOrder accounts s.log) :
    { s with accounts }.Backed := ⟨h.events, hclaims, h.spent, h.sessions, h.flights⟩

theorem eraseFlight (h : s.Backed) (rid : Nat) : { s with flights := s.flights.erase rid }.Backed where
  events := h.events
  claims := h.claims
  spent := h.spent.erase rid
  sessions := h.sessions
  flights := by
    intro t f hget
    exact h.flights t f (Registry.get_erase_eq_some hget).2

theorem putSession (h : s.Backed) {sid : Nat} {session : LoginSession} (hsession : session.Backed s.log sid) :
    { s with sessions := s.sessions.put sid session }.Backed where
  events := h.events
  claims := h.claims
  spent := h.spent
  sessions := by
    intro t b hget
    rcases Registry.get_put_eq_some hget with ⟨rfl, rfl⟩ | ⟨-, hget⟩
    · exact hsession
    · exact h.sessions t b hget
  flights := h.flights

theorem eraseSession (h : s.Backed) (sid : Nat) : { s with sessions := s.sessions.erase sid }.Backed where
  events := h.events
  claims := h.claims
  spent := h.spent
  sessions := by
    intro t b hget
    exact h.sessions t b (Registry.get_erase_eq_some hget).2
  flights := h.flights

theorem putFlight (h : s.Backed) (hf : f.Backed s.log) (hheld : ∀ x ∈ f.pc.spends,
    x ∉ s.log.filterMap AuthEvent.spends ∧ ∀ t g, s.flights.get t = some g → g.pc.spends = some x → t = rid) :
    { s with flights := s.flights.put rid f }.Backed where
  events := h.events
  claims := h.claims
  spent := h.spent.put hheld
  sessions := h.sessions
  flights := by
    intro t g hget
    rcases Registry.get_put_eq_some hget with ⟨-, rfl⟩ | ⟨-, hget⟩
    · exact hf
    · exact h.flights t g hget

theorem goto (h : s.Backed) (hsession : f.session.Backed s.log f.sid) {pc : AuthPc} (hpc : pc.Backed s.log f.session)
    (hspends : pc.spends = none) : (s.goto rid f pc).Backed := by
  refine h.putFlight ⟨hsession, hpc⟩ fun x hx => ?_
  rw [hspends] at hx
  contradiction

theorem finish (h : s.Backed) {session : LoginSession} (hsession : session.Backed s.log f.sid) :
    (s.finish rid f session).Backed := by
  rw [AuthState.finish]
  split
  · exact h.eraseFlight rid
  · exact (h.putSession hsession).eraseFlight rid

/-- A claim, with whatever else its statement writes. -/
theorem claim (h : s.Backed) {row : FactorAccount} (hrow : row ∈ s.accounts.rows) {step : Int}
    (hnewer : newerStep step row = true) (use : FactorUse) {p : FactorAccount → Bool}
    {f : FactorAccount → FactorAccount} (hf : ∀ r, (f r).id = r.id) (hp : ∀ r, p r = true → r.id = row.id)
    (hprow : p row = true) (hset : ∀ r, (f r).totpLastStep = some step) :
    { s with accounts := s.accounts.update p f hf, log := .claimed row.id step use :: s.log }.Backed where
  events := ⟨trivial, h.events⟩
  claims := h.claims.claim hrow hnewer use hf hp hprow hset
  spent := h.spent.record rfl
  sessions := fun sid session hget => (h.sessions sid session hget).mono (List.subset_cons_self _ s.log)
  flights := fun rid f hget => (h.flights rid f hget).mono (List.subset_cons_self _ s.log)

theorem accept (h : s.Backed) {u : Nat} {step : Int} {use : FactorUse} {s' : AuthState}
    (haccept : s.acceptTotpStep u step use = some s') : s'.Backed ∧ s'.log = .claimed u step use :: s.log ∧
      (u, step) ∉ s'.log.filterMap AuthEvent.spends ∧
      ∀ t g, s'.flights.get t = some g → g.pc.spends ≠ some (u, step) := by
  rw [AuthState.acceptTotpStep] at haccept
  split at haccept
  · contradiction
  split at haccept
  · rename_i hfind
    obtain rfl := Option.some.inj haccept
    obtain ⟨row, hrow, hid, hnewer⟩ := find_any hfind
    subst hid
    have hnew : ∀ use, .claimed row.id step use ∉ s.log := fun use huse =>
      lt_irrefl step (h.claims.lt_of_newer hrow hnewer step (mem_claims huse))
    refine ⟨?_, rfl, fun hspent => hnew .signIn (claimed_of_spends h.events hspent), fun t g hget hheld => ?_⟩
    · refine h.claim hrow hnewer use _ (fun r hr => ?_) ?_ ?_
      · rw [Bool.and_eq_true, decide_eq_true_eq] at hr
        exact hr.1
      · rw [decide_eq_true rfl, Bool.true_and, hnewer]
      · exact fun _ => rfl
    · exact hnew .signIn (claimed_of_held (h.flights t g hget).pc hheld)
  · contradiction

end AuthState.Backed

namespace LoginSession.Backed

variable {log : List AuthEvent} {sid : Nat}

theorem empty : LoginSession.empty.Backed log sid where
  user := fun u hu => by contradiction
  pendingUser := fun u hu => by contradiction
  pendingCode := fun p hp => by contradiction
  stepUpCode := fun p hp => by contradiction
  stepUp := fun t ht => by contradiction

theorem clearPendingTotp {s : LoginSession} (h : s.Backed log sid) : s.clearPendingTotp.Backed log sid :=
  ⟨h.user, h.pendingUser, h.pendingCode, h.stepUpCode, h.stepUp⟩

theorem clearEmailSetup {s : LoginSession} (h : s.Backed log sid) :
    { s with pendingEmailOtpSetup := none }.Backed log sid :=
  ⟨h.user, h.pendingUser, h.pendingCode, h.stepUpCode, h.stepUp⟩

theorem halfway {row : FactorAccount} (hrow : .password row .signIn ∈ log) {pending : Option PendingEmailOtp}
    (hpending : ∀ p ∈ pending, .mailed row.id p.codeHash .signIn ∈ log) :
    { LoginSession.empty with pendingMfaUserId := some row.id, pendingEmailOtp := pending }.Backed log sid where
  user := empty.user
  pendingUser := fun _ hu => ⟨row, hrow, Option.some.inj hu⟩
  pendingCode := fun p hp => ⟨row.id, rfl, hpending p hp⟩
  stepUpCode := (@empty log sid).stepUpCode
  stepUp := (@empty log sid).stepUp

theorem signedIn {u : Nat} {how : SignIn} (h : .signedIn sid u how ∈ log) :
    { LoginSession.empty with userId := some u }.Backed log sid where
  user := fun v hv => ⟨how, Option.some.inj hv ▸ h⟩
  pendingUser := (@empty log sid).pendingUser
  pendingCode := (@empty log sid).pendingCode
  stepUpCode := fun p hp => by contradiction
  stepUp := (@empty log sid).stepUp

end LoginSession.Backed

theorem no_factor_of_password {row : FactorAccount} {mailServer : Bool}
    (h : StepUpMethod.password ∈ row.methods mailServer) : row.hasTotp = false ∧ row.emailOtpEnabled = false := by
  simp only [FactorAccount.methods, List.mem_append] at h
  rcases h with (h | h) | h
  · split at h
    · exact absurd h (by decide)
    · contradiction
  · split at h
    · exact absurd h (by decide)
    · contradiction
  · split at h
    · rename_i hnone
      simp only [Bool.and_eq_true, Bool.not_eq_true'] at hnone
      exact hnone.1
    · contradiction

theorem isFresh_iff {session : LoginSession} {now : Int} : session.isFresh now = true ↔
    (∃ u, session.userId = some u) ∧ ∀ u, session.userId = some u → ∃ t, session.stepUpAt = some t ∧
      session.stepUpUserId = some u ∧ t ≤ now ∧ now < t + stepUpTtlMs := by
  rw [LoginSession.isFresh]
  split
  · rename_i u t hu ht
    simp only [hu, ht, Bool.and_eq_true, decide_eq_true_eq, Option.some.injEq, exists_eq_left', forall_eq', exists_eq',
      true_and, and_assoc]
    have hage : 0 ≤ now - t ↔ t ≤ now := by omega
    have httl : now - t < stepUpTtlMs ↔ now < t + stepUpTtlMs := by omega
    rw [hage, httl]
  · rename_i hnone
    refine iff_of_false Bool.false_ne_true fun ⟨⟨u, hu⟩, h⟩ => ?_
    obtain ⟨t, ht, -⟩ := h u hu
    exact hnone u t hu ht

theorem codeHash_wrongEmailOtp {pending p : PendingEmailOtp} {now : Int} (h : wrongEmailOtp pending now = some p) :
    p.codeHash = pending.codeHash := by
  rw [wrongEmailOtp] at h
  split at h
  · contradiction
  · rw [← Option.some.inj h]

namespace AuthState.Backed

variable {env : FactorEnv} {s : AuthState} {rid : Nat} {f : AuthFlight}

theorem loginSave (h : s.Backed) {row : FactorAccount} (hrow : .password row .signIn ∈ s.log) (now : Int)
    (fresh : String) (newSid : Nat) (mailServer : Bool) :
    (s.loginSave env rid row now fresh newSid mailServer).Backed := by
  have hs := h.eraseFlight rid
  unfold AuthState.loginSave
  dsimp only
  split
  · split
    · rename_i email _
      have hrecord := hs.record (e := .mailed row.id (newEmailOtp env fresh email now).codeHash .signIn) trivial
        (fun _ => rfl) rfl
      refine hrecord.putSession (LoginSession.Backed.halfway (List.mem_cons_of_mem _ hrow) fun p hp => ?_)
      rw [← Option.some.inj hp]
      exact List.mem_cons_self
    · exact hs.putSession (LoginSession.Backed.halfway hrow fun _ hp => by contradiction)
  · rename_i hnone
    rw [Bool.not_eq_true, Bool.or_eq_false_iff] at hnone
    have hpassword : GavePassword s.log row.id .signIn row := ⟨hrow, rfl, h.events.mem hrow⟩
    have hrecord := hs.record (e := .signedIn newSid row.id .password) ⟨row, hpassword, hnone⟩ (fun _ => rfl) rfl
    exact hrecord.putSession (LoginSession.Backed.signedIn List.mem_cons_self)

theorem verifyCheck (h : s.Backed) (hf : f.session.Backed s.log f.sid) {row : FactorAccount}
    (hrow : f.session.pendingMfaUserId = some row.id) (method code : String) (now : Int) :
    (s.verifyCheck env rid f row method code now).Backed := by
  obtain ⟨given, hgiven, hid⟩ := hf.pendingUser row.id hrow
  have hpassword : GavePassword s.log row.id .signIn given := ⟨hgiven, hid, h.events.mem hgiven⟩
  unfold AuthState.verifyCheck
  split
  · split
    · exact h.finish hf
    · split
      · exact h.finish hf
      · rename_i step _ _ s' haccept
        obtain ⟨hs', hlog, hspent, hheld⟩ := h.accept haccept
        have hsub : s.log ⊆ s'.log := hlog ▸ List.subset_cons_self _ _
        have hclaimed : .claimed row.id step .signIn ∈ s'.log := hlog ▸ List.mem_cons_self
        have hbacked : SignIn.Backed s'.log row.id (.totp step) := ⟨hclaimed, given, hpassword.mono hsub⟩
        refine hs'.putFlight ⟨hf.mono hsub, hbacked⟩ fun x hx => ?_
        rw [← Option.some.inj hx]
        exact ⟨hspent, fun t g hget hg => (hheld t g hget hg).elim⟩
  · split
    · split
      · exact h.finish hf
      · rename_i pending hpending
        split
        · obtain ⟨u, hu, hmailed⟩ := hf.pendingCode pending hpending
          obtain rfl : row.id = u := Option.some.inj (hrow.symm.trans hu)
          have hrecord := h.record (e := .emailed row.id pending.codeHash .signIn) hmailed (fun _ => rfl) rfl
          have hlog := List.subset_cons_self (AuthEvent.emailed row.id pending.codeHash .signIn) s.log
          have hbacked : SignIn.Backed (.emailed row.id pending.codeHash .signIn :: s.log) row.id
              (.email pending.codeHash) := ⟨⟨hlog hmailed, List.mem_cons_self⟩, given, hpassword.mono hlog⟩
          exact hrecord.goto (hf.mono hlog) hbacked rfl
        · refine h.finish ⟨hf.user, hf.pendingUser, fun p hp => ?_, hf.stepUpCode, hf.stepUp⟩
          rw [codeHash_wrongEmailOtp hp]
          exact hf.pendingCode pending hpending
    · exact h.finish hf

theorem stamp (h : s.Backed) {session : LoginSession} (hf : session.Backed s.log f.sid) {u : Nat}
    (method : StepUpMethod) {proof : StepUpProof} (hproof : proof.Backed s.log u) (now : Int) :
    (s.stamp rid f session u method proof now).Backed := by
  have hlog := List.subset_cons_self (AuthEvent.steppedUp f.sid u proof now) s.log
  have hrecord := h.record (e := .steppedUp f.sid u proof now) hproof (fun _ => rfl) rfl
  have hsession := hf.mono hlog
  refine hrecord.finish ⟨hsession.user, hsession.pendingUser, hsession.pendingCode, hsession.stepUpCode, ?_⟩
  intro t ht
  obtain rfl := Option.some.inj ht
  exact ⟨u, rfl, proof, List.mem_cons_self⟩

theorem stepUpCheck (h : s.Backed) (hf : f.session.Backed s.log f.sid) {row : FactorAccount}
    (hrow : f.session.userId = some row.id) (method : StepUpMethod) (code password : String) (now : Int)
    (mailServer : Bool) : (s.stepUpCheck env rid f row method code password now mailServer).Backed := by
  unfold AuthState.stepUpCheck
  split
  · exact h.finish hf
  rename_i hmethod
  rw [not_or, not_not] at hmethod
  cases method with
  | totp =>
    dsimp only
    split
    · exact h.finish hf
    · rename_i step hstep
      split
      · exact h.finish hf
      · rename_i s' haccept
        obtain ⟨hs', hlog, -⟩ := h.accept haccept
        have hproof : StepUpProof.Backed s'.log row.id (.totp step) := hlog ▸ List.mem_cons_self
        exact hs'.goto (hf.mono (hlog ▸ List.subset_cons_self _ _)) hproof rfl
  | email =>
    dsimp only
    split
    · exact h.finish hf
    · rename_i pending hpending
      split
      · exact h.finish hf
      · split
        · obtain ⟨u, hu, hmailed⟩ := hf.stepUpCode pending hpending
          obtain rfl : row.id = u := Option.some.inj (hrow.symm.trans hu)
          have hlog := List.subset_cons_self (AuthEvent.emailed row.id pending.codeHash .stepUp) s.log
          have hrecord := h.record (e := .emailed row.id pending.codeHash .stepUp) hmailed (fun _ => rfl) rfl
          have hsession := hf.mono hlog
          have hused : LoginSession.Backed (.emailed row.id pending.codeHash .stepUp :: s.log) f.sid
              { f.session with stepUpEmailOtp := none } :=
            ⟨hsession.user, hsession.pendingUser, hsession.pendingCode, fun _ hp => by contradiction, hsession.stepUp⟩
          have hproof : StepUpProof.Backed (.emailed row.id pending.codeHash .stepUp :: s.log) row.id
              (.email pending.codeHash) := ⟨hlog hmailed, List.mem_cons_self⟩
          exact hrecord.stamp hused .email hproof now
        · refine h.finish ⟨hf.user, hf.pendingUser, hf.pendingCode, fun p hp => ?_, hf.stepUp⟩
          dsimp only at hp
          split at hp
          · rw [codeHash_wrongEmailOtp hp]
            exact hf.stepUpCode pending hpending
          · contradiction
  | password =>
    dsimp only
    split
    · rename_i hpassword
      have hlocal : row.isSso = false := Bool.eq_false_iff.mpr hmethod.1
      have hrecord := h.record (e := .password row .stepUp) hlocal (fun _ => rfl) rfl
      have hproof : StepUpProof.Backed (.password row .stepUp :: s.log) row.id .password :=
        ⟨row, ⟨List.mem_cons_self, rfl, hlocal⟩, no_factor_of_password hmethod.2⟩
      exact hrecord.stamp (hf.mono (List.subset_cons_self _ _)) .password hproof now
    · exact h.finish hf

theorem proofCheck (h : s.Backed) (hf : f.session.Backed s.log f.sid) (change : FactorChange) (row : FactorAccount)
    (proof : FactorProof) (now : Int) : (s.proofCheck env rid f change row proof now).Backed := by
  unfold AuthState.proofCheck
  split
  · split
    · exact h.finish hf
    · split
      · exact h.finish hf
      · rename_i step hstep s' haccept
        obtain ⟨hs', hlog, -⟩ := h.accept haccept
        exact hs'.goto (hf.mono (hlog ▸ List.subset_cons_self _ _)) trivial rfl
  · split
    · exact h.finish hf
    · rename_i hsso
      split
      · have hrecord := h.record (e := .password row .change) (Bool.eq_false_iff.mpr hsso) (fun _ => rfl) rfl
        exact hrecord.goto (hf.mono (List.subset_cons_self _ _)) trivial rfl
      · exact h.finish hf

theorem applyChange (h : s.Backed) (hf : f.session.Backed s.log f.sid) (change : FactorChange) (u : Nat) (now : Int)
    (fresh : String) : (s.applyChange env rid f change u now fresh).Backed := by
  cases change with
  | totpSetup replaces => exact h.finish ⟨hf.user, hf.pendingUser, hf.pendingCode, hf.stepUpCode, hf.stepUp⟩
  | totpDisable =>
    refine goto (h.setAccounts (h.claims.update ?_)) hf.clearPendingTotp trivial rfl
    exact fun _ => rfl
  | emailSetup email =>
    let pending := newEmailOtp env fresh email now
    have hrecord := h.record (e := .mailed u pending.codeHash .change) trivial (fun _ => rfl) rfl
    have hsession := hf.mono (List.subset_cons_self (.mailed u pending.codeHash .change) s.log)
    exact hrecord.finish
      ⟨hsession.user, hsession.pendingUser, hsession.pendingCode, hsession.stepUpCode, hsession.stepUp⟩
  | emailDisable =>
    refine goto (h.setAccounts (h.claims.update ?_)) hf.clearEmailSetup trivial rfl
    exact fun _ => rfl

theorem totpEnable (h : s.Backed) (hf : f.session.Backed s.log f.sid) (u : Nat) (code : String) (now : Int) :
    (s.totpEnable env rid f u code now).Backed := by
  have hcleared := hf.clearPendingTotp
  unfold AuthState.totpEnable
  dsimp only
  split
  · exact h.finish hf
  · split
    · exact h.finish hcleared
    · split
      · exact h.finish hf
      · rename_i step hstep
        split
        · rename_i hfind
          obtain ⟨row, hrow, hid, hfree⟩ := find_any hfind
          subst hid
          refine goto (h.claim hrow (Bool.and_eq_true_iff.mp hfree).1 .change _ (fun r hr => ?_) ?_ ?_)
            (hcleared.mono (List.subset_cons_self _ _)) trivial rfl
          · rw [Bool.and_eq_true, decide_eq_true_eq] at hr
            exact hr.1
          · rw [decide_eq_true rfl, Bool.true_and, hfree]
          · exact fun _ => rfl
        · exact h.goto hf trivial rfl

theorem sendStepUpCode (h : s.Backed) (hf : f.session.Backed s.log f.sid) {u : Nat} (hu : f.session.userId = some u)
    (now : Int) (fresh : String) (mailServer : Bool) :
    (s.startSignedIn env rid f u .sendStepUpCode now fresh mailServer).Backed := by
  rw [AuthState.startSignedIn]
  split
  · exact h.finish hf
  · rename_i row _
    split
    · exact h.finish hf
    · split
      · exact h.finish hf
      · let pending := newEmailOtp env fresh (trimCode (row.email.getD "")) now
        have hrecord := h.record (e := .mailed u pending.codeHash .stepUp) trivial (fun _ => rfl) rfl
        have hsession := hf.mono (List.subset_cons_self (.mailed u pending.codeHash .stepUp) s.log)
        refine hrecord.finish
          ⟨hsession.user, hsession.pendingUser, hsession.pendingCode, fun p hp => ?_, hsession.stepUp⟩
        rw [← Option.some.inj hp]
        exact ⟨u, hu, List.mem_cons_self⟩

theorem startSignedIn (h : s.Backed) (hf : f.session.Backed s.log f.sid) {u : Nat} (hu : f.session.userId = some u)
    (r : AuthRequest) (now : Int) (fresh : String) (mailServer : Bool) :
    (s.startSignedIn env rid f u r now fresh mailServer).Backed := by
  cases r with
  | sendStepUpCode => exact h.sendStepUpCode hf hu now fresh mailServer
  | stepUp method code password =>
    rw [AuthState.startSignedIn]
    split
    · exact h.finish hf
    · rename_i row hrow
      refine h.goto hf (hu.trans (congrArg some ?_)) rfl
      rw [AuthState.activeAccount, Option.filter_eq_some_iff] at hrow
      exact (Table.find_eq_some.mp hrow.1).2.symm
  | totpSetup proof =>
    rw [AuthState.startSignedIn]
    split
    · exact h.finish hf
    · split
      · exact h.goto hf trivial rfl
      · exact h.goto hf trivial rfl
  | totpEnable code => exact h.totpEnable hf u code now
  | totpDisable proof =>
    rw [AuthState.startSignedIn]
    split
    · exact h.goto hf trivial rfl
    · exact h.goto hf trivial rfl
  | emailSetup asked proof =>
    unfold AuthState.startSignedIn
    dsimp only
    split
    · exact h.finish hf
    · exact h.goto hf trivial rfl
  | emailEnable code =>
    rw [AuthState.startSignedIn]
    split
    · exact h.finish hf
    · split
      · exact h.goto hf trivial rfl
      · exact h.finish ⟨hf.user, hf.pendingUser, hf.pendingCode, hf.stepUpCode, hf.stepUp⟩
  | emailDisable proof =>
    rw [AuthState.startSignedIn]
    split
    · exact h.goto hf trivial rfl
    · exact h.goto hf trivial rfl
  | logout => exact (h.eraseSession f.sid).eraseFlight rid
  | sensitive =>
    rw [AuthState.startSignedIn]
    split
    · rename_i hfresh
      obtain ⟨t, ht, hstepUp, hage, httl⟩ := (isFresh_iff.mp hfresh).2 u hu
      obtain ⟨v, hv, proof, hproof⟩ := hf.stepUp t ht
      obtain rfl : u = v := Option.some.inj (hstepUp.symm.trans hv)
      have hlog := List.subset_cons_self (AuthEvent.passed f.sid u .fresh now) s.log
      have hrecord := h.record (e := .passed f.sid u .fresh now) ⟨proof, t, hproof, hage, httl⟩ (fun _ => rfl) rfl
      exact hrecord.goto (hf.mono hlog) trivial rfl
    · exact h.goto hf trivial rfl
  | _ => exact h.finish hf

theorem startRequest (h : s.Backed) (hf : f.session.Backed s.log f.sid) (r : AuthRequest) (now : Int) (fresh : String)
    (mailServer : Bool) : (s.startRequest env rid f r now fresh mailServer).Backed := by
  cases r with
  | login username password =>
    rw [AuthState.startRequest]
    split
    · exact h.finish hf
    · rename_i row hrow
      rw [AuthState.authenticate, Option.filter_eq_some_iff, Bool.and_eq_true, Bool.not_eq_true'] at hrow
      have hrecord := h.record (e := .password row .signIn) hrow.2.1 (fun _ => rfl) rfl
      exact hrecord.goto (hf.mono (List.subset_cons_self _ _)) List.mem_cons_self rfl
  | verify method code =>
    rw [AuthState.startRequest]
    split
    · exact h.finish hf
    · rename_i u hu
      split
      · exact h.finish ⟨hf.user, fun _ hv => by contradiction, fun _ hp => by contradiction, hf.stepUpCode, hf.stepUp⟩
      · rename_i row hrow
        refine h.goto hf (hu.trans (congrArg some ?_)) rfl
        rw [AuthState.activeAccount, Option.filter_eq_some_iff] at hrow
        exact (Table.find_eq_some.mp hrow.1).2.symm
  | resendEmail =>
    unfold AuthState.startRequest
    dsimp only
    split
    · exact h.finish hf
    · rename_i u hu
      split
      · exact h.finish hf
      · rename_i email _
        have hrecord := h.record (e := .mailed u (newEmailOtp env fresh email now).codeHash .signIn) trivial
          (fun _ => rfl) rfl
        have hsession := hf.mono
          (List.subset_cons_self (.mailed u (newEmailOtp env fresh email now).codeHash .signIn) s.log)
        refine hrecord.finish
          ⟨hsession.user, hsession.pendingUser, fun p hp => ?_, hsession.stepUpCode, hsession.stepUp⟩
        rw [← Option.some.inj hp]
        exact ⟨u, hu, List.mem_cons_self⟩
  | other => exact (h.putSession hf).eraseFlight rid
  | _ =>
    -- the requests of a signed-in user
    unfold AuthState.startRequest
    dsimp only
    split
    · exact h.finish hf
    · rename_i u hu
      exact h.startSignedIn hf hu _ now fresh mailServer

theorem stepFlight (h : s.Backed) (hget : s.flights.get rid = some f) (now : Int) (fresh : String) (newSid : Nat)
    (mailServer : Bool) : (s.stepFlight env rid f now fresh newSid mailServer).Backed := by
  obtain ⟨hsession, hpc⟩ := h.flights rid f hget
  rw [AuthState.stepFlight]
  cases hcase : f.pc with
  | start r => exact h.startRequest hsession r now fresh mailServer
  | loginRegenerate row =>
    rw [hcase] at hpc
    exact (h.eraseSession f.sid).goto hsession hpc rfl
  | loginSave row =>
    rw [hcase] at hpc
    exact h.loginSave hpc now fresh newSid mailServer
  | verifyCheck row method code =>
    rw [hcase] at hpc
    exact h.verifyCheck hsession hpc method code now
  | verifyRegenerate row how =>
    rw [hcase] at hpc
    refine (h.eraseSession f.sid).putFlight ⟨hsession, hpc⟩ fun x hx => ?_
    have hsame : (AuthPc.verifyRegenerate row how).spends = (AuthPc.verifySave row how).spends := by cases how <;> rfl
    exact h.spent.held rid f hget x ((congrArg AuthPc.spends hcase).trans (hsame.trans hx))
  | verifySave row how =>
    rw [hcase] at hpc
    have hspent : SpentOnce (s.flights.erase rid) (.signedIn newSid row.id how :: s.log) := by
      refine h.spent.spend hget fun x hx => (congrArg AuthPc.spends hcase).trans ?_
      cases how with
      | totp step => exact hx
      | _ => contradiction
    have hlog := List.subset_cons_self (AuthEvent.signedIn newSid row.id how) s.log
    have hrecord : { s with flights := s.flights.erase rid, log := .signedIn newSid row.id how :: s.log }.Backed :=
      ⟨⟨hpc, h.events⟩, h.claims.record fun _ => rfl, hspent, fun t b hget => (h.sessions t b hget).mono hlog,
        fun t g hget => (h.flights t g (Registry.get_erase_eq_some hget).2).mono hlog⟩
    exact hrecord.putSession (LoginSession.Backed.signedIn List.mem_cons_self)
  | stepUpCheck row method code password =>
    rw [hcase] at hpc
    exact h.stepUpCheck hsession hpc method code password now mailServer
  | stamp u method proof =>
    rw [hcase] at hpc
    exact h.stamp hsession method hpc now
  | proofRead change proof =>
    dsimp only
    split
    · exact h.finish hsession
    · exact h.goto hsession trivial rfl
  | proofCheck change row proof => exact h.proofCheck hsession change row proof now
  | change change =>
    dsimp only
    split
    · exact h.finish hsession
    · exact h.applyChange hsession change _ now fresh
  | enableRefused step =>
    dsimp only
    split
    · exact h.finish hsession
    · exact h.finish hsession.clearPendingTotp
  | emailEnable pending =>
    refine goto (h.setAccounts (h.claims.update ?_)) hsession.clearEmailSetup trivial rfl
    exact fun _ => rfl
  | gateRead =>
    dsimp only
    split
    · exact h.finish hsession
    · rename_i u _
      split
      · have hrecord := h.record (e := .passed f.sid u .unknownUser now) trivial (fun _ => rfl) rfl
        exact hrecord.goto (hsession.mono (List.subset_cons_self _ _)) trivial rfl
      · split
        · have hrecord := h.record (e := .passed f.sid u .exempt now) trivial (fun _ => rfl) rfl
          exact hrecord.goto (hsession.mono (List.subset_cons_self _ _)) trivial rfl
        · exact h.finish hsession
  | finish => exact h.finish hsession

theorem step {s s' : AuthState} {a : AuthAction} (h : s.Backed) (hstep : authStep env s a = some s') : s'.Backed := by
  cases a with
  | start sid r =>
    obtain rfl := Option.some.inj hstep
    have hsession : LoginSession.Backed s.log sid ((s.sessions.get sid).getD .empty) := by
      cases hget : s.sessions.get sid with
      | none => exact LoginSession.Backed.empty
      | some session => exact h.sessions sid session hget
    let f : AuthFlight := ⟨sid, (s.sessions.get sid).getD .empty, (s.sessions.get sid).getD .empty, .start r⟩
    have hput : { s with flights := s.flights.put s.nextRid f }.Backed :=
      h.putFlight ⟨hsession, trivial⟩ fun _ hx => by contradiction
    exact ⟨hput.events, hput.claims, hput.spent, hput.sessions, hput.flights⟩
  | step rid now fresh newSid mailServer =>
    obtain ⟨f, hf, rfl⟩ := Option.map_eq_some_iff.mp hstep
    exact h.stepFlight hf now fresh newSid mailServer
  | sso newSid userId =>
    obtain ⟨row, -, rfl⟩ := Option.map_eq_some_iff.mp hstep
    have hrecord := h.record (e := .signedIn newSid row.id .sso) trivial (fun _ => rfl) rfl
    exact hrecord.putSession (LoginSession.Backed.signedIn List.mem_cons_self)
  | destroySession sid =>
    obtain rfl := Option.some.inj hstep
    exact h.eraseSession sid
  | createAccount row =>
    obtain rfl := Option.some.inj hstep
    exact h.setAccounts h.claims.insert
  | setAccount row =>
    obtain rfl := Option.some.inj hstep
    exact h.setAccounts (h.claims.update fun _ => rfl)
  | deleteAccount id =>
    obtain rfl := Option.some.inj hstep
    exact h.setAccounts h.claims.delete

end AuthState.Backed

/-! ## Every run -/

/-- Nobody is signed in yet, and nothing is under way. -/
structure AuthState.Initial (s : AuthState) : Prop where
  sessions : s.sessions = .empty
  flights : s.flights = .empty
  log : s.log = []

theorem AuthState.Initial.backed {s : AuthState} (h : s.Initial) : s.Backed where
  events := h.log ▸ trivial
  claims := by
    rw [h.log]
    exact ⟨fun _ => List.Pairwise.nil, fun _ _ _ hstep => by contradiction, fun _ _ hstep => by contradiction⟩
  spent := by
    rw [h.log, h.flights]
    exact ⟨List.nodup_nil, fun _ _ hget => by contradiction⟩
  sessions := fun _ _ hget => by
    rw [h.sessions] at hget
    contradiction
  flights := fun _ _ hget => by
    rw [h.flights] at hget
    contradiction

section runs
variable {env : FactorEnv} {s s' : AuthState} {actions : List AuthAction}

theorem backed_of_run (h : s.Initial) (hrun : run (authStep env) s actions = some s') : s'.Backed :=
  run_preserves (fun _ _ _ h hstep => h.step hstep) h.backed hrun

/-- The steps accepted for an account grow, in any order of the statements and whatever they are given for; a code signs
in one session at most. -/
theorem totpCode_once (h : s.Initial) (hrun : run (authStep env) s actions = some s') :
    (∀ u, (claims u s'.log).Pairwise (· > ·)) ∧ (s'.log.filterMap AuthEvent.spends).Nodup :=
  have hbacked := backed_of_run h hrun
  ⟨hbacked.claims.sorted, hbacked.spent.nodup⟩

/-- A session of a user was opened with the proofs that the account asked for. -/
theorem session_signedIn (h : s.Initial) (hrun : run (authStep env) s actions = some s') {sid u : Nat}
    {session : LoginSession} (hsession : s'.sessions.get sid = some session) (hu : session.userId = some u) :
    ∃ how, .signedIn sid u how ∈ s'.log ∧ how.Backed s'.log u := by
  have hbacked := backed_of_run h hrun
  obtain ⟨how, hhow⟩ := (hbacked.sessions sid session hsession).user u hu
  exact ⟨how, hhow, hbacked.events.mem hhow⟩

/-- A confirmation that lets a sensitive action through is recent, was proved by its user, and not with the code of a
sign-in. -/
theorem passage_steppedUp (h : s.Initial) (hrun : run (authStep env) s actions = some s') {sid u : Nat} {now : Int}
    (hpassed : .passed sid u .fresh now ∈ s'.log) : ∃ proof t, .steppedUp sid u proof t ∈ s'.log ∧ t ≤ now ∧
      now < t + stepUpTtlMs ∧ proof.Backed s'.log u ∧
      ∀ step, proof = .totp step → (u, step) ∉ s'.log.filterMap AuthEvent.spends := by
  have hbacked := backed_of_run h hrun
  obtain ⟨proof, t, hproof, hage, httl⟩ := hbacked.events.mem hpassed
  have hproved : proof.Backed s'.log u := hbacked.events.mem hproof
  refine ⟨proof, t, hproof, hage, httl, hproved, ?_⟩
  rintro step rfl hspent
  have hsame := use_unique (hbacked.claims.sorted u) hproved (claimed_of_spends hbacked.events hspent)
  contradiction

end runs

/-! ### A run -/

/-- A secret of an authenticator, with two of its codes. -/
def sampleFactors : FactorEnv where
  comparePassword password hash :=
    password = "U*U" && hash = "$2a$05$CCCCCCCCCCCCCCCCCCCCC.E5YPO9kmyuRGyh0XouQYb4YMJKvyOeW"
  validateTotp secret code now _ :=
    if secret = "GEZDGNBVGY3TQOJQGEZDGNBVGY3TQOJQ" ∧
      (code = "287082" ∧ now = 59000 ∨ code = "081804" ∧ now = 1111111109000) then some 0 else none
  encryptSecret secret := secret
  decryptSecret secret := some secret
  hashEmailOtp code := code
  toLowerCase text := text
  lowerTrim text := text

def sampleAccounts : Table FactorAccount.id :=
  Table.empty.insert (fun id => ⟨id, "ann", true, some "$2a$05$CCCCCCCCCCCCCCCCCCCCC.E5YPO9kmyuRGyh0XouQYb4YMJKvyOeW",
    none, true, some "GEZDGNBVGY3TQOJQGEZDGNBVGY3TQOJQ", none, false, none⟩) fun _ => rfl

def sampleAuth : AuthState := ⟨sampleAccounts, .empty, .empty, 0, []⟩

/-- The user signs in; a second request with the same code is refused, another code confirms, and a sensitive action is
let through. -/
def sampleActions : List AuthAction :=
  [.start 1 (.login "ann" "U*U"), .step 0 20000 "" 2 false, .step 0 20000 "" 2 false, .step 0 20000 "" 2 false,
    .start 2 (.verify "totp" "287082"), .start 2 (.verify "totp" "287082"), .step 1 59000 "" 3 false,
    .step 2 59000 "" 4 false, .step 1 59000 "" 3 false, .step 2 59000 "" 4 false, .step 1 59000 "" 3 false,
    .step 1 59000 "" 3 false, .start 3 (.stepUp .totp "081804" ""), .step 3 1111111109000 "" 5 false,
    .step 3 1111111109000 "" 5 false, .step 3 1111111109000 "" 5 false, .start 3 .sensitive,
    .step 4 1111111200000 "" 5 false]

theorem sampleAuth_initial : sampleAuth.Initial := ⟨rfl, rfl, rfl⟩

theorem totpCode_once_sample : ∃ s, run (authStep sampleFactors) sampleAuth sampleActions = some s ∧
    claims 1 s.log = [37037036, 1] ∧ (claims 1 s.log).Pairwise (· > ·) ∧
    (s.log.filterMap AuthEvent.spends).Nodup := by
  have hrun : (run (authStep sampleFactors) sampleAuth sampleActions).any
      (fun s => claims 1 s.log = [37037036, 1]) = true := by decide +kernel
  obtain ⟨s, hs, hclaims⟩ := (Option.any_eq_true _ _).mp hrun
  have honce := totpCode_once sampleAuth_initial hs
  exact ⟨s, hs, of_decide_eq_true hclaims, honce.1 1, honce.2⟩

theorem session_signedIn_sample : ∃ s session how, run (authStep sampleFactors) sampleAuth sampleActions = some s ∧
    s.sessions.get 3 = some session ∧ session.userId = some 1 ∧ .signedIn 3 1 how ∈ s.log ∧ how.Backed s.log 1 := by
  have hrun : (run (authStep sampleFactors) sampleAuth sampleActions).any
      (fun s => (s.sessions.get 3).any fun session => session.userId = some 1) = true := by decide +kernel
  obtain ⟨s, hs, hsession⟩ := (Option.any_eq_true _ _).mp hrun
  obtain ⟨session, hget, huser⟩ := (Option.any_eq_true _ _).mp hsession
  obtain ⟨how, hhow⟩ := session_signedIn sampleAuth_initial hs hget (of_decide_eq_true huser)
  exact ⟨s, session, how, hs, hget, of_decide_eq_true huser, hhow⟩

theorem passage_steppedUp_sample : ∃ s proof t, run (authStep sampleFactors) sampleAuth sampleActions = some s ∧
    .steppedUp 3 1 proof t ∈ s.log ∧ proof.Backed s.log 1 := by
  have hrun : (run (authStep sampleFactors) sampleAuth sampleActions).any
      (fun s => .passed 3 1 .fresh 1111111200000 ∈ s.log) = true := by decide +kernel
  obtain ⟨s, hs, hpassed⟩ := (Option.any_eq_true _ _).mp hrun
  obtain ⟨proof, t, hproof, -, -, hbacked, -⟩ := passage_steppedUp sampleAuth_initial hs (of_decide_eq_true hpassed)
  exact ⟨s, proof, t, hs, hproof, hbacked⟩

end Obliguard.Server
