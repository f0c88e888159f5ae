import Obliguard.Lib.Keyed
import Obliguard.Lib.Numeral
import Obliguard.Lib.Runs
import Obliguard.Lib.Table
import Obliguard.Lib.Text

/-!
# Signing in and confirming

The sign-in of `controllers/auth.controller.ts`, the second factors of `controllers/twoFactor.controller.ts` and
`services/twoFactor.service.ts`, and the confirmations of `services/stepUp.service.ts`. Any number of requests of any
number of sessions are under way; each SQL statement, and each write of a session, is a step of its own. A request works
on the copy of its session that it loaded, and writes the whole of it back.

Audit rows, notices, rate limits, tenants and the texts of the answers are left out. `AuthEvent`s record what was
proved, and are read by nothing.
-/

namespace Obliguard.Server

open Numeral Text

/-! ## Data -/

/-- The libraries: passwords, `OTPAuth.TOTP.validate` (secret, code, time, window), the encryption of the secrets, the
hash of e-mail codes, `toLowerCase`, and the `lower(trim(_))` of the database. -/
structure FactorEnv where
  comparePassword : String → String → Bool
  validateTotp : String → String → Int → Int → Option Int
  encryptSecret : String → String
  decryptSecret : String → Option String
  hashEmailOtp : String → String
  toLowerCase : String → String
  lowerTrim : String → String

structure FactorAccount where
  id : Nat
  username : String
  isActive : Bool
  passwordHash : Option String
  foreignSource : Option String
  totpEnabled : Bool
  totpSecret : Option String
  totpLastStep : Option Int
  emailOtpEnabled : Bool
  email : Option String
deriving DecidableEq

/-- A text that is there. -/
def present (s : Option String) : Option String := s.filter (· ≠ "")

def FactorAccount.hasTotp (row : FactorAccount) : Bool := row.totpEnabled && (present row.totpSecret).isSome

def FactorAccount.isSso (row : FactorAccount) : Bool := row.foreignSource = some "obligate"

structure PendingEmailOtp where
  codeHash : String
  email : String
  expires : Int
  attempts : Nat
deriving DecidableEq

/-- What a second factor was given for. -/
inductive FactorUse
  | signIn
  | stepUp
  | change
deriving DecidableEq

inductive StepUpMethod
  | totp
  | email
  | password
deriving DecidableEq

/-- The part of the session data that is about identity. -/
structure LoginSession where
  userId : Option Nat
  pendingMfaUserId : Option Nat
  pendingEmailOtp : Option PendingEmailOtp
  pendingEmailOtpSetup : Option PendingEmailOtp
  pendingTotpSecret : Option String
  pendingTotpExpiresAt : Int
  pendingTotpReplaces : Bool
  stepUpAt : Option Int
  stepUpMethod : Option StepUpMethod
  stepUpUserId : Option Nat
  stepUpEmailOtp : Option PendingEmailOtp
  stepUpEmailSentAt : Option Int
deriving DecidableEq

def LoginSession.empty : LoginSession :=
  ⟨none, none, none, none, none, 0, false, none, none, none, none, none⟩

/-- `clearPendingTotp`. -/
def LoginSession.clearPendingTotp (s : LoginSession) : LoginSession :=
  { s with pendingTotpSecret := none, pendingTotpExpiresAt := 0, pendingTotpReplaces := false }

/-! ## Codes -/

def totpPeriodS : Int := 30

def totpWindow : Int := 1

def emailOtpTtlMs : Int := 600000

def emailOtpMaxAttempts : Nat := 5

def stepUpTtlMs : Int := 600000

def stepUpEmailCooldownMs : Int := 30000

def pendingTotpTtlMs : Int := 600000

/-- `Number.MAX_SAFE_INTEGER`. -/
def maxTotpStep : Int := 9007199254740991

/-- `/^\d{6}$/`. -/
def isSixDigits (s : List Char) : Bool := s.length = 6 && s.all (isDigit 10)

def trimCode (code : String) : String := String.ofList (jsTrim code.toList)

/-- `verifyTotpStep`: the time step of the code. -/
def verifyTotpStep (env : FactorEnv) (secret code : String) (nowMs : Int) : Option Int :=
  if isSixDigits (trimCode code).toList then
    (env.validateTotp secret (trimCode code) nowMs totpWindow).map fun delta => nowMs / 1000 / totpPeriodS + delta
  else none

def totpSecretStart : List Char := "enc:v1:".toList

/-- `openTotpSecret`. -/
def openTotpSecret (env : FactorEnv) (stored : Option String) : Option String :=
  (present stored).bind fun s =>
    if totpSecretStart.isPrefixOf s.toList then env.decryptSecret (String.ofList (s.toList.drop totpSecretStart.length))
    else present (some (trimCode s))

/-- The step of a code of the account's secret. -/
def FactorAccount.totpStep (env : FactorEnv) (row : FactorAccount) (code : String) (now : Int) : Option Int :=
  (openTotpSecret env row.totpSecret).bind fun secret => verifyTotpStep env secret code now

def newEmailOtp (env : FactorEnv) (code email : String) (now : Int) : PendingEmailOtp :=
  ⟨env.hashEmailOtp (trimCode code), email, now + emailOtpTtlMs, 0⟩

def emailOtpMatches (env : FactorEnv) (pending : PendingEmailOtp) (code : String) (now : Int) : Bool :=
  decide (now ≤ pending.expires) && isSixDigits (trimCode code).toList &&
    env.hashEmailOtp (trimCode code) = pending.codeHash

/-- The pending code after a wrong one. -/
def wrongEmailOtp (pending : PendingEmailOtp) (now : Int) : Option PendingEmailOtp :=
  if emailOtpMaxAttempts ≤ pending.attempts + 1 ∨ pending.expires < now then none
  else some { pending with attempts := pending.attempts + 1 }

/-- `isFresh`. -/
def LoginSession.isFresh (s : LoginSession) (now : Int) : Bool :=
  match s.userId, s.stepUpAt with
  | some u, some t => s.stepUpUserId = some u && decide (0 ≤ now - t) && decide (now - t < stepUpTtlMs)
  | _, _ => false

/-- `methodsFor`, with whether the server for e-mail codes is set. -/
def FactorAccount.methods (row : FactorAccount) (mailServer : Bool) : List StepUpMethod :=
  (if row.hasTotp then [.totp] else []) ++
    (if row.emailOtpEnabled && mailServer && decide (trimCode (row.email.getD "") ≠ "") then [.email] else []) ++
    (if !row.hasTotp && !row.emailOtpEnabled && (present row.passwordHash).isSome then [.password] else [])

/-- The same address, but for case and the space around it. -/
def sameAddress (env : FactorEnv) (a b : String) : Bool := env.toLowerCase (trimCode a) = env.toLowerCase (trimCode b)

/-! ## What was proved -/

inductive SignIn
  | password
  | totp (step : Int)
  | email (codeHash : String)
  | sso
deriving DecidableEq

inductive StepUpProof
  | password
  | totp (step : Int)
  | email (codeHash : String)
deriving DecidableEq

/-- Why a sensitive action was let through. -/
inductive Passage
  | fresh
  | exempt
  | unknownUser
deriving DecidableEq

inductive AuthEvent
  /-- The password of the account, as it was read. -/
  | password (row : FactorAccount) (use : FactorUse)
  | claimed (userId : Nat) (step : Int) (use : FactorUse)
  | mailed (userId : Nat) (codeHash : String) (use : FactorUse)
  | emailed (userId : Nat) (codeHash : String) (use : FactorUse)
  /-- The session that is opened. -/
  | signedIn (sid userId : Nat) (how : SignIn)
  | steppedUp (sid userId : Nat) (proof : StepUpProof) (time : Int)
  | passed (sid userId : Nat) (passage : Passage) (time : Int)
deriving DecidableEq

/-! ## Requests -/

/-- The fields `currentCode` and `currentPassword` of a body. -/
structure FactorProof where
  currentCode : String
  currentPassword : String

inductive FactorChange
  | totpSetup (replaces : Bool)
  | totpDisable
  | emailSetup (email : String)
  | emailDisable

inductive AuthRequest
  | login (username password : String)
  | verify (method code : String)
  | resendEmail
  | sendStepUpCode
  | stepUp (method : StepUpMethod) (code password : String)
  | totpSetup (proof : FactorProof)
  | totpEnable (code : String)
  | totpDisable (proof : FactorProof)
  | emailSetup (asked : String) (proof : FactorProof)
  | emailEnable (code : String)
  | emailDisable (proof : FactorProof)
  | logout
  /-- A request behind `requireStepUp`. -/
  | sensitive
  /-- Any other request, which may write other data of its session. -/
  | other

/-- Where a request stands, with what it has read. -/
inductive AuthPc
  | start (r : AuthRequest)
  | loginRegenerate (row : FactorAccount)
  | loginSave (row : FactorAccount)
  | verifyCheck (row : FactorAccount) (method code : String)
  | verifyRegenerate (row : FactorAccount) (how : SignIn)
  | verifySave (row : FactorAccount) (how : SignIn)
  | stepUpCheck (row : FactorAccount) (method : StepUpMethod) (code password : String)
  | stamp (userId : Nat) (method : StepUpMethod) (proof : StepUpProof)
  | proofRead (change : FactorChange) (proof : FactorProof)
  | proofCheck (change : FactorChange) (row : FactorAccount) (proof : FactorProof)
  | change (change : FactorChange)
  | enableRefused (step : Int)
  | emailEnable (pending : PendingEmailOtp)
  | gateRead
  | finish

structure AuthFlight where
  sid : Nat
  loaded : LoginSession
  session : LoginSession
  pc : AuthPc

structure AuthState where
  accounts : Table FactorAccount.id
  sessions : Registry LoginSession
  flights : Registry AuthFlight
  nextRid : Nat
  log : List AuthEvent

inductive AuthAction
  | start (sid : Nat) (r : AuthRequest)
  /-- The next statement of a request, with the clock, what the generators give (a code or a secret, a session id) and
  whether the server for e-mail codes is set. -/
  | step (rid : Nat) (now : Int) (fresh : String) (newSid : Nat) (mailServer : Bool)
  /-- A sign-in through Obligate. -/
  | sso (newSid userId : Nat)
  /-- A session that expires, or that another request ends. -/
  | destroySession (sid : Nat)
  | createAccount (row : FactorAccount)
  /-- Any other change of an account. -/
  | setAccount (row : FactorAccount)
  | deleteAccount (id : Nat)

/-! ## Statements -/

namespace AuthState

def goto (s : AuthState) (rid : Nat) (f : AuthFlight) (pc : AuthPc) : AuthState :=
  { s with flights := s.flights.put rid { f with pc } }

def record (s : AuthState) (e : AuthEvent) : AuthState := { s with log := e :: s.log }

/-- The session as the request leaves it is written, if it was changed. -/
def finish (s : AuthState) (rid : Nat) (f : AuthFlight) (session : LoginSession) : AuthState :=
  { s with
    sessions := if session = f.loaded then s.sessions else s.sessions.put f.sid session
    flights := s.flights.erase rid }

def activeAccount (s : AuthState) (id : Nat) : Option FactorAccount := (s.accounts.find id).filter (·.isActive)

/-- The condition on the last step. -/
def newerStep (step : Int) (row : FactorAccount) : Bool := row.totpLastStep.all (· < step)

/-- `acceptTotpStep`: one conditional `UPDATE`, `none` where it reaches no row. -/
def acceptTotpStep (s : AuthState) (userId : Nat) (step : Int) (use : FactorUse) : Option AuthState :=
  if maxTotpStep < step ∨ step ≤ 0 then none
  else if (s.accounts.find userId).any (newerStep step) then
    some { s with
      accounts := s.accounts.update (fun row => row.id = userId && newerStep step row)
        (fun row => { row with totpLastStep := some step }) fun _ => rfl
      log := .claimed userId step use :: s.log }
  else none

/-- `authenticate`: the account of a name and its password. -/
def authenticate (env : FactorEnv) (s : AuthState) (username password : String) : Option FactorAccount :=
  (s.accounts.rows.find? fun row => row.username = username && row.isActive).filter fun row =>
    !row.isSso && (present row.passwordHash).any (env.comparePassword password)

/-- The session of a sign-in by password, with the e-mail code it sends. -/
def loginSave (env : FactorEnv) (s : AuthState) (rid : Nat) (row : FactorAccount) (now : Int) (fresh : String)
    (newSid : Nat) (mailServer : Bool) : AuthState :=
  let s := { s with flights := s.flights.erase rid }
  if row.totpEnabled || row.emailOtpEnabled then
    match if row.emailOtpEnabled && mailServer then present row.email else none with
    | some email =>
      let pending := newEmailOtp env fresh email now
      let session :=
        { LoginSession.empty with pendingMfaUserId := some row.id, pendingEmailOtp := some pending }
      { s with sessions := s.sessions.put newSid session }.record (.mailed row.id pending.codeHash .signIn)
    | none => { s with sessions := s.sessions.put newSid { LoginSession.empty with pendingMfaUserId := some row.id } }
  else
    { s with sessions := s.sessions.put newSid { LoginSession.empty with userId := some row.id } }.record
      (.signedIn newSid row.id .password)

/-- `verify`, once the account is read. -/
def verifyCheck (env : FactorEnv) (s : AuthState) (rid : Nat) (f : AuthFlight) (row : FactorAccount)
    (method code : String) (now : Int) : AuthState :=
  if method = "totp" ∧ row.hasTotp then
    match row.totpStep env code now with
    | none => s.finish rid f f.session
    | some step =>
      match s.acceptTotpStep row.id step .signIn with
      | none => s.finish rid f f.session
      | some s => s.goto rid f (.verifyRegenerate row (.totp step))
  else if method = "email" ∧ row.emailOtpEnabled then
    match f.session.pendingEmailOtp with
    | none => s.finish rid f f.session
    | some pending =>
      if emailOtpMatches env pending code now then
        (s.record (.emailed row.id pending.codeHash .signIn)).goto rid f
          (.verifyRegenerate row (.email pending.codeHash))
      else s.finish rid f { f.session with pendingEmailOtp := wrongEmailOtp pending now }
  else s.finish rid f f.session

/-- The session confirms its user. -/
def stamp (s : AuthState) (rid : Nat) (f : AuthFlight) (session : LoginSession) (userId : Nat)
    (method : StepUpMethod) (proof : StepUpProof) (now : Int) : AuthState :=
  (s.record (.steppedUp f.sid userId proof now)).finish rid f
    { session with stepUpAt := some now, stepUpMethod := some method, stepUpUserId := some userId }

/-- `stepUpService.verify`, once the account is read. -/
def stepUpCheck (env : FactorEnv) (s : AuthState) (rid : Nat) (f : AuthFlight) (row : FactorAccount)
    (method : StepUpMethod) (code password : String) (now : Int) (mailServer : Bool) : AuthState :=
  if row.isSso ∨ method ∉ row.methods mailServer then s.finish rid f f.session
  else
    match method with
    | .totp =>
      match row.totpStep env code now with
      | none => s.finish rid f f.session
      | some step =>
        match s.acceptTotpStep row.id step .stepUp with
        | none => s.finish rid f f.session
        | some s => s.goto rid f (.stamp row.id .totp (.totp step))
    | .email =>
      match f.session.stepUpEmailOtp with
      | none => s.finish rid f f.session
      | some pending =>
        if trimCode code = "" then s.finish rid f f.session
        else if sameAddress env pending.email (row.email.getD "") && emailOtpMatches env pending code now then
          (s.record (.emailed row.id pending.codeHash .stepUp)).stamp rid f { f.session with stepUpEmailOtp := none }
            row.id .email (.email pending.codeHash) now
        else
          let left := if sameAddress env pending.email (row.email.getD "") then wrongEmailOtp pending now else none
          s.finish rid f { f.session with stepUpEmailOtp := left }
    | .password =>
      if password ≠ "" ∧ (present row.passwordHash).any (env.comparePassword password) then
        (s.record (.password row .stepUp)).stamp rid f f.session row.id .password .password now
      else s.finish rid f f.session

/-- `checkFactorProof`, once the account is read. -/
def proofCheck (env : FactorEnv) (s : AuthState) (rid : Nat) (f : AuthFlight) (change : FactorChange)
    (row : FactorAccount) (proof : FactorProof) (now : Int) : AuthState :=
  if row.hasTotp then
    match row.totpStep env proof.currentCode now with
    | none => s.finish rid f f.session
    | some step =>
      match s.acceptTotpStep row.id step .change with
      | none => s.finish rid f f.session
      | some s => s.goto rid f (.change change)
  else if row.isSso then s.finish rid f f.session
  else if proof.currentPassword ≠ "" ∧ (present row.passwordHash).any (env.comparePassword proof.currentPassword) then
    (s.record (.password row .change)).goto rid f (.change change)
  else s.finish rid f f.session

/-- The statement of a change whose proof is given. -/
def applyChange (env : FactorEnv) (s : AuthState) (rid : Nat) (f : AuthFlight) (change : FactorChange) (userId : Nat)
    (now : Int) (fresh : String) : AuthState :=
  match change with
  | .totpSetup replaces =>
    s.finish rid f { f.session with
      pendingTotpSecret := some fresh, pendingTotpExpiresAt := now + pendingTotpTtlMs, pendingTotpReplaces := replaces }
  | .totpDisable =>
    let accounts := s.accounts.update (·.id = userId)
      (fun row => { row with totpSecret := none, totpEnabled := false }) fun _ => rfl
    { s with accounts }.goto rid { f with session := f.session.clearPendingTotp } .finish
  | .emailSetup email =>
    let pending := newEmailOtp env fresh email now
    (s.record (.mailed userId pending.codeHash .change)).finish rid f
      { f.session with pendingEmailOtpSetup := some pending }
  | .emailDisable =>
    let accounts := s.accounts.update (·.id = userId) (fun row => { row with emailOtpEnabled := false }) fun _ => rfl
    { s with accounts }.goto rid { f with session := { f.session with pendingEmailOtpSetup := none } } .finish

/-- The conditional `UPDATE` of `totpEnable`. -/
def totpEnable (env : FactorEnv) (s : AuthState) (rid : Nat) (f : AuthFlight) (userId : Nat) (code : String)
    (now : Int) : AuthState :=
  match f.session.pendingTotpSecret with
  | none => s.finish rid f f.session
  | some secret =>
    if f.session.pendingTotpExpiresAt < now then s.finish rid f f.session.clearPendingTotp
    else
      match verifyTotpStep env secret code now with
      | none => s.finish rid f f.session
      | some step =>
        let free (row : FactorAccount) := f.session.pendingTotpReplaces || !row.totpEnabled || row.totpSecret.isNone
        if (s.accounts.find userId).any (fun row => newerStep step row && free row) then
          let accounts := s.accounts.update (fun row => row.id = userId && (newerStep step row && free row))
            (fun row => { row with
              totpSecret := some (String.ofList totpSecretStart ++ env.encryptSecret (trimCode secret))
              totpEnabled := true
              totpLastStep := some step }) fun _ => rfl
          { s with accounts, log := .claimed userId step .change :: s.log }.goto rid
            { f with session := f.session.clearPendingTotp } .finish
        else s.goto rid f (.enableRefused step)

/-- The first statement of a request of a signed-in user. -/
def startSignedIn (env : FactorEnv) (s : AuthState) (rid : Nat) (f : AuthFlight) (userId : Nat) (r : AuthRequest)
    (now : Int) (fresh : String) (mailServer : Bool) : AuthState :=
  match r with
  | .sendStepUpCode =>
    match s.activeAccount userId with
    | none => s.finish rid f f.session
    | some row =>
      if row.isSso ∨ .email ∉ row.methods mailServer then s.finish rid f f.session
      else if f.session.stepUpEmailSentAt.any
          (fun t => decide (0 ≤ now - t) && decide (now - t < stepUpEmailCooldownMs)) then
        s.finish rid f f.session
      else
        let pending := newEmailOtp env fresh (trimCode (row.email.getD "")) now
        (s.record (.mailed userId pending.codeHash .stepUp)).finish rid f
          { f.session with stepUpEmailOtp := some pending, stepUpEmailSentAt := some now }
  | .stepUp method code password =>
    match s.activeAccount userId with
    | none => s.finish rid f f.session
    | some row => s.goto rid f (.stepUpCheck row method code password)
  | .totpSetup proof =>
    match s.accounts.find userId with
    | none => s.finish rid f f.session
    | some row =>
      if row.hasTotp || row.emailOtpEnabled then s.goto rid f (.proofRead (.totpSetup row.hasTotp) proof)
      else s.goto rid f (.change (.totpSetup row.hasTotp))
  | .totpEnable code => s.totpEnable env rid f userId code now
  | .totpDisable proof =>
    if (s.accounts.find userId).any (·.hasTotp) then s.goto rid f (.proofRead .totpDisable proof)
    else s.goto rid f (.change .totpDisable)
  | .emailSetup asked proof =>
    let email := trimCode (((s.accounts.find userId).bind (·.email)).getD "")
    if email = "" ∨ trimCode asked ≠ "" ∧ !sameAddress env asked email ∨ !mailServer then s.finish rid f f.session
    else s.goto rid f (.proofRead (.emailSetup email) proof)
  | .emailEnable code =>
    match f.session.pendingEmailOtpSetup with
    | none => s.finish rid f f.session
    | some pending =>
      if emailOtpMatches env pending code now then s.goto rid f (.emailEnable pending)
      else s.finish rid f { f.session with pendingEmailOtpSetup := wrongEmailOtp pending now }
  | .emailDisable proof =>
    if (s.accounts.find userId).any (·.emailOtpEnabled) then s.goto rid f (.proofRead .emailDisable proof)
    else s.goto rid f (.change .emailDisable)
  | .logout => { s with sessions := s.sessions.erase f.sid, flights := s.flights.erase rid }
  | .sensitive =>
    if f.session.isFresh now then (s.record (.passed f.sid userId .fresh now)).goto rid f .finish
    else s.goto rid f .gateRead
  | _ => s.finish rid f f.session

/-- The first statement of a request. -/
def startRequest (env : FactorEnv) (s : AuthState) (rid : Nat) (f : AuthFlight) (r : AuthRequest) (now : Int)
    (fresh : String) (mailServer : Bool) : AuthState :=
  match r with
  | .login username password =>
    match s.authenticate env username password with
    | none => s.finish rid f f.session
    | some row => (s.record (.password row .signIn)).goto rid f (.loginRegenerate row)
  | .verify method code =>
    match f.session.pendingMfaUserId with
    | none => s.finish rid f f.session
    | some userId =>
      match s.activeAccount userId with
      | none => s.finish rid f { f.session with pendingMfaUserId := none, pendingEmailOtp := none }
      | some row => s.goto rid f (.verifyCheck row method code)
  | .resendEmail =>
    match f.session.pendingMfaUserId with
    | none => s.finish rid f f.session
    | some userId =>
      let address (row : FactorAccount) := if row.emailOtpEnabled && mailServer then present row.email else none
      match (s.accounts.find userId).bind address with
      | none => s.finish rid f f.session
      | some email =>
        let pending := newEmailOtp env fresh email now
        (s.record (.mailed userId pending.codeHash .signIn)).finish rid f
          { f.session with pendingEmailOtp := some pending }
  | .other => { s with sessions := s.sessions.put f.sid f.session, flights := s.flights.erase rid }
  | r =>
    match f.session.userId with
    | none => s.finish rid f f.session
    | some userId => s.startSignedIn env rid f userId r now fresh mailServer

/-- The next statement of a request. -/
def stepFlight (env : FactorEnv) (s : AuthState) (rid : Nat) (f : AuthFlight) (now : Int) (fresh : String)
    (newSid : Nat) (mailServer : Bool) : AuthState :=
  match f.pc with
  | .start r => s.startRequest env rid f r now fresh mailServer
  | .loginRegenerate row => { s with sessions := s.sessions.erase f.sid }.goto rid f (.loginSave row)
  | .loginSave row => s.loginSave env rid row now fresh newSid mailServer
  | .verifyCheck row method code => s.verifyCheck env rid f row method code now
  | .verifyRegenerate row how => { s with sessions := s.sessions.erase f.sid }.goto rid f (.verifySave row how)
  | .verifySave row how =>
    { s with
      sessions := s.sessions.put newSid { LoginSession.empty with userId := some row.id }
      flights := s.flights.erase rid }.record (.signedIn newSid row.id how)
  | .stepUpCheck row method code password => s.stepUpCheck env rid f row method code password now mailServer
  | .stamp userId method proof => s.stamp rid f f.session userId method proof now
  | .proofRead change proof =>
    match f.session.userId.bind s.accounts.find with
    | none => s.finish rid f f.session
    | some row => s.goto rid f (.proofCheck change row proof)
  | .proofCheck change row proof => s.proofCheck env rid f change row proof now
  | .change change =>
    match f.session.userId with
    | none => s.finish rid f f.session
    | some userId => s.applyChange env rid f change userId now fresh
  | .enableRefused step =>
    if (f.session.userId.bind s.accounts.find).any (fun row => !newerStep step row) then s.finish rid f f.session
    else s.finish rid f f.session.clearPendingTotp
  | .emailEnable pending =>
    let asked := env.toLowerCase (trimCode pending.email)
    let accounts := s.accounts.update
      (fun row => f.session.userId = some row.id && row.email.map env.lowerTrim = some asked)
      (fun row => { row with emailOtpEnabled := true }) fun _ => rfl
    { s with accounts }.goto rid { f with session := { f.session with pendingEmailOtpSetup := none } } .finish
  | .gateRead =>
    match f.session.userId with
    | none => s.finish rid f f.session
    | some userId =>
      match s.activeAccount userId with
      | none => (s.record (.passed f.sid userId .unknownUser now)).goto rid f .finish
      | some row =>
        if row.isSso then (s.record (.passed f.sid userId .exempt now)).goto rid f .finish else s.finish rid f f.session
  | .finish => s.finish rid f f.session

end AuthState

def authStep (env : FactorEnv) (s : AuthState) : AuthAction → Option AuthState
  | .start sid r =>
    let session := (s.sessions.get sid).getD .empty
    some { s with flights := s.flights.put s.nextRid ⟨sid, session, session, .start r⟩, nextRid := s.nextRid + 1 }
  | .step rid now fresh newSid mailServer =>
    (s.flights.get rid).map fun f => s.stepFlight env rid f now fresh newSid mailServer
  | .sso newSid userId =>
    (s.activeAccount userId).map fun row =>
      { s with sessions := s.sessions.put newSid { LoginSession.empty with userId := some row.id } }.record
        (.signedIn newSid row.id .sso)
  | .destroySession sid => some { s with sessions := s.sessions.erase sid }
  | .createAccount row =>
    some { s with accounts := s.accounts.insert (fun id => { row with id, totpLastStep := none }) fun _ => rfl }
  | .setAccount row =>
    let accounts := s.accounts.update (·.id = row.id)
      (fun old => { row with id := old.id, totpLastStep := old.totpLastStep }) fun _ => rfl
    some { s with accounts }
  | .deleteAccount id => some { s with accounts := s.accounts.delete (·.id = id) }

end Obliguard.Server
