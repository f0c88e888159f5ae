import Mathlib.Data.List.DropRight
import Obliguard.Lib.Checks
import Obliguard.Lib.Numeral
import Obliguard.Lib.ReplayMemo
import Obliguard.Lib.Text

/-!
# Delegation tokens

`verifyDelegationToken` of `server/src/services/delegationAuth.service.ts`, presentation by presentation. The
decoding of a segment, the signature check and, for each presentation, the answers of `getObligateOrigin` and
`resolveKey` are given. What follows their answers runs without interruption, so presentations take the replay
memory one after the other.

`verifyChecks` is all of it but the replay memory. A token is valid while `now < exp + CLOCK_SKEW_SECONDS` and
remembered while `now ≤ exp + CLOCK_SKEW_SECONDS`; `accepted_once` says that no token is accepted twice.
-/

namespace Obliguard.Server

open Checks Numeral Text

def CLOCK_SKEW_SECONDS : Int := 30

def MAX_LIFETIME_SEC : Int := 300

def MAX_TOKEN_BYTES : Nat := 4096

def REPLAY_MAX_ENTRIES : Nat := 50000

/-! ## Patterns -/

/-- `B64URL_RE`. -/
def isB64Url (s : List Char) : Bool :=
  s ≠ [] && s.all fun c => c.isAlphanum || c == '_' || c == '-'

/-- `APP_TYPE_RE`. -/
def isAppType : List Char → Bool
  | c :: rest => c.isLower && decide (1 ≤ rest.length ∧ rest.length ≤ 31) &&
      rest.all fun c => c.isLower || c.isDigit || c == '-'
  | [] => false

/-- `UUID_RE`. -/
def isUuid (s : List Char) : Bool :=
  let groups := s.splitOn '-'
  groups.map List.length == [8, 4, 4, 4, 12] && groups.all fun g => g.all (isDigit 16)

/-- The text without the slashes at its end. -/
def stripSlashes (s : List Char) : List Char := s.rdropWhile (· == '/')

/-! ## Tokens -/

/-- A value of a decoded segment. -/
inductive JsonValue
  | str (s : List Char)
  | int (n : Int)
  /-- Any other value, or none. -/
  | other
deriving DecidableEq

/-- The value of each field. -/
abbrev JsonObject := String → JsonValue

def JsonValue.str? : JsonValue → Option (List Char)
  | .str s => some s
  | _ => none

def JsonValue.int? : JsonValue → Option Int
  | .int n => some n
  | _ => none

structure DelegationClaims where
  iss : List Char
  aud : List Char
  azp : List Char
  sub : List Char
  ost : List Char
  scp : List Char
  jti : List Char
  iat : Int
  nbf : Int
  exp : Int
deriving DecidableEq

inductive DelegationSubject
  | user (userId : Nat)
  | app (sourceAppType : List Char)
deriving DecidableEq

structure VerifiedDelegation where
  claims : DelegationClaims
  subject : DelegationSubject
deriving DecidableEq

inductive VerifyFailure
  | missingBearer
  | malformedToken
  | typInvalid
  | kidUnknown
  | badSignature
  | payloadInvalid
  | expired
  | notYetValid
  | lifetimeExcessive
  | wrongAudience (expected actual : List Char)
  | wrongIssuer
  | azpInvalid
  | jtiInvalid
  | replayed
  | notConfigured
  | jwksUnreachable (message : List Char)
deriving DecidableEq

/-- A failure with the `kid` of the header. -/
structure TokenRefusal where
  failure : VerifyFailure
  kid : Option (List Char)
deriving DecidableEq

structure ObligateOrigin where
  base : List Char
  issuer : List Char

/-- What `resolveKey` comes to. -/
inductive ResolvedKey (Key : Type)
  | key (k : Key)
  | failure (f : VerifyFailure)
  | threw

/-- A call of `verifyDelegationToken`, with what it is told on the way. -/
structure Presentation (Key : Type) where
  authorization : Option (List Char)
  expectedAudience : List Char
  /-- `getObligateOrigin`. -/
  origin : Option ObligateOrigin
  /-- `resolveKey`, of the base and the `kid`. -/
  resolveKey : List Char → List Char → ResolvedKey Key
  nowSec : Int
  /-- `replayCheckEnabled`. -/
  replayCheck : Bool

section verify
variable {Key : Type} (decodeJson : List Char → Option JsonObject)
  (verifySignature : Key → List Char → List Char → Bool)

/-- The token of an `Authorization` header. -/
def bearerToken (authorization : Option (List Char)) : Option (List Char) :=
  match authorization with
  | some a => if "Bearer ".toList.isPrefixOf a then some (jsTrim (a.drop 7)) else none
  | none => none

/-- `sub`. -/
def parseSubject (sub : JsonValue) : Option (List Char × DelegationSubject) :=
  match sub with
  | .str s =>
    if "app:".toList.isPrefixOf s && isAppType (s.drop 4) then some (s, .app (s.drop 4))
    else if s ≠ [] ∧ s.length ≤ 15 ∧ s.all Char.isDigit ∧ 0 < ofDigits 10 s then
      some (s, .user (ofDigits 10 s))
    else none
  | _ => none

/-- The checks of the payload. -/
def checkPayload (p : JsonObject) (expectedAudience issuer : List Char) (nowSec : Int) :
    Except VerifyFailure VerifiedDelegation := do
  let iat ← need (p "iat").int? .payloadInvalid
  let nbf ← need (p "nbf").int? .payloadInvalid
  let exp ← need (p "exp").int? .payloadInvalid
  let aud ← need (p "aud").str? (.wrongAudience expectedAudience "non-string".toList)
  refuseIf (aud ≠ expectedAudience) (.wrongAudience expectedAudience (utf16Take 64 aud))
  let iss ← need (p "iss").str? .wrongIssuer
  refuseIf (stripSlashes iss ≠ issuer) .wrongIssuer
  let azp ← need (p "azp").str? .azpInvalid
  refuseIf (!isAppType azp) .azpInvalid
  let jti ← need (p "jti").str? .jtiInvalid
  refuseIf (!isUuid jti) .jtiInvalid
  refuseIf (nbf > nowSec + CLOCK_SKEW_SECONDS) .notYetValid
  refuseIf (exp ≤ nowSec - CLOCK_SKEW_SECONDS) .expired
  refuseIf (exp - iat > MAX_LIFETIME_SEC) .lifetimeExcessive
  let (sub, subject) ← need (parseSubject (p "sub")) .malformedToken
  return ⟨⟨iss, aud, azp, sub, (p "ost").str?.getD [], (p "scp").str?.getD [], jti, iat, nbf, exp⟩, subject⟩

/-- The three segments of a token. -/
def segments (token : List Char) : Option (List Char × List Char × List Char) :=
  match token.splitOn '.' with
  | [seg0, seg1, seg2] => if isB64Url seg0 && isB64Url seg1 && isB64Url seg2 then some (seg0, seg1, seg2) else none
  | _ => none

/-- `rawKid`. -/
def headerKid (header : JsonObject) : Option (List Char) :=
  (header "kid").str?.filter fun k => k ≠ [] && utf16Length k ≤ 200

/-- The key of the header's `kid`. -/
def keyOf (q : Presentation Key) (base kid : List Char) : Except TokenRefusal Key :=
  match q.resolveKey base kid with
  | .key key => .ok key
  | .failure f => .error ⟨f, kid⟩
  -- caught in `verifyDelegationToken`
  | .threw => .error ⟨.jwksUnreachable "internal error".toList, none⟩

/-- `verifyInner` up to the replay memory, with the `kid`. -/
def verifyChecks (q : Presentation Key) : Except TokenRefusal (VerifiedDelegation × List Char) := do
  let token ← need (bearerToken q.authorization) ⟨.missingBearer, none⟩
  refuseIf (token = [] || (token.map Char.utf8Size).sum > MAX_TOKEN_BYTES) ⟨.malformedToken, none⟩
  let (seg0, seg1, seg2) ← need (segments token) ⟨.malformedToken, none⟩
  let header ← need (decodeJson seg0) ⟨.malformedToken, none⟩
  refuseIf (header "alg" ≠ .str "EdDSA".toList) ⟨.malformedToken, headerKid header⟩
  let kid ← need (headerKid header) ⟨.malformedToken, none⟩
  refuseIf (header "typ" ≠ .str "JWT".toList) ⟨.typInvalid, kid⟩
  let origin ← need q.origin ⟨.notConfigured, kid⟩
  let key ← keyOf q origin.base kid
  -- the signature is over the text of the segments
  refuseIf (!verifySignature key (seg0 ++ '.' :: seg1) seg2) ⟨.badSignature, kid⟩
  let p ← need (decodeJson seg1) ⟨.payloadInvalid, kid⟩
  let v ← (checkPayload p q.expectedAudience origin.issuer q.nowSec).mapError (⟨·, kid⟩)
  return (v, kid)

/-- `rememberJti`. -/
def rememberJti (memo : ReplayMemo (List Char)) (v : VerifiedDelegation) (nowSec : Int) :
    Option (ReplayMemo (List Char)) :=
  memo.remember REPLAY_MAX_ENTRIES CLOCK_SKEW_SECONDS v.claims.jti v.claims.exp nowSec

/-- `verifyDelegationToken`. -/
def verifyDelegationToken (memo : ReplayMemo (List Char)) (q : Presentation Key) :
    ReplayMemo (List Char) × Except TokenRefusal VerifiedDelegation :=
  match verifyChecks decodeJson verifySignature q with
  | .error r => (memo, .error r)
  | .ok (v, kid) =>
    if q.replayCheck then
      match rememberJti memo v q.nowSec with
      | some memo => (memo, .ok v)
      | none => (memo, .error ⟨.replayed, kid⟩)
    else (memo, .ok v)

/-- Successive presentations, with the answer to each. -/
def presentAll (memo : ReplayMemo (List Char)) :
    List (Presentation Key) → ReplayMemo (List Char) × List (Except TokenRefusal VerifiedDelegation)
  | [] => (memo, [])
  | q :: qs =>
    let answer := verifyDelegationToken decodeJson verifySignature memo q
    let rest := presentAll answer.1 qs
    (rest.1, answer.2 :: rest.2)

/-- An accepted presentation. -/
structure Acceptance where
  token : Option (List Char)
  nowSec : Int
  claims : DelegationClaims
deriving DecidableEq

/-- The accepted ones among successive presentations, in their order. -/
def acceptances (memo : ReplayMemo (List Char)) (qs : List (Presentation Key)) : List Acceptance :=
  (qs.zip (presentAll decodeJson verifySignature memo qs).2).filterMap fun p =>
    match p.2 with
    | .ok v => some ⟨bearerToken p.1.authorization, p.1.nowSec, v.claims⟩
    | .error _ => none

end verify

/-! ## What an accepted token says -/

section accepted
variable {Key : Type} {decodeJson : List Char → Option JsonObject}
  {verifySignature : Key → List Char → List Char → Bool}

theorem checkPayload_ok {p : JsonObject} {expectedAudience issuer : List Char} {nowSec : Int}
    {v : VerifiedDelegation} (h : checkPayload p expectedAudience issuer nowSec = .ok v) :
    (p "jti").str? = some v.claims.jti ∧ (p "exp").int? = some v.claims.exp ∧
      nowSec < v.claims.exp + CLOCK_SKEW_SECONDS := by
  simp only [checkPayload, bind_eq_ok, need_eq_ok, refuseIf_eq_ok] at h
  obtain ⟨iat, -, nbf, -, exp, hexp, aud, -, -, -, iss, -, -, -, azp, -, -, -, jti, hjti, -, -, -, -, -, hlive,
    -, -, ⟨sub, subject⟩, -, h⟩ := h
  rw [← Except.ok.inj h]
  refine ⟨hjti, hexp, ?_⟩
  have hlive := of_decide_eq_false hlive
  show nowSec < exp + CLOCK_SKEW_SECONDS
  omega

/-- The payload of a token. -/
def tokenPayload (decodeJson : List Char → Option JsonObject) (token : Option (List Char)) :
    Option JsonObject :=
  (token.bind segments).bind fun segs => decodeJson segs.2.1

/-- What a valid acceptance has to do with its token. -/
structure Acceptance.Valid (decodeJson : List Char → Option JsonObject) (a : Acceptance) : Prop where
  live : a.nowSec < a.claims.exp + CLOCK_SKEW_SECONDS
  payload : ∃ p, tokenPayload decodeJson a.token = some p ∧ (p "jti").str? = some a.claims.jti ∧
    (p "exp").int? = some a.claims.exp

/-- One and the same token. -/
def Acceptance.Same (a b : Acceptance) : Prop := a.claims.jti = b.claims.jti ∧ a.claims.exp = b.claims.exp

theorem Acceptance.Valid.same {a b : Acceptance} (ha : a.Valid decodeJson) (hb : b.Valid decodeJson)
    (h : a.token = b.token) : a.Same b := by
  obtain ⟨p, hp, hjti, hexp⟩ := ha.payload
  obtain ⟨p', hp', hjti', hexp'⟩ := hb.payload
  rw [h, hp'] at hp
  rw [← Option.some.inj hp] at hjti hexp
  exact ⟨Option.some.inj (hjti.symm.trans hjti'), Option.some.inj (hexp.symm.trans hexp')⟩

theorem verifyChecks_valid {q : Presentation Key} {v : VerifiedDelegation} {kid : List Char}
    (h : verifyChecks decodeJson verifySignature q = .ok (v, kid)) :
    Acceptance.Valid decodeJson ⟨bearerToken q.authorization, q.nowSec, v.claims⟩ := by
  simp only [verifyChecks, bind_eq_ok, need_eq_ok, refuseIf_eq_ok] at h
  obtain ⟨token, htoken, -, -, ⟨seg0, seg1, seg2⟩, hsegs, header, -, -, -, kid', -, -, -, origin, -, key, -, -, -,
    p, hp, v', hv, h⟩ := h
  obtain ⟨rfl, -⟩ := Prod.mk.inj (Except.ok.inj h)
  have hcheck : checkPayload p q.expectedAudience origin.issuer q.nowSec = .ok v' := by
    cases hcheck : checkPayload p q.expectedAudience origin.issuer q.nowSec with
    | error f =>
      rw [hcheck] at hv
      exact nomatch hv
    | ok v =>
      rw [hcheck] at hv
      rw [Except.ok.inj hv]
  obtain ⟨hjti, hexp, hlive⟩ := checkPayload_ok hcheck
  refine ⟨hlive, p, ?_, hjti, hexp⟩
  rw [tokenPayload, htoken, Option.bind_some, hsegs]
  exact hp

end accepted

/-! ## One-shot tokens -/

section oneShot
variable {Key : Type} {decodeJson : List Char → Option JsonObject}
  {verifySignature : Key → List Char → List Char → Bool} {memo memo' : ReplayMemo (List Char)}
  {q : Presentation Key} {qs : List (Presentation Key)}

theorem refused_memo {r : TokenRefusal} (h : (verifyDelegationToken decodeJson verifySignature memo q).2 = .error r) :
    (verifyDelegationToken decodeJson verifySignature memo q).1 = memo := by
  unfold verifyDelegationToken at h ⊢
  split
  · rfl
  · rename_i v kid hv
    rw [hv] at h
    dsimp only at h ⊢
    split
    · rename_i hreplay
      rw [if_pos hreplay] at h
      split
      · rename_i hmemo
        rw [hmemo] at h
        contradiction
      · rfl
    · rfl

theorem accepted_cases {v : VerifiedDelegation} (hreplay : q.replayCheck = true)
    (h : verifyDelegationToken decodeJson verifySignature memo q = (memo', .ok v)) :
    Acceptance.Valid decodeJson ⟨bearerToken q.authorization, q.nowSec, v.claims⟩ ∧
      rememberJti memo v q.nowSec = some memo' := by
  unfold verifyDelegationToken at h
  split at h
  · exact nomatch (Prod.mk.inj h).2
  · rename_i v' kid hv
    rw [if_pos hreplay] at h
    split at h
    · rename_i hmemo
      obtain ⟨rfl, hok⟩ := Prod.mk.inj h
      rw [← Except.ok.inj hok]
      exact ⟨verifyChecks_valid hv, hmemo⟩
    · exact nomatch (Prod.mk.inj h).2

theorem acceptances_refused {r : TokenRefusal}
    (h : (verifyDelegationToken decodeJson verifySignature memo q).2 = .error r) :
    acceptances decodeJson verifySignature memo (q :: qs) = acceptances decodeJson verifySignature memo qs := by
  have hmemo := refused_memo h
  unfold acceptances
  rw [presentAll]
  dsimp only
  rw [List.zip_cons_cons, List.filterMap_cons, h, hmemo]

theorem acceptances_accepted {v : VerifiedDelegation}
    (h : verifyDelegationToken decodeJson verifySignature memo q = (memo', .ok v)) :
    acceptances decodeJson verifySignature memo (q :: qs) =
      ⟨bearerToken q.authorization, q.nowSec, v.claims⟩ :: acceptances decodeJson verifySignature memo' qs := by
  unfold acceptances
  rw [presentAll]
  dsimp only
  rw [List.zip_cons_cons, List.filterMap_cons, h]

theorem acceptances_valid (hreplay : ∀ q ∈ qs, q.replayCheck = true) :
    ∀ a ∈ acceptances decodeJson verifySignature memo qs, a.Valid decodeJson ∧ ∃ q ∈ qs, a.nowSec = q.nowSec := by
  induction qs generalizing memo with
  | nil => exact fun a ha => absurd ha List.not_mem_nil
  | cons q qs ih =>
    intro a ha
    have htail := fun q' hq' => hreplay q' (List.mem_cons_of_mem q hq')
    rcases hverify : verifyDelegationToken decodeJson verifySignature memo q with ⟨memo', answer⟩
    cases answer with
    | error r =>
      rw [acceptances_refused (congrArg Prod.snd hverify)] at ha
      obtain ⟨hvalid, q', hq', htime⟩ := ih htail a ha
      exact ⟨hvalid, q', List.mem_cons_of_mem q hq', htime⟩
    | ok v =>
      rw [acceptances_accepted hverify] at ha
      rcases List.mem_cons.mp ha with rfl | ha
      · exact ⟨(accepted_cases (hreplay q List.mem_cons_self) hverify).1, q, List.mem_cons_self, rfl⟩
      · obtain ⟨hvalid, q', hq', htime⟩ := ih htail a ha
        exact ⟨hvalid, q', List.mem_cons_of_mem q hq', htime⟩

/-- The other tokens accepted while `a` is valid. -/
def Acceptance.others (a : Acceptance) (later : List Acceptance) : List Acceptance :=
  later.filter fun b => b.token ≠ a.token ∧ b.nowSec < a.claims.exp + CLOCK_SKEW_SECONDS

theorem not_accepted_again {a : Acceptance} {m : Nat} (ha : a.Valid decodeJson)
    (hreplay : ∀ q ∈ qs, q.replayCheck = true) (hclock : qs.Pairwise fun q q' => q.nowSec ≤ q'.nowSec)
    (hholds : memo.Holds a.claims.jti a.claims.exp m)
    (hfew : m + (a.others (acceptances decodeJson verifySignature memo qs)).length < REPLAY_MAX_ENTRIES) :
    ∀ b ∈ acceptances decodeJson verifySignature memo qs, ¬ a.Same b := by
  induction qs generalizing memo m with
  | nil => exact fun b hb => absurd hb List.not_mem_nil
  | cons q qs ih =>
    have htail := fun q' hq' => hreplay q' (List.mem_cons_of_mem q hq')
    rw [List.pairwise_cons] at hclock
    rcases hverify : verifyDelegationToken decodeJson verifySignature memo q with ⟨memo', answer⟩
    cases answer with
    | error r =>
      rw [acceptances_refused (congrArg Prod.snd hverify)] at hfew ⊢
      exact ih htail hclock.2 hholds hfew
    | ok v =>
      obtain ⟨hvalid, htaken⟩ := accepted_cases (hreplay q List.mem_cons_self) hverify
      rw [acceptances_accepted hverify] at hfew ⊢
      rw [List.forall_mem_cons]
      have hother : ¬ a.Same ⟨bearerToken q.authorization, q.nowSec, v.claims⟩ := by
        rintro ⟨hjti, hexp⟩
        have hlive : q.nowSec ≤ a.claims.exp + CLOCK_SKEW_SECONDS := by
          rw [hexp]
          exact Int.le_of_lt hvalid.live
        rw [rememberJti, ← hjti, hholds.refused hlive] at htaken
        contradiction
      refine ⟨hother, ?_⟩
      by_cases hlive : q.nowSec < a.claims.exp + CLOCK_SKEW_SECONDS
      · -- one more key is younger
        have htoken : bearerToken q.authorization ≠ a.token :=
          fun h => hother (ha.same hvalid h.symm)
        rw [Acceptance.others, List.filter_cons, if_pos (decide_eq_true ⟨htoken, hlive⟩), List.length_cons] at hfew
        have hroom : m + 1 < REPLAY_MAX_ENTRIES := by omega
        refine ih htail hclock.2 (hholds.remember (Int.le_of_lt hlive) htaken hroom) ?_
        rw [Acceptance.others]
        omega
      · -- the token has expired for good
        intro b hb hsame
        obtain ⟨hb, q', hq', htime⟩ := acceptances_valid htail b hb
        have hlater := hclock.1 q' hq'
        have hlive' := hb.live
        rw [← hsame.2] at hlive'
        omega

theorem accepted_pairwise (hreplay : ∀ q ∈ qs, q.replayCheck = true)
    (hclock : qs.Pairwise fun q q' => q.nowSec ≤ q'.nowSec)
    (hfew : ∀ pre a post, acceptances decodeJson verifySignature memo qs = pre ++ a :: post →
      (a.others post).length < REPLAY_MAX_ENTRIES) :
    (acceptances decodeJson verifySignature memo qs).Pairwise fun a b => ¬ a.Same b := by
  induction qs generalizing memo with
  | nil => exact List.Pairwise.nil
  | cons q qs ih =>
    have htail := fun q' hq' => hreplay q' (List.mem_cons_of_mem q hq')
    rw [List.pairwise_cons] at hclock
    rcases hverify : verifyDelegationToken decodeJson verifySignature memo q with ⟨memo', answer⟩
    cases answer with
    | error r =>
      rw [acceptances_refused (congrArg Prod.snd hverify)] at hfew ⊢
      exact ih htail hclock.2 hfew
    | ok v =>
      obtain ⟨hvalid, htaken⟩ := accepted_cases (hreplay q List.mem_cons_self) hverify
      rw [acceptances_accepted hverify] at hfew ⊢
      rw [List.pairwise_cons]
      refine ⟨?_, ih htail hclock.2 fun pre a post h => hfew (_ :: pre) a post (congrArg (List.cons _) h)⟩
      have hholds : memo'.Holds v.claims.jti v.claims.exp 0 := by
        rw [ReplayMemo.remember_eq_some htaken]
        exact ReplayMemo.holds_put _ _ _
      refine not_accepted_again hvalid htail hclock.2 hholds ?_
      rw [Nat.zero_add]
      exact hfew [] _ _ rfl

end oneShot

/-- With replay protection on and a clock that does not go back, in every sequence of presentations where fewer
than `REPLAY_MAX_ENTRIES` other tokens are accepted while an accepted token is valid, no two acceptances are of
one token, and a refused presentation leaves the memory, and thereby the answers to all later ones, as it
was. -/
theorem accepted_once {Key : Type} (decodeJson : List Char → Option JsonObject)
    (verifySignature : Key → List Char → List Char → Bool) (qs : List (Presentation Key))
    (hreplay : ∀ q ∈ qs, q.replayCheck = true) (hclock : qs.Pairwise fun q q' => q.nowSec ≤ q'.nowSec)
    (hfew : ∀ pre a post, acceptances decodeJson verifySignature Keyed.empty qs = pre ++ a :: post →
      (a.others post).length < REPLAY_MAX_ENTRIES) :
    ((acceptances decodeJson verifySignature Keyed.empty qs).Pairwise fun a b =>
        a.token ≠ b.token ∧ ¬ a.Same b) ∧
      ∀ memo (q : Presentation Key) (r : TokenRefusal) later,
        (verifyDelegationToken decodeJson verifySignature memo q).2 = .error r →
          (verifyDelegationToken decodeJson verifySignature memo q).1 = memo ∧
            presentAll decodeJson verifySignature memo (q :: later) =
              ((presentAll decodeJson verifySignature memo later).1,
                .error r :: (presentAll decodeJson verifySignature memo later).2) := by
  refine ⟨?_, fun memo q r later h => ⟨refused_memo h, ?_⟩⟩
  · refine (accepted_pairwise hreplay hclock hfew).imp_of_mem fun {a b} ha hb hother => ⟨fun htoken => ?_, hother⟩
    exact hother ((acceptances_valid hreplay a ha).1.same (acceptances_valid hreplay b hb).1 htoken)
  · rw [presentAll, refused_memo h, h]

/-! ## A token that is presented twice -/

def sampleHeader : List Char :=
  ["eyJhbGciOiJFZERTQSIs", "InR5cCI6IkpXVCIsImtp", "ZCI6ImsxIn0"].flatMap String.toList

def samplePayload : List Char :=
  ["eyJpc3MiOiJodHRwczov", "L3Nzby50ZXN0IiwiYXVk", "Ijoib2JsaWd1YXJkIiwi", "YXpwIjoib2JsaWh1YiIs",
    "InN1YiI6ImFwcDpvYmxp", "aHViIiwianRpIjoiMDAw", "MDAwMDAtMDAwMC00MDAw", "LTgwMDAtMDAwMDAwMDAw",
    "MDAxIiwiaWF0IjoxNzAw", "MDAwMDAwLCJuYmYiOjE3", "MDAwMDAwMDAsImV4cCI6", "MTcwMDAwMDEyMH0"].flatMap String.toList

def sampleSignature : List Char :=
  ["jQDW5qHUych2Bbdqb0BZ", "cTU9zq-Fvulr0GuEXON2", "oSm9J683a5OG-X7TGIpY", "g25ALNoJyMHgVWOdvA-1",
    "jwSBCw"].flatMap String.toList

/-- The two segments of the sample token, decoded. -/
def sampleDecode (segment : List Char) : Option JsonObject :=
  if segment = sampleHeader then some fun
    | "alg" => .str "EdDSA".toList
    | "typ" => .str "JWT".toList
    | "kid" => .str "k1".toList
    | _ => .other
  else if segment = samplePayload then some fun
    | "iss" => .str "https://sso.test".toList
    | "aud" => .str "obliguard".toList
    | "azp" => .str "oblihub".toList
    | "sub" => .str "app:oblihub".toList
    | "jti" => .str "00000000-0000-4000-8000-000000000001".toList
    | "iat" => .int 1700000000
    | "nbf" => .int 1700000000
    | "exp" => .int 1700000120
    | _ => .other
  else none

/-- The signature under the only key. -/
def sampleVerify (_ : Unit) (signed signature : List Char) : Bool :=
  signed == sampleHeader ++ '.' :: samplePayload && signature == sampleSignature

def samplePresentation (nowSec : Int) : Presentation Unit where
  authorization := some ("Bearer ".toList ++ sampleHeader ++ '.' :: samplePayload ++ '.' :: sampleSignature)
  expectedAudience := "obliguard".toList
  origin := some ⟨"https://sso.test".toList, "https://sso.test".toList⟩
  resolveKey _ kid := if kid = "k1".toList then .key () else .failure .kidUnknown
  nowSec := nowSec
  replayCheck := true

/-- At once, and in the last second the token is valid. -/
def samplePresentations : List (Presentation Unit) := [1700000000, 1700000149].map samplePresentation

theorem accepted_once_second :
    (acceptances sampleDecode sampleVerify Keyed.empty samplePresentations).map Acceptance.nowSec = [1700000000] ∧
      (acceptances sampleDecode sampleVerify Keyed.empty samplePresentations).Pairwise fun a b =>
        a.token ≠ b.token ∧ ¬ a.Same b := by
  have hfirst : (acceptances sampleDecode sampleVerify Keyed.empty samplePresentations).map
      Acceptance.nowSec = [1700000000] := by decide +kernel
  refine ⟨hfirst, (accepted_once sampleDecode sampleVerify samplePresentations (by decide) (by decide) ?_).1⟩
  intro pre a post h
  have hone := congrArg List.length hfirst
  have hpost : (a.others post).length ≤ post.length := List.length_filter_le _ _
  rw [List.length_map, h, List.length_append, List.length_cons, List.length_singleton] at hone
  exact Nat.lt_of_le_of_lt hpost (by rw [REPLAY_MAX_ENTRIES]; omega)

end Obliguard.Server
