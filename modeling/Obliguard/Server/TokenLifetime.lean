import Obliguard.Server.DelegationAuth

/-!
# The lifetime of a delegation token

A token is accepted while `nbf - CLOCK_SKEW_SECONDS ≤ now < exp + CLOCK_SKEW_SECONDS`; its lifetime `exp - iat` is
bounded, but `iat` is not compared with the clock. `lifetime_bounded_iff` says from which `exp` on a token that is
accepted now is still accepted more than `MAX_LIFETIME_SEC + 2 * CLOCK_SKEW_SECONDS` seconds later.
-/

namespace Obliguard.Server

open Checks

section lifetime
variable {Key : Type} {decodeJson : List Char → Option JsonObject}
  {verifySignature : Key → List Char → List Char → Bool} {memo memo' : ReplayMemo (List Char)}
  {q : Presentation Key} {v : VerifiedDelegation} {kid : List Char}

theorem checkPayload_later {p : JsonObject} {expectedAudience issuer : List Char} {nowSec later : Int}
    (h : checkPayload p expectedAudience issuer nowSec = .ok v) (hle : nowSec ≤ later)
    (hlive : later < v.claims.exp + CLOCK_SKEW_SECONDS) : checkPayload p expectedAudience issuer later = .ok v := by
  simp only [checkPayload, Checks.bind_eq_ok, need_eq_ok, refuseIf_eq_ok] at h ⊢
  obtain ⟨iat, hiat, nbf, hnbf, exp, hexp, aud, haud, _, haudience, iss, hiss, _, hissuer, azp, hazp, _, hslug, jti,
    hjti, _, huuid, _, hstarted, _, -, _, hlifetime, sub, hsub, h⟩ := h
  have hstill : nbf ≤ later + CLOCK_SKEW_SECONDS := by
    have := of_decide_eq_false hstarted
    omega
  have hunexpired : later - CLOCK_SKEW_SECONDS < exp := by
    rw [← Except.ok.inj h] at hlive
    have hlive : later < exp + CLOCK_SKEW_SECONDS := hlive
    omega
  exact ⟨iat, hiat, nbf, hnbf, exp, hexp, aud, haud, (), haudience, iss, hiss, (), hissuer, azp, hazp, (), hslug, jti,
    hjti, (), huuid, (), decide_eq_false (Int.not_lt.mpr hstill), (), decide_eq_false (Int.not_le.mpr hunexpired), (),
    hlifetime, sub, hsub, h⟩

theorem verifyChecks_later {later : Int} (h : verifyChecks decodeJson verifySignature q = .ok (v, kid))
    (hle : q.nowSec ≤ later) (hlive : later < v.claims.exp + CLOCK_SKEW_SECONDS) :
    verifyChecks decodeJson verifySignature { q with nowSec := later } = .ok (v, kid) := by
  simp only [verifyChecks, Checks.bind_eq_ok, need_eq_ok, refuseIf_eq_ok] at h ⊢
  obtain ⟨token, htoken, _, hsize, segs, hsegs, header, hheader, _, halg, kid', hkid, _, htyp, origin, horigin, key,
    hkey, _, hsignature, p, hp, v', hv, h⟩ := h
  obtain ⟨rfl, rfl⟩ := Prod.mk.inj (Except.ok.inj h)
  refine ⟨token, htoken, (), hsize, segs, hsegs, header, hheader, (), halg, kid', hkid, (), htyp, origin, horigin, key,
    hkey, (), hsignature, p, hp, v', ?_, rfl⟩
  cases hcheck : checkPayload p q.expectedAudience origin.issuer q.nowSec with
  | error f =>
    rw [hcheck] at hv
    contradiction
  | ok accepted =>
    rw [hcheck] at hv
    obtain rfl := Except.ok.inj hv
    rw [checkPayload_later hcheck hle hlive]
    rfl

theorem verifyChecks_of_accepted
    (h : (verifyDelegationToken decodeJson verifySignature memo q).2 = .ok v) :
    ∃ kid, verifyChecks decodeJson verifySignature q = .ok (v, kid) := by
  unfold verifyDelegationToken at h
  split at h
  · contradiction
  · rename_i v' kid hv
    have hsame : v' = v := by
      split at h
      · split at h
        · exact Except.ok.inj h
        · contradiction
      · exact Except.ok.inj h
    exact ⟨kid, hsame ▸ hv⟩

theorem accepted_fresh (h : verifyChecks decodeJson verifySignature q = .ok (v, kid)) :
    (verifyDelegationToken decodeJson verifySignature Keyed.empty q).2 = .ok v := by
  unfold verifyDelegationToken
  rw [h]
  dsimp only
  split
  · rfl
  · rfl

end lifetime

/-- A token that is accepted now, and whose payload has `exp` as its expiry, is accepted no more than
`MAX_LIFETIME_SEC + 2 * CLOCK_SKEW_SECONDS` seconds later, by whatever verifier, exactly when `exp` is at most
`MAX_LIFETIME_SEC + CLOCK_SKEW_SECONDS + 1` seconds ahead. -/
theorem lifetime_bounded_iff {Key : Type} (decodeJson : List Char → Option JsonObject)
    (verifySignature : Key → List Char → List Char → Bool) (memo : ReplayMemo (List Char)) (q : Presentation Key)
    (p : JsonObject) (exp : Int) (hpayload : tokenPayload decodeJson (bearerToken q.authorization) = some p)
    (hexp : p "exp" = .int exp) (haccepted : ∃ v, (verifyDelegationToken decodeJson verifySignature memo q).2 = .ok v) :
    (∀ (later : ReplayMemo (List Char)) (q' : Presentation Key),
        bearerToken q'.authorization = bearerToken q.authorization →
        q.nowSec + (MAX_LIFETIME_SEC + 2 * CLOCK_SKEW_SECONDS) < q'.nowSec →
        ∀ v', (verifyDelegationToken decodeJson verifySignature later q').2 ≠ .ok v') ↔
      exp ≤ q.nowSec + (MAX_LIFETIME_SEC + CLOCK_SKEW_SECONDS + 1) := by
  obtain ⟨v, hv⟩ := haccepted
  -- every acceptance of the token reads this expiry
  have hread : ∀ (q' : Presentation Key) (v' : VerifiedDelegation) (kid : List Char),
      bearerToken q'.authorization = bearerToken q.authorization →
      verifyChecks decodeJson verifySignature q' = .ok (v', kid) →
      v'.claims.exp = exp ∧ q'.nowSec < exp + CLOCK_SKEW_SECONDS := by
    intro q' v' kid htoken hchecks
    have hvalid := verifyChecks_valid hchecks
    obtain ⟨p', hp', -, hexp'⟩ := hvalid.payload
    rw [htoken, hpayload] at hp'
    rw [← Option.some.inj hp', hexp] at hexp'
    have heq : exp = v'.claims.exp := Option.some.inj hexp'
    exact ⟨heq.symm, heq ▸ hvalid.live⟩
  obtain ⟨kid, hchecks⟩ := verifyChecks_of_accepted hv
  obtain ⟨hclaims, -⟩ := hread q v kid rfl hchecks
  constructor
  · intro hbounded
    by_contra hlong
    refine hbounded Keyed.empty { q with nowSec := q.nowSec + (MAX_LIFETIME_SEC + 2 * CLOCK_SKEW_SECONDS) + 1 } rfl
      (Int.lt_succ _) v (accepted_fresh (verifyChecks_later hchecks ?_ ?_))
    · simp only [MAX_LIFETIME_SEC, CLOCK_SKEW_SECONDS]
      omega
    · rw [hclaims]
      simp only [MAX_LIFETIME_SEC, CLOCK_SKEW_SECONDS] at hlong ⊢
      omega
  · intro hnear later q' htoken hlater v' hv'
    obtain ⟨kid', hchecks'⟩ := verifyChecks_of_accepted hv'
    obtain ⟨-, hlive⟩ := hread q' v' kid' htoken hchecks'
    simp only [MAX_LIFETIME_SEC, CLOCK_SKEW_SECONDS] at hnear hlater hlive
    omega

/-! ## A token issued in the future -/

/-- The payload of the sample token, valid from 1700000000 on but issued much later. -/
def futureDecode (segment : List Char) : Option JsonObject :=
  (sampleDecode segment).map fun p field =>
    if field = "iat" then .int 1900000000 else if field = "exp" then .int 1900000120 else p field

/-- The sample token is accepted, and runs as long as it should. -/
theorem lifetime_bounded_sample :
    (verifyDelegationToken sampleDecode sampleVerify Keyed.empty (samplePresentation 1700000000)).2.toOption.isSome =
      true ∧
    ∀ (later : ReplayMemo (List Char)) (q' : Presentation Unit),
      bearerToken q'.authorization = bearerToken (samplePresentation 1700000000).authorization →
      1700000000 + (MAX_LIFETIME_SEC + 2 * CLOCK_SKEW_SECONDS) < q'.nowSec →
      ∀ v', (verifyDelegationToken sampleDecode sampleVerify later q').2 ≠ .ok v' := by
  have hexp : (tokenPayload sampleDecode (bearerToken (samplePresentation 1700000000).authorization)).map (· "exp") =
      some (.int 1700000120) := by decide +kernel
  obtain ⟨p, hp, hexp⟩ := Option.map_eq_some_iff.mp hexp
  have haccepted : (verifyDelegationToken sampleDecode sampleVerify Keyed.empty
      (samplePresentation 1700000000)).2.toOption.isSome = true := by decide +kernel
  exact ⟨haccepted, (lifetime_bounded_iff sampleDecode sampleVerify Keyed.empty (samplePresentation 1700000000) p
    1700000120 hp hexp (exists_ok haccepted)).mpr (by decide)⟩

/-- The token issued in the future is accepted six years before it expires, and the day before. -/
theorem lifetime_unbounded_future :
    ¬ ∀ (memo : ReplayMemo (List Char)) (q : Presentation Unit) (v : VerifiedDelegation),
      (verifyDelegationToken futureDecode sampleVerify memo q).2 = .ok v →
      ∀ (later : ReplayMemo (List Char)) (q' : Presentation Unit),
        bearerToken q'.authorization = bearerToken q.authorization →
        q.nowSec + (MAX_LIFETIME_SEC + 2 * CLOCK_SKEW_SECONDS) < q'.nowSec →
        ∀ v', (verifyDelegationToken futureDecode sampleVerify later q').2 ≠ .ok v' := by
  intro hbounded
  have hfirst : (verifyDelegationToken futureDecode sampleVerify Keyed.empty
      (samplePresentation 1700000000)).2.toOption.isSome = true := by decide +kernel
  have hlast : (verifyDelegationToken futureDecode sampleVerify Keyed.empty
      (samplePresentation 1899913600)).2.toOption.isSome = true := by decide +kernel
  obtain ⟨v, hv⟩ := exists_ok hfirst
  obtain ⟨v', hv'⟩ := exists_ok hlast
  exact hbounded Keyed.empty (samplePresentation 1700000000) v hv Keyed.empty (samplePresentation 1899913600) rfl
    (by decide) v' hv'

end Obliguard.Server
