import Mathlib.Data.ENat.Basic
import Obliguard.Lib.Checks
import Obliguard.Lib.Json
import Obliguard.Server.BanEngine

/-!
# The duration of automatic bans

`validate`, `parseStored` and `ttlFor` of `server/src/services/banPolicy.service.ts`. An accepted policy escalates
(`Escalates`): each step of its ladder keys on more earlier bans than the one before and lasts at least as long.
`banPolicy_stored` says that such a policy is read back as it was stored, and that more earlier bans never make a ban
shorter.
-/

namespace Obliguard.Server

open Checks Json

/-- A parameter of an error. -/
inductive PolicyParam
  | text (s : String)
  | number (n : ℤ)
deriving DecidableEq

/-- `codedError`. -/
structure PolicyError where
  status : Nat
  code : String
  message : String
  params : List (String × PolicyParam)
deriving DecidableEq

def MIN_BAN_TTL_SECONDS : Nat := 300

def MAX_BAN_TTL_SECONDS : Nat := 365 * 24 * 3600

def MAX_LADDER_STEPS : Nat := 10

def MAX_LADDER_PRIOR_BANS : Nat := 1000

structure BanTtlChoice where
  ttlSeconds : Option Nat
  stepIndex : Option Nat
deriving DecidableEq

deriving instance DecidableEq for BanPolicyStep, BanPolicy

def autoBanTtlSecondsKey : JsText := units "autoBanTtlSeconds".toList

def ladderKey : JsText := units "ladder".toList

def priorBansKey : JsText := units "priorBans".toList

def ttlSecondsKey : JsText := units "ttlSeconds".toList

/-- A number that `Number.isSafeInteger` accepts. -/
def safeInteger : Option Json → Option ℤ
  | some (.number (.finite x)) => if x.den = 1 ∧ x.num.natAbs < 2 ^ 53 then some x.num else none
  | _ => none

/-! ## Reading -/

/-- The fields of a value whose type is `object`: an array has none of those that are read. -/
def objectFields : Json → Option (List (JsText × Json))
  | .object fields => some fields
  | .array _ => some []
  | _ => none

/-- `readTtl`. -/
def readTtl (v : Option Json) : Option Nat :=
  ((safeInteger v).filter fun n : ℤ => MIN_BAN_TTL_SECONDS ≤ n && n ≤ MAX_BAN_TTL_SECONDS).map Int.toNat

/-- A step as `parseStored` reads it, or `none` where it is dropped. -/
def readStep (s : Json) : Option BanPolicyStep :=
  (objectFields s).bind fun fields =>
    ((safeInteger (get fields priorBansKey)).filter fun n => 1 ≤ n).map fun n =>
      ⟨n.toNat, readTtl (get fields ttlSecondsKey)⟩

/-- `parseStored`. -/
def parseStored (raw : Option (List Char)) : Option BanPolicy :=
  (raw.filter fun s => s ≠ []).bind fun s => (Json.parse s).bind fun obj => (objectFields obj).map fun o =>
    let steps := match get o ladderKey with
      | some (.array items) => items.filterMap readStep
      | _ => []
    ⟨readTtl (get o autoBanTtlSecondsKey), steps.mergeSort fun a b => a.priorBans ≤ b.priorBans⟩

/-! ## Checking -/

/-- `validTtl`. -/
def validTtl (v : Json) (field : String) : Except PolicyError (Option Nat) :=
  match v with
  | .null => .ok none
  | v => do
    let n ← need (safeInteger (some v)) ⟨400, "BAN_TTL_NOT_INTEGER",
      field ++ " must be a whole number of seconds, or null (permanent)", [("field", .text field)]⟩
    refuseIf (n < MIN_BAN_TTL_SECONDS || n > MAX_BAN_TTL_SECONDS) ⟨400, "BAN_TTL_OUT_OF_RANGE",
      field ++ " must be between " ++ toString MIN_BAN_TTL_SECONDS ++ " and " ++ toString MAX_BAN_TTL_SECONDS ++
        " seconds, or null (permanent)",
      [("field", .text field), ("min", .number MIN_BAN_TTL_SECONDS), ("max", .number MAX_BAN_TTL_SECONDS)]⟩
    return some n.toNat

/-- `ttlRank`: a permanent ban is longer than every timed one. -/
def ttlRank : Option Nat → ℕ∞
  | none => ⊤
  | some n => n

/-- A step of the ladder, checked against the step or the base before it. -/
def validateStep (i prevPrior : Nat) (prevTtl : Option Nat) (raw : Json) : Except PolicyError BanPolicyStep := do
  let name := "ladder[" ++ toString i ++ "]"
  let step : String × PolicyParam := ("step", .number (i + 1))
  let s ← need (match raw with | .object fields => some fields | _ => none)
    ⟨400, "BAN_LADDER_STEP_INVALID", name ++ " is invalid", [step]⟩
  let n ← need ((safeInteger (get s priorBansKey)).filter fun n : ℤ => 1 ≤ n && n ≤ MAX_LADDER_PRIOR_BANS)
    ⟨400, "BAN_LADDER_PRIOR_BANS_INVALID",
      name ++ ".priorBans must be a whole number between 1 and " ++ toString MAX_LADDER_PRIOR_BANS,
      [step, ("max", .number MAX_LADDER_PRIOR_BANS)]⟩
  refuseIf (n ≤ prevPrior)
    ⟨400, "BAN_LADDER_ORDER", "ladder steps must be in strictly ascending priorBans order", []⟩
  let ttl ← need (get s ttlSecondsKey)
    ⟨400, "BAN_LADDER_TTL_REQUIRED", name ++ ".ttlSeconds is required (null = permanent)", [step]⟩
  let ttlSeconds ← validTtl ttl (name ++ ".ttlSeconds")
  refuseIf (ttlRank ttlSeconds < ttlRank prevTtl) ⟨400, "BAN_LADDER_TTL_DECREASING",
    name ++ " is shorter than the duration before it: a repeat offence never gets a shorter ban", [step]⟩
  return ⟨n.toNat, ttlSeconds⟩

/-- The steps from the `i`-th on. -/
def validateSteps (i prevPrior : Nat) (prevTtl : Option Nat) : List Json → Except PolicyError (List BanPolicyStep)
  | [] => .ok []
  | raw :: rest => do
    let step ← validateStep i prevPrior prevTtl raw
    let steps ← validateSteps (i + 1) step.priorBans step.ttlSeconds rest
    return step :: steps

/-- `validate`. -/
def validate (input : Json) : Except PolicyError BanPolicy := do
  let o ← need (match input with | .object fields => some fields | _ => none)
    ⟨400, "BAN_POLICY_INVALID", "Invalid ban policy", []⟩
  let ttl ← need (get o autoBanTtlSecondsKey)
    ⟨400, "BAN_POLICY_TTL_REQUIRED", "autoBanTtlSeconds is required (null = permanent)", []⟩
  let autoBanTtlSeconds ← validTtl ttl "autoBanTtlSeconds"
  let rawLadder ← need (match get o ladderKey with
      | none | some .null => some []
      | some (.array items) => some items
      | _ => none)
    ⟨400, "BAN_LADDER_NOT_ARRAY", "ladder must be an array", []⟩
  refuseIf (rawLadder.length > MAX_LADDER_STEPS) ⟨400, "BAN_LADDER_TOO_LONG",
    "ladder has at most " ++ toString MAX_LADDER_STEPS ++ " steps", [("max", .number MAX_LADDER_STEPS)]⟩
  let ladder ← validateSteps 0 0 autoBanTtlSeconds rawLadder
  return ⟨autoBanTtlSeconds, ladder⟩

/-! ## Choosing -/

/-- `ttlFor`. -/
def ttlFor (policy : BanPolicy) (priorBans : Nat) : BanTtlChoice :=
  policy.ladder.zipIdx.foldl
    (fun choice s => if s.1.priorBans ≤ priorBans then ⟨s.1.ttlSeconds, some s.2⟩ else choice)
    ⟨policy.autoBanTtlSeconds, none⟩

/-! ## Accepted policies -/

/-- A duration that `validTtl` accepts. -/
def ValidTtl (ttl : Option Nat) : Prop := ∀ n ∈ ttl, MIN_BAN_TTL_SECONDS ≤ n ∧ n ≤ MAX_BAN_TTL_SECONDS

/-- Every step keys on more earlier bans than the one before it, and lasts at least as long. -/
def Escalates (prevPrior : Nat) (prevTtl : Option Nat) : List BanPolicyStep → Prop
  | [] => True
  | s :: rest => prevPrior < s.priorBans ∧ s.priorBans ≤ MAX_LADDER_PRIOR_BANS ∧ ValidTtl s.ttlSeconds ∧
      ttlRank prevTtl ≤ ttlRank s.ttlSeconds ∧ Escalates s.priorBans s.ttlSeconds rest

theorem validTtl_ok {v : Json} {field : String} {ttl : Option Nat} (h : validTtl v field = .ok ttl) : ValidTtl ttl := by
  unfold validTtl at h
  split at h
  · rw [← Except.ok.inj h]
    exact fun n hn => by contradiction
  · simp only [Checks.bind_eq_ok, need_eq_ok, refuseIf_eq_ok] at h
    obtain ⟨n, -, -, hrange, h⟩ := h
    rw [← Except.ok.inj h]
    intro m hm
    obtain rfl := Option.some.inj hm
    simp only [Bool.or_eq_false_iff, decide_eq_false_iff_not, not_lt] at hrange
    exact ⟨(Int.le_toNat ((Int.natCast_nonneg _).trans hrange.1)).mpr hrange.1, Int.toNat_le.mpr hrange.2⟩

theorem validateStep_ok {i : Nat} {prevPrior : Nat} {prevTtl : Option Nat} {raw : Json} {s : BanPolicyStep}
    (h : validateStep i prevPrior prevTtl raw = .ok s) : prevPrior < s.priorBans ∧
      s.priorBans ≤ MAX_LADDER_PRIOR_BANS ∧ ValidTtl s.ttlSeconds ∧ ttlRank prevTtl ≤ ttlRank s.ttlSeconds := by
  simp only [validateStep, Checks.bind_eq_ok, need_eq_ok, refuseIf_eq_ok] at h
  obtain ⟨fields, -, n, hn, -, horder, ttl, -, ttlSeconds, hvalid, -, hrank, h⟩ := h
  rw [← Except.ok.inj h]
  have hbounds := (Option.filter_eq_some_iff.mp hn).2
  simp only [Bool.and_eq_true, decide_eq_true_eq] at hbounds
  have horder := not_le.mp (of_decide_eq_false horder)
  exact ⟨Int.lt_toNat.mpr horder, Int.toNat_le.mpr hbounds.2, validTtl_ok hvalid,
    not_lt.mp (of_decide_eq_false hrank)⟩

theorem validateSteps_ok {i : Nat} {prevPrior : Nat} {prevTtl : Option Nat} {raws : List Json}
    {steps : List BanPolicyStep} (h : validateSteps i prevPrior prevTtl raws = .ok steps) :
    Escalates prevPrior prevTtl steps := by
  induction raws generalizing i prevPrior prevTtl steps with
  | nil =>
    rw [← Except.ok.inj h]
    trivial
  | cons raw raws ih =>
    simp only [validateSteps, Checks.bind_eq_ok] at h
    obtain ⟨s, hs, rest, hrest, h⟩ := h
    rw [← Except.ok.inj h]
    obtain ⟨hprior, hmax, hvalid, hrank⟩ := validateStep_ok hs
    exact ⟨hprior, hmax, hvalid, hrank, ih hrest⟩

theorem validate_ok {input : Json} {p : BanPolicy} (h : validate input = .ok p) :
    ValidTtl p.autoBanTtlSeconds ∧ Escalates 0 p.autoBanTtlSeconds p.ladder := by
  simp only [validate, Checks.bind_eq_ok, need_eq_ok, refuseIf_eq_ok] at h
  obtain ⟨o, -, ttl, -, autoBanTtlSeconds, hvalid, rawLadder, -, -, -, ladder, hladder, h⟩ := h
  rw [← Except.ok.inj h]
  exact ⟨validTtl_ok hvalid, validateSteps_ok hladder⟩

/-! ## More earlier bans -/

/-- The duration picked from a part of the ladder. -/
def ttlFrom (priorBans : Nat) (ttl : Option Nat) (ladder : List BanPolicyStep) : Option Nat :=
  ladder.foldl (fun ttl s => if s.priorBans ≤ priorBans then s.ttlSeconds else ttl) ttl

theorem ttlFor_eq (p : BanPolicy) (n : Nat) : (ttlFor p n).ttlSeconds = p.ttlFor n := by
  have hfold : ∀ (ladder : List BanPolicyStep) (i : Nat) (choice : BanTtlChoice),
      ((ladder.zipIdx i).foldl
        (fun choice s => if s.1.priorBans ≤ n then ⟨s.1.ttlSeconds, some s.2⟩ else choice) choice).ttlSeconds =
        ttlFrom n choice.ttlSeconds ladder := by
    intro ladder
    induction ladder with
    | nil => exact fun _ _ => rfl
    | cons s rest ih =>
      intro i choice
      rw [List.zipIdx_cons, List.foldl_cons, ih, ttlFrom, ttlFrom, List.foldl_cons]
      split
      · rfl
      · rfl
  exact hfold p.ladder 0 _

section escalates
variable {prior : Nat} {ttl : Option Nat} {ladder : List BanPolicyStep}

theorem ttlFrom_of_lt (h : Escalates prior ttl ladder) {n : Nat} (hn : n < prior) (t : Option Nat) :
    ttlFrom n t ladder = t := by
  induction ladder generalizing prior ttl with
  | nil => rfl
  | cons s rest ih =>
    obtain ⟨hprior, -, -, -, hrest⟩ := h
    have hlt : n < s.priorBans := hn.trans hprior
    rw [ttlFrom, List.foldl_cons, if_neg (not_le.mpr hlt)]
    exact ih hrest hlt

theorem le_ttlFrom (h : Escalates prior ttl ladder) (n : Nat) : ttlRank ttl ≤ ttlRank (ttlFrom n ttl ladder) := by
  induction ladder generalizing prior ttl with
  | nil => exact le_rfl
  | cons s rest ih =>
    obtain ⟨-, -, -, hrank, hrest⟩ := h
    rw [ttlFrom, List.foldl_cons]
    by_cases happly : s.priorBans ≤ n
    · rw [if_pos happly]
      exact hrank.trans (ih hrest)
    · rw [if_neg happly]
      exact (congrArg ttlRank (ttlFrom_of_lt hrest (not_le.mp happly) ttl)).ge

theorem ttlFrom_mono (h : Escalates prior ttl ladder) {m n : Nat} (hmn : m ≤ n) :
    ttlRank (ttlFrom m ttl ladder) ≤ ttlRank (ttlFrom n ttl ladder) := by
  induction ladder generalizing prior ttl with
  | nil => exact le_rfl
  | cons s rest ih =>
    by_cases happly : s.priorBans ≤ m
    · obtain ⟨-, -, -, -, hrest⟩ := h
      rw [ttlFrom, ttlFrom, List.foldl_cons, List.foldl_cons, if_pos happly, if_pos (happly.trans hmn)]
      exact ih hrest
    · -- fewer bans than the step keys on stay below every later step
      have hbase : ttlFrom m ttl (s :: rest) = ttl := by
        obtain ⟨-, -, -, -, hrest⟩ := h
        rw [ttlFrom, List.foldl_cons, if_neg happly]
        exact ttlFrom_of_lt hrest (not_le.mp happly) ttl
      rw [hbase]
      exact le_ttlFrom h n

theorem Escalates.of_mem (h : Escalates prior ttl ladder) {s : BanPolicyStep} (hs : s ∈ ladder) :
    prior < s.priorBans ∧ s.priorBans ≤ MAX_LADDER_PRIOR_BANS ∧ ValidTtl s.ttlSeconds := by
  induction ladder generalizing prior ttl with
  | nil => contradiction
  | cons t rest ih =>
    obtain ⟨hprior, hmax, hvalid, -, hrest⟩ := h
    rcases List.mem_cons.mp hs with rfl | hs
    · exact ⟨hprior, hmax, hvalid⟩
    · obtain ⟨hlater, h⟩ := ih hrest hs
      exact ⟨hprior.trans hlater, h⟩

theorem Escalates.pairwise (h : Escalates prior ttl ladder) :
    ladder.Pairwise fun a b => decide (a.priorBans ≤ b.priorBans) = true := by
  induction ladder generalizing prior ttl with
  | nil => exact List.Pairwise.nil
  | cons s rest ih =>
    obtain ⟨-, -, -, -, hrest⟩ := h
    exact List.pairwise_cons.mpr ⟨fun t ht => decide_eq_true (hrest.of_mem ht).1.le, ih hrest⟩

end escalates

/-! ## Storing -/

def ttlJson : Option Nat → Json
  | none => .null
  | some n => .number (.finite n)

def BanPolicyStep.json (s : BanPolicyStep) : Json :=
  .object [(priorBansKey, .number (.finite s.priorBans)), (ttlSecondsKey, ttlJson s.ttlSeconds)]

/-- The value that is stored. -/
def BanPolicy.json (p : BanPolicy) : Json :=
  .object [(autoBanTtlSecondsKey, ttlJson p.autoBanTtlSeconds), (ladderKey, .array (p.ladder.map (·.json)))]

theorem plainKey_policy : PlainKey autoBanTtlSecondsKey ∧ PlainKey ladderKey ∧ PlainKey priorBansKey ∧
    PlainKey ttlSecondsKey :=
  ⟨⟨"autoBanTtlSeconds".toList, rfl, by decide⟩, ⟨"ladder".toList, rfl, by decide⟩,
    ⟨"priorBans".toList, rfl, by decide⟩, ⟨"ttlSeconds".toList, rfl, by decide⟩⟩

theorem get_pair {k l : JsText} (v w : Json) (h : (l == k) = false) :
    Json.get [(k, v), (l, w)] k = some v ∧ Json.get [(k, v), (l, w)] l = some w := by
  constructor
  · simp only [Json.get, List.reverse_cons, List.reverse_nil, List.nil_append, List.cons_append, List.find?_cons, h,
      BEq.rfl, Option.map_some]
  · simp only [Json.get, List.reverse_cons, List.reverse_nil, List.nil_append, List.cons_append, List.find?_cons,
      BEq.rfl, Option.map_some]

theorem safeInteger_nat {n : Nat} (h : n < 2 ^ 53) : safeInteger (some (.number (.finite n))) = some (n : ℤ) :=
  if_pos ⟨rfl, h⟩

theorem ValidTtl.lt {n : Nat} (h : ValidTtl (some n)) : n < 2 ^ 53 := by
  have hn := (h n rfl).2
  rw [MAX_BAN_TTL_SECONDS] at hn
  omega

theorem writes_ttlJson {ttl : Option Nat} (h : ValidTtl ttl) : Writes (stringify (ttlJson ttl)) (ttlJson ttl) := by
  cases ttl with
  | none => exact writes_null
  | some n => exact writes_nat h.lt

theorem readTtl_ttlJson {ttl : Option Nat} (h : ValidTtl ttl) : readTtl (some (ttlJson ttl)) = ttl := by
  cases ttl with
  | none => rfl
  | some n =>
    obtain ⟨hlow, hhigh⟩ := h n rfl
    rw [readTtl, ttlJson, safeInteger_nat h.lt, Option.filter_some, if_pos]
    · rfl
    · rw [Bool.and_eq_true, decide_eq_true_eq, decide_eq_true_eq]
      exact ⟨Int.ofNat_le.mpr hlow, Int.ofNat_le.mpr hhigh⟩

section step
variable {s : BanPolicyStep} (hpos : 0 < s.priorBans) (hmax : s.priorBans ≤ MAX_LADDER_PRIOR_BANS)
  (httl : ValidTtl s.ttlSeconds)
include hmax httl

theorem writes_step : Writes (stringify s.json) s.json := by
  rw [MAX_LADDER_PRIOR_BANS] at hmax
  obtain ⟨-, -, hpriorKey, httlKey⟩ := plainKey_policy
  refine writes_object fun f hf => ?_
  rcases List.mem_pair.mp hf with rfl | rfl
  · exact ⟨hpriorKey, writes_nat (by omega)⟩
  · exact ⟨httlKey, writes_ttlJson httl⟩

include hpos in
theorem readStep_json : readStep s.json = some s := by
  rw [MAX_LADDER_PRIOR_BANS] at hmax
  have hone : (1 : ℤ) ≤ s.priorBans := Int.ofNat_le.mpr hpos
  obtain ⟨hprior, hseconds⟩ := get_pair (k := priorBansKey) (l := ttlSecondsKey)
    (.number (.finite s.priorBans)) (ttlJson s.ttlSeconds) (by decide)
  simp only [readStep, BanPolicyStep.json, objectFields, Option.bind_some, hprior, hseconds,
    safeInteger_nat (n := s.priorBans) (by omega), readTtl_ttlJson httl]
  rw [Option.filter_some, if_pos (decide_eq_true hone)]
  rfl

end step

theorem writes_policy {p : BanPolicy} (hbase : ValidTtl p.autoBanTtlSeconds)
    (h : Escalates 0 p.autoBanTtlSeconds p.ladder) : Writes (stringify p.json) p.json := by
  obtain ⟨hbaseKey, hladderKey, -, -⟩ := plainKey_policy
  refine writes_object fun f hf => ?_
  rcases List.mem_pair.mp hf with rfl | rfl
  · exact ⟨hbaseKey, writes_ttlJson hbase⟩
  · refine ⟨hladderKey, writes_array fun v hv => ?_⟩
    obtain ⟨s, hs, rfl⟩ := List.mem_map.mp hv
    obtain ⟨-, hmax, hvalid⟩ := h.of_mem hs
    exact writes_step hmax hvalid

theorem parseStored_json {p : BanPolicy} (hbase : ValidTtl p.autoBanTtlSeconds)
    (h : Escalates 0 p.autoBanTtlSeconds p.ladder) : parseStored (some (stringify p.json)) = some p := by
  have hwrites := writes_policy hbase h
  obtain ⟨c, rest, htext, -⟩ := hwrites.starts
  have hne : stringify p.json ≠ [] := by
    rw [htext]
    exact List.cons_ne_nil c rest
  have hsteps : (p.ladder.map (·.json)).filterMap readStep = p.ladder := by
    rw [List.filterMap_map]
    refine (List.filterMap_congr fun s hs => ?_).trans List.filterMap_some
    obtain ⟨hpos, hmax, hvalid⟩ := h.of_mem hs
    exact readStep_json hpos hmax hvalid
  obtain ⟨hbaseGet, hladderGet⟩ := get_pair (k := autoBanTtlSecondsKey) (l := ladderKey)
    (ttlJson p.autoBanTtlSeconds) (.array (p.ladder.map (·.json))) (by decide)
  rw [parseStored, Option.filter_some, if_pos (decide_eq_true hne), Option.bind_some, parse_of_writes hwrites,
    Option.bind_some]
  simp only [BanPolicy.json, objectFields, Option.map_some, hbaseGet, hladderGet, hsteps, readTtl_ttlJson hbase,
    List.mergeSort_of_pairwise h.pairwise]

/-- An accepted policy is read back as it was stored, and more earlier bans never make a ban shorter. -/
theorem banPolicy_stored (input : Json) (p : BanPolicy) (h : validate input = .ok p) :
    parseStored (some (stringify p.json)) = some p ∧
      (∀ m n : Nat, m ≤ n → ttlRank (ttlFor p m).ttlSeconds ≤ ttlRank (ttlFor p n).ttlSeconds) ∧
      ∀ n : Nat, ttlRank p.autoBanTtlSeconds ≤ ttlRank (ttlFor p n).ttlSeconds := by
  obtain ⟨hbase, hladder⟩ := validate_ok h
  refine ⟨parseStored_json hbase hladder, fun m n hmn => ?_, fun n => ?_⟩
  · rw [ttlFor_eq, ttlFor_eq]
    exact ttlFrom_mono hladder hmn
  · rw [ttlFor_eq]
    exact le_ttlFrom hladder n

/-- An hour, a day from the third ban on and for ever from the eleventh on. -/
def samplePolicy : BanPolicy := ⟨some 3600, [⟨2, some 86400⟩, ⟨10, none⟩]⟩

theorem banPolicy_stored_sample : validate samplePolicy.json = .ok samplePolicy ∧
    parseStored (some (stringify samplePolicy.json)) = some samplePolicy ∧
    ttlRank (ttlFor samplePolicy 1).ttlSeconds ≤ ttlRank (ttlFor samplePolicy 3).ttlSeconds := by
  have hvalid : validate samplePolicy.json = .ok samplePolicy := by decide
  obtain ⟨hstored, hmono, -⟩ := banPolicy_stored samplePolicy.json samplePolicy hvalid
  exact ⟨hvalid, hstored, hmono 1 3 (by decide)⟩

end Obliguard.Server
