import Obliguard.Agent.FirewallWorker

/-!
# Rate limits

The `rateLimits` field of the config frames, from `_handleHeartbeat` of `obliguardHub.service.ts` to
`applyRateLimitsFrame` of `cmd_ws.go`. The hub remembers of each channel whether it sent a clear, the
agent which set it applied last, and each leaves out what the other needs no more: the hub the field
of a channel it cleared, the agent the apply of a set it has. What a frame may leave out was said by a
frame before it (`FramesWf`), so once a frame is handled the agent has been told what to enforce; that
it does rests on the last `ApplyRateLimits` call (`rateLimits_converge`). A clear that failed is not
sent again on its channel (`rateLimits_not_cleared`).
-/

namespace Obliguard.Server

open Agent Runs

inductive RateLimitType
  | connection | rate | volume
deriving DecidableEq

inductive RateLimitAction
  | drop | reject | shape
deriving DecidableEq

structure RateLimitRule where
  type : RateLimitType
  port : Option Nat
  maxValue : Nat
  banMultiplier : Option Nat
  action : RateLimitAction
  banTtlSeconds : Option Nat
deriving DecidableEq

/-! ## The hub -/

/-- What `rateLimitsSent` of a channel says, when it is not `null`. -/
inductive RateLimitsSent
  | on | cleared
deriving DecidableEq

/-- A config frame. -/
structure RateLimitsFrame where
  /-- `none` when the field is left out. -/
  rateLimits : Option (List RateLimitRule)
  /-- What is to be enforced after it: nothing with the switch off, and with it on the list resolved
  for the heartbeat, if it could be resolved. -/
  wanted : Option (List RateLimitRule)
deriving DecidableEq

/-- `resolveForAgent`, of the enabled policies that apply to the device. -/
def resolveForAgent (enforcement : Bool) (policies : List RateLimitRule) : List RateLimitRule :=
  if enforcement then policies else []

/-- The field of the answer to a heartbeat, and `rateLimitsState`. -/
def rateLimitsField (rateLimitsOn : Bool) (resolved : Option (List RateLimitRule))
    (state : Option RateLimitsSent) : Option (List RateLimitRule) × Option RateLimitsSent :=
  if rateLimitsOn then
    match resolved with
    | some rules => (some rules, some .on)
    | none => (none, state)
  else if state = some .cleared then (none, state)
  else (some [], some .cleared)

/-- A channel of the device. -/
structure RateLimitConn where
  /-- The socket is open and not being closed. -/
  writable : Bool
  rateLimitsSent : Option RateLimitsSent
  /-- The `response.rateLimits` of the heartbeat being handled. -/
  handling : Option (Option (List RateLimitRule))
  /-- The frames written that the agent has not read. -/
  wire : List RateLimitsFrame

/-- The answer to the heartbeat being handled. -/
def RateLimitConn.answer (c : RateLimitConn) (rateLimitsOn : Bool)
    (resolved : Option (List RateLimitRule)) : RateLimitConn :=
  if c.writable then
    let field := rateLimitsField rateLimitsOn resolved c.rateLimitsSent
    { c with
      rateLimitsSent := field.2
      handling := none
      wire := c.wire ++ [⟨field.1, if rateLimitsOn then resolved else some []⟩] }
  else { c with handling := none }

/-! ## The agent -/

/-- What a call of `ApplyRateLimits` returned, and the limits that are enforced after it. -/
structure ApplyOutcome where
  failed : Bool
  enforced : List RateLimitRule

/-- The call succeeded. -/
def ApplyOutcome.Succeeds (o : ApplyOutcome) (rules : List RateLimitRule) : Prop :=
  o.failed = false ∧ o.enforced = rules

/-- What the commands of a call did: whether the chains could be deleted, whether the table is there,
and the rules that the script, or its statements one by one, installed. -/
structure NftCommands where
  deleted : Bool
  table : Bool
  installed : List RateLimitRule

/-- `ApplyRateLimits` of nftables. The results of the commands that clear are ignored, as are those
of the statements that follow a script that was refused. -/
def nftApplyRateLimits (enforced rules : List RateLimitRule) (c : NftCommands) : ApplyOutcome :=
  if rules = [] then ⟨false, if c.deleted then [] else enforced⟩
  else if c.table then ⟨false, c.installed⟩
  else ⟨true, enforced⟩

/-- `rateLimitState`, and what the firewall enforces. -/
structure RateLimitAgent where
  applied : Bool
  /-- The rules and the exempt addresses of `rateLimitKey`. -/
  key : Option (List RateLimitRule × List String)
  unsupportedSeen : Bool
  enforced : List RateLimitRule
  /-- The last field handled. -/
  told : Option (List RateLimitRule)
  /-- The last call of `ApplyRateLimits` left its rules enforced. -/
  effective : Bool

/-- An agent that just started, with the limits that an earlier process left. A backend without rate
limits has none. -/
def RateLimitAgent.init (supported : Bool) (enforced : List RateLimitRule) : RateLimitAgent :=
  ⟨false, none, false, if supported then enforced else [], none, true⟩

/-- Whether a field makes the agent call `ApplyRateLimits`. -/
def RateLimitAgent.calls (supported : Bool) (a : RateLimitAgent)
    (rules : Option (List RateLimitRule)) (exempt : List String) : Bool :=
  match rules with
  | none => false
  | some rules => supported && !(a.applied && a.key == some (rules, exempt))

/-- `applyRateLimitsFrame`, with the outcome of its call. -/
def applyRateLimitsFrame (supported : Bool) (a : RateLimitAgent)
    (rules : Option (List RateLimitRule)) (exempt : List String) (outcome : ApplyOutcome) :
    RateLimitAgent :=
  match rules with
  | none => a
  | some rules =>
    if !supported then { a with
      unsupportedSeen := a.unsupportedSeen || !rules.isEmpty, told := some rules }
    else if a.applied && a.key == some (rules, exempt) then { a with told := some rules }
    else if outcome.failed then { a with
      applied := false
      enforced := outcome.enforced
      told := some rules
      effective := outcome.enforced == rules }
    else { a with
      applied := true
      key := some (rules, exempt)
      enforced := outcome.enforced
      told := some rules
      effective := outcome.enforced == rules }

/-! ## The system -/

structure RateLimitSystem where
  /-- The switch, as `getRateLimitEnforcement` returns it. -/
  enforcement : Bool
  policies : List RateLimitRule
  conns : Registry RateLimitConn
  /-- The channel that the agent is on. -/
  session : Option Nat
  /-- The frames that the config worker has not taken. -/
  config : List RateLimitsFrame
  agent : RateLimitAgent

def RateLimitSystem.init (supported enforcement : Bool) (policies enforced : List RateLimitRule) :
    RateLimitSystem :=
  ⟨enforcement, policies, .empty, none, [], .init supported enforced⟩

inductive RateLimitEvent
  | setEnforcement (on : Bool)
  | setPolicies (policies : List RateLimitRule)
  /-- The agent opens a channel that `register` accepts. -/
  | connect (n : Nat)
  /-- The hub closes a channel, or finds it closed. -/
  | close (n : Nat)
  /-- The session of the agent ends; what it has not read is lost. -/
  | disconnect
  /-- `handlePush` of a heartbeat resolves the limits, or fails to. -/
  | heartbeat (n : Nat) (resolves : Bool)
  /-- The config frame. -/
  | answer (n : Nat)
  /-- The heartbeat gets no config frame: the device is pending or refused, or an error. -/
  | unanswered (n : Nat)
  /-- The read loop passes a frame to the config worker. -/
  | receive
  /-- The config worker handles a frame; a call of `ApplyRateLimits` has the outcome. -/
  | handle (exempt : List String) (outcome : ApplyOutcome)
  /-- `resyncFirewall`, with the bans read back or not. -/
  | resync (readable : Bool)
  /-- The agent is started again. -/
  | restart (enforced : List RateLimitRule)

def rateLimitStep (supported : Bool) (s : RateLimitSystem) : RateLimitEvent → Option RateLimitSystem
  | .setEnforcement on => some { s with enforcement := on }
  | .setPolicies policies => some { s with policies := policies }
  | .connect n =>
    if s.session = none ∧ (s.conns.get n).isNone then some { s with
      conns := s.conns.put n ⟨true, none, none, []⟩, session := some n }
    else none
  | .close n =>
    (s.conns.get n).map fun c => { s with conns := s.conns.put n { c with writable := false } }
  | .disconnect => some { s with session := none }
  | .heartbeat n resolves =>
    match s.conns.get n with
    | some c =>
      if c.handling.isNone then some { s with
        conns := s.conns.put n { c with
          handling := some (if resolves then some (resolveForAgent s.enforcement s.policies)
            else none) } }
      else none
    | none => none
  | .answer n =>
    match s.conns.get n with
    | some c => c.handling.map fun resolved => { s with
        conns := s.conns.put n (c.answer s.enforcement resolved) }
    | none => none
  | .unanswered n =>
    (s.conns.get n).map fun c => { s with conns := s.conns.put n { c with handling := none } }
  | .receive =>
    match s.session with
    | some n =>
      match s.conns.get n with
      | some c =>
        match c.wire with
        | f :: wire =>
          if s.config.length < cmdWSConfigQueueSize then some { s with
            conns := s.conns.put n { c with wire := wire }, config := s.config ++ [f] }
          else none
        | [] => none
      | none => none
    | none => none
  | .handle exempt outcome =>
    match s.config with
    | f :: config => some { s with
        config := config
        agent := applyRateLimitsFrame supported s.agent f.rateLimits exempt outcome }
    | [] => none
  | .resync readable => some { s with
      agent := if readable then { s.agent with applied := false } else s.agent }
  | .restart enforced => some { s with
      session := none, config := [], agent := .init supported enforced }

/-! ## What a frame may leave out -/

/-- A frame fits an agent that was last told `told`: it says what is wanted, or leaves out a clear
that the agent has been told. -/
def RateLimitsFrame.Fits (f : RateLimitsFrame) (told : Option (List RateLimitRule)) : Prop :=
  match f.rateLimits with
  | some rules => f.wanted = some rules
  | none => ∀ w ∈ f.wanted, w = [] ∧ told = some []

/-- What an agent was last told, after a frame. -/
def RateLimitsFrame.tells (told : Option (List RateLimitRule)) (f : RateLimitsFrame) :
    Option (List RateLimitRule) :=
  match f.rateLimits with
  | some rules => some rules
  | none => told

/-- What an agent was last told, after some frames. -/
def toldAfter (told : Option (List RateLimitRule)) (frames : List RateLimitsFrame) :
    Option (List RateLimitRule) :=
  frames.foldl RateLimitsFrame.tells told

/-- Each of the frames fits what the ones before it told. -/
def FramesWf : Option (List RateLimitRule) → List RateLimitsFrame → Prop
  | _, [] => True
  | told, f :: frames => f.Fits told ∧ FramesWf (f.tells told) frames

section frames
variable {told : Option (List RateLimitRule)} {frames : List RateLimitsFrame}

theorem toldAfter_append_singleton {f : RateLimitsFrame} :
    toldAfter told (frames ++ [f]) = f.tells (toldAfter told frames) := by
  simp [toldAfter]

theorem framesWf_append {more : List RateLimitsFrame} : FramesWf told (frames ++ more) ↔
    FramesWf told frames ∧ FramesWf (toldAfter told frames) more := by
  induction frames generalizing told with
  | nil => simp [FramesWf, toldAfter]
  | cons f frames ih =>
    rw [List.cons_append, FramesWf, FramesWf, ih, toldAfter, toldAfter, List.foldl_cons, and_assoc]

theorem framesWf_answer {c : RateLimitConn} {on : Bool} {resolved : Option (List RateLimitRule)}
    (h : FramesWf told (frames ++ c.wire))
    (hcleared : c.rateLimitsSent = some .cleared →
      toldAfter told (frames ++ c.wire) = some []) :
    FramesWf told (frames ++ (c.answer on resolved).wire) ∧
      ((c.answer on resolved).rateLimitsSent = some .cleared →
        toldAfter told (frames ++ (c.answer on resolved).wire) = some []) := by
  unfold RateLimitConn.answer
  split
  · dsimp only
    rw [← List.append_assoc, framesWf_append, toldAfter_append_singleton]
    simp only [FramesWf, and_true]
    unfold rateLimitsField RateLimitsFrame.Fits RateLimitsFrame.tells
    cases on with
    | true =>
      cases resolved with
      | none => exact ⟨⟨h, by simp⟩, hcleared⟩
      | some rules => exact ⟨⟨h, rfl⟩, by simp⟩
    | false =>
      by_cases hsent : c.rateLimitsSent = some .cleared
      · simp only [Bool.false_eq_true, if_false, if_pos hsent]
        refine ⟨⟨h, ?_⟩, hcleared⟩
        rintro w hw
        exact ⟨(Option.some.inj hw).symm, hcleared hsent⟩
      · simp only [Bool.false_eq_true, if_false, if_neg hsent]
        exact ⟨⟨h, trivial⟩, fun _ => trivial⟩
  · exact ⟨h, hcleared⟩

end frames

/-! ## The agent and what it was told -/

/-- The memory of an agent, and its last call, are about the field it was last told. -/
structure AgentTold (supported : Bool) (a : RateLimitAgent) : Prop where
  unsupported : supported = false → a.enforced = []
  applied : supported = true → a.applied = true → ∃ rules exempt,
    a.key = some (rules, exempt) ∧ a.told = some rules
  effective : supported = true → ∀ rules, a.told = some rules →
    (a.effective = true ↔ a.enforced = rules)

section agent
variable {supported : Bool} {a : RateLimitAgent} {rules : List RateLimitRule}
  {exempt : List String} {outcome : ApplyOutcome}

theorem agentTold_init (enforced : List RateLimitRule) : AgentTold supported (.init supported enforced) := by
  refine ⟨?_, ?_, ?_⟩
  · rintro rfl
    rfl
  · intro _ h
    contradiction
  · intro _ rules h
    contradiction

theorem agentTold_resync (h : AgentTold supported a) :
    AgentTold supported { a with applied := false } :=
  { h with applied := fun _ hap => by contradiction }

theorem agentTold_rules (h : AgentTold supported a) :
    AgentTold supported (applyRateLimitsFrame supported a (some rules) exempt outcome) := by
  rw [applyRateLimitsFrame]
  cases supported with
  | false =>
    refine ⟨fun _ => h.unsupported rfl, ?_, ?_⟩
    · intro hsupported
      contradiction
    · intro hsupported
      contradiction
  | true =>
    simp only [Bool.not_true, Bool.false_eq_true, if_false]
    split
    · rename_i hskip
      obtain ⟨hap, hkey⟩ := Bool.and_eq_true_iff.mp hskip
      obtain ⟨r, e, hk, htold⟩ := h.applied rfl hap
      have hsame : some (r, e) = some (rules, exempt) := hk ▸ eq_of_beq hkey
      obtain ⟨rfl, rfl⟩ := Prod.mk.inj (Option.some.inj hsame)
      refine ⟨by simp, fun _ _ => ⟨r, e, hk, rfl⟩, ?_⟩
      rintro _ r' hr'
      exact h.effective rfl r' (htold.trans hr')
    · split
      · refine ⟨by simp, by simp, ?_⟩
        rintro _ r hr
        obtain rfl := Option.some.inj hr
        exact beq_iff_eq
      · refine ⟨by simp, fun _ _ => ⟨rules, exempt, rfl, rfl⟩, ?_⟩
        rintro _ r hr
        obtain rfl := Option.some.inj hr
        exact beq_iff_eq

theorem agentTold_applyRateLimitsFrame (h : AgentTold supported a)
    (field : Option (List RateLimitRule)) :
    AgentTold supported (applyRateLimitsFrame supported a field exempt outcome) := by
  cases field with
  | none => exact h
  | some rules => exact agentTold_rules h

theorem told_applyRateLimitsFrame {f : RateLimitsFrame} :
    (applyRateLimitsFrame supported a f.rateLimits exempt outcome).told = f.tells a.told := by
  unfold applyRateLimitsFrame RateLimitsFrame.tells
  cases f.rateLimits with
  | none => rfl
  | some rules =>
    dsimp only
    split
    · rfl
    · split
      · rfl
      · split <;> rfl

theorem enforced_of_not_calls {field : Option (List RateLimitRule)}
    (h : a.calls supported field exempt = false) :
    (applyRateLimitsFrame supported a field exempt outcome).enforced = a.enforced := by
  cases field with
  | none => rfl
  | some rules =>
    rw [RateLimitAgent.calls] at h
    rw [applyRateLimitsFrame]
    cases supported with
    | false => rfl
    | true =>
      have hskip : (a.applied && a.key == some (rules, exempt)) = true := by simpa using h
      simp [hskip]

theorem enforced_of_calls {field : Option (List RateLimitRule)}
    (h : a.calls supported field exempt = true) :
    (applyRateLimitsFrame supported a field exempt outcome).enforced = outcome.enforced := by
  cases field with
  | none => contradiction
  | some rules =>
    rw [RateLimitAgent.calls, Bool.and_eq_true_iff] at h
    obtain ⟨rfl, hcall⟩ := h
    rw [applyRateLimitsFrame]
    rw [Bool.not_eq_true'] at hcall
    simp only [Bool.not_true, Bool.false_eq_true, if_false, hcall]
    split <;> rfl

end agent

/-! ## Reachable states -/

/-- The frames that the agent is to handle fit it, and a channel marked as cleared ends in a clear. -/
structure RateLimitInv (supported : Bool) (s : RateLimitSystem) : Prop where
  agent : AgentTold supported s.agent
  config : FramesWf s.agent.told s.config
  session : ∀ n c, s.session = some n → s.conns.get n = some c →
    FramesWf s.agent.told (s.config ++ c.wire) ∧
      (c.rateLimitsSent = some .cleared → toldAfter s.agent.told (s.config ++ c.wire) = some [])

section inv
variable {supported : Bool} {s s' : RateLimitSystem} {n : Nat} {c c' : RateLimitConn}

theorem rateLimitInv_init (enforcement : Bool) (policies enforced : List RateLimitRule) :
    RateLimitInv supported (.init supported enforcement policies enforced) := by
  refine ⟨agentTold_init enforced, trivial, ?_⟩
  intro n c h
  contradiction

theorem rateLimitInv_conn (h : RateLimitInv supported s)
    (hc : s.session = some n → FramesWf s.agent.told (s.config ++ c'.wire) ∧
      (c'.rateLimitsSent = some .cleared → toldAfter s.agent.told (s.config ++ c'.wire) = some [])) :
    RateLimitInv supported { s with conns := s.conns.put n c' } := by
  refine { h with session := ?_ }
  intro m d hm hd
  rcases Registry.get_put_eq_some hd with ⟨rfl, rfl⟩ | ⟨-, hd⟩
  · exact hc hm
  · exact h.session m d hm hd

theorem rateLimitInv_receive {f : RateLimitsFrame} {wire : List RateLimitsFrame}
    (h : RateLimitInv supported s) (hn : s.session = some n) (hc : s.conns.get n = some c)
    (hwire : c.wire = f :: wire) :
    RateLimitInv supported { s with
      conns := s.conns.put n { c with wire := wire }, config := s.config ++ [f] } := by
  obtain ⟨hframes, hcleared⟩ := h.session n c hn hc
  rw [hwire, List.append_cons] at hframes hcleared
  refine ⟨h.agent, (framesWf_append.mp hframes).1, ?_⟩
  intro m d hm hd
  obtain rfl : n = m := Option.some.inj (hn ▸ hm)
  rw [Registry.get_put_self] at hd
  obtain rfl := Option.some.inj hd
  exact ⟨hframes, hcleared⟩

theorem rateLimitInv_handle {f : RateLimitsFrame} {config : List RateLimitsFrame}
    {exempt : List String} {outcome : ApplyOutcome} (h : RateLimitInv supported s)
    (hconfig : s.config = f :: config) :
    RateLimitInv supported { s with
      config := config
      agent := applyRateLimitsFrame supported s.agent f.rateLimits exempt outcome } := by
  refine ⟨agentTold_applyRateLimitsFrame h.agent f.rateLimits, ?_, ?_⟩
  · rw [told_applyRateLimitsFrame]
    exact (hconfig ▸ h.config).2
  · intro n c hn hc
    obtain ⟨hframes, hcleared⟩ := h.session n c hn hc
    rw [hconfig] at hframes hcleared
    rw [told_applyRateLimitsFrame]
    exact ⟨hframes.2, hcleared⟩

theorem rateLimitInv_step {e : RateLimitEvent} (h : RateLimitInv supported s)
    (hs : rateLimitStep supported s e = some s') : RateLimitInv supported s' := by
  cases e with
  | setEnforcement on =>
    cases hs
    exact { h with }
  | setPolicies policies =>
    cases hs
    exact { h with }
  | connect n =>
    simp only [rateLimitStep] at hs
    split at hs
    · cases hs
      refine ⟨h.agent, h.config, ?_⟩
      rintro m d hm hd
      obtain rfl := Option.some.inj hm
      rw [Registry.get_put_self] at hd
      obtain rfl := Option.some.inj hd
      rw [List.append_nil]
      exact ⟨h.config, fun hsent => by contradiction⟩
    · contradiction
  | close n =>
    obtain ⟨c, hc, rfl⟩ := Option.map_eq_some_iff.mp hs
    exact rateLimitInv_conn h fun hn => h.session n c hn hc
  | disconnect =>
    cases hs
    refine ⟨h.agent, h.config, ?_⟩
    intro n c hn
    contradiction
  | heartbeat n resolves =>
    simp only [rateLimitStep] at hs
    split at hs
    · rename_i c hc
      split at hs
      · cases hs
        exact rateLimitInv_conn h fun hn => h.session n c hn hc
      · contradiction
    · contradiction
  | answer n =>
    simp only [rateLimitStep] at hs
    split at hs
    · rename_i c hc
      obtain ⟨resolved, -, rfl⟩ := Option.map_eq_some_iff.mp hs
      apply rateLimitInv_conn h
      intro hn
      obtain ⟨hframes, hcleared⟩ := h.session n c hn hc
      exact framesWf_answer hframes hcleared
    · contradiction
  | unanswered n =>
    obtain ⟨c, hc, rfl⟩ := Option.map_eq_some_iff.mp hs
    exact rateLimitInv_conn h fun hn => h.session n c hn hc
  | receive =>
    simp only [rateLimitStep] at hs
    split at hs
    · rename_i n hn
      split at hs
      · rename_i c hc
        split at hs
        · rename_i f wire hwire
          split at hs
          · cases hs
            exact rateLimitInv_receive h hn hc hwire
          · contradiction
        · contradiction
      · contradiction
    · contradiction
  | handle exempt outcome =>
    simp only [rateLimitStep] at hs
    split at hs
    · rename_i f config hconfig
      cases hs
      exact rateLimitInv_handle h hconfig
    · contradiction
  | resync readable =>
    cases hs
    cases readable with
    | false => exact { h with }
    | true => exact { h with agent := agentTold_resync h.agent }
  | restart enforced =>
    cases hs
    refine ⟨agentTold_init enforced, trivial, ?_⟩
    intro n c hn
    contradiction

end inv

/-! ## Convergence -/

/-- The agent enforces what the exchange that ends with a frame wants, given what it enforces
afterwards. -/
def RateLimitsFrame.MetBy (f : RateLimitsFrame) (enforced : List RateLimitRule) : Prop :=
  ∀ w ∈ f.wanted, enforced = w

/-- The agent can enforce what a frame wants, and it calls `ApplyRateLimits` for it or its last call
left its rules enforced. -/
def Heeded (supported : Bool) (a : RateLimitAgent) (f : RateLimitsFrame) (exempt : List String) :
    Prop :=
  f.wanted = none ∨
    if supported then a.calls supported f.rateLimits exempt = true ∨ a.effective = true
    else f.rateLimits = none ∨ f.rateLimits = some []

section converge
variable {supported : Bool} {s s' : RateLimitSystem} {f : RateLimitsFrame} {exempt : List String}
  {outcome : ApplyOutcome}

theorem metBy_iff_unsupported {told : Option (List RateLimitRule)} (hf : f.Fits told) :
    f.MetBy [] ↔ f.wanted = none ∨ f.rateLimits = none ∨ f.rateLimits = some [] := by
  unfold RateLimitsFrame.Fits at hf
  unfold RateLimitsFrame.MetBy
  cases hfield : f.rateLimits with
  | none =>
    rw [hfield] at hf
    exact iff_of_true (fun w hw => (hf w hw).1.symm) (.inr (.inl rfl))
  | some rules =>
    rw [hfield] at hf
    simp [hf, eq_comm]

theorem metBy_iff_effective {a : RateLimitAgent} (ha : AgentTold true a) (hf : f.Fits a.told)
    (hno : a.calls true f.rateLimits exempt = false) :
    f.MetBy a.enforced ↔ f.wanted = none ∨ a.effective = true := by
  unfold RateLimitsFrame.Fits at hf
  unfold RateLimitsFrame.MetBy
  cases hwanted : f.wanted with
  | none => simp
  | some w =>
    have htold : a.told = some w := by
      cases hfield : f.rateLimits with
      | none =>
        rw [hfield, hwanted] at hf
        obtain ⟨rfl, h⟩ := hf w rfl
        exact h
      | some rules =>
        rw [hfield, hwanted] at hf
        obtain rfl := Option.some.inj hf
        rw [hfield, RateLimitAgent.calls, Bool.true_and, Bool.not_eq_false', Bool.and_eq_true_iff]
          at hno
        obtain ⟨r, e, hkey, h⟩ := ha.applied rfl hno.1
        have hsame : some (r, e) = some (w, exempt) := hkey ▸ eq_of_beq hno.2
        rw [h, (Prod.mk.inj (Option.some.inj hsame)).1]
    have heffective := ha.effective rfl w htold
    simp [heffective]

/-- After an exchange whose frame reached the agent and whose calls of `ApplyRateLimits` succeeded,
the agent enforces what the exchange wants exactly when the frame is heeded. -/
theorem rateLimits_converge (supported enforcement : Bool) (policies enforced : List RateLimitRule)
    (es : List RateLimitEvent) (s s' : RateLimitSystem) (f : RateLimitsFrame) (exempt : List String)
    (outcome : ApplyOutcome)
    (hrun : run (rateLimitStep supported) (.init supported enforcement policies enforced) es = some s)
    (hf : s.config.head? = some f)
    (hs : rateLimitStep supported s (.handle exempt outcome) = some s')
    (hcalls : ∀ rules ∈ f.rateLimits, s.agent.calls supported f.rateLimits exempt = true →
      outcome.Succeeds rules) :
    f.MetBy s'.agent.enforced ↔ Heeded supported s.agent f exempt := by
  have hinv : RateLimitInv supported s :=
    run_preserves (fun _ _ _ h hstep => rateLimitInv_step h hstep)
      (rateLimitInv_init enforcement policies enforced) hrun
  obtain ⟨config, hconfig⟩ : ∃ config, s.config = f :: config :=
    ⟨_, (List.head?_eq_some_iff.mp hf).choose_spec⟩
  have hfits : f.Fits s.agent.told := (hconfig ▸ hinv.config).1
  simp only [rateLimitStep, hconfig, Option.some.injEq] at hs
  subst hs
  dsimp only
  unfold Heeded
  by_cases hcall : s.agent.calls supported f.rateLimits exempt = true
  · rw [enforced_of_calls hcall]
    cases hfield : f.rateLimits with
    | none =>
      rw [hfield] at hcall
      contradiction
    | some rules =>
      have hwanted : f.wanted = some rules := by simpa [RateLimitsFrame.Fits, hfield] using hfits
      have hsupported : supported = true := by
        rw [hfield, RateLimitAgent.calls, Bool.and_eq_true_iff] at hcall
        exact hcall.1
      refine iff_of_true ?_ (.inr ?_)
      · intro w hw
        rw [(hcalls rules hfield hcall).2]
        exact Option.some.inj (hwanted ▸ hw)
      · rw [if_pos hsupported, ← hfield]
        exact .inl hcall
  · rw [Bool.not_eq_true] at hcall
    rw [enforced_of_not_calls hcall]
    cases supported with
    | false =>
      rw [hinv.agent.unsupported rfl, metBy_iff_unsupported hfits]
      simp
    | true =>
      rw [metBy_iff_effective hinv.agent hfits hcall]
      simp [hcall]

/-- A call that reports success succeeded, and a clear does not report failure. -/
def reliableApply (supported : Bool) (s : RateLimitSystem) : RateLimitEvent → Prop
  | .handle exempt outcome => ∀ f ∈ s.config.head?, ∀ rules ∈ f.rateLimits,
      s.agent.calls supported f.rateLimits exempt = true →
        (outcome.failed = false → outcome.enforced = rules) ∧ (rules = [] → outcome.failed = false)
  | _ => True

/-- The last call left its rules enforced, or the agent makes it again and it was no clear. -/
def Retried (a : RateLimitAgent) : Prop :=
  a.effective = true ∨ a.applied = false ∧ a.told ≠ some []

theorem retried_handle {a : RateLimitAgent} (h : Retried a)
    (hok : ∀ rules ∈ f.rateLimits, a.calls true f.rateLimits exempt = true →
      (outcome.failed = false → outcome.enforced = rules) ∧ (rules = [] → outcome.failed = false)) :
    Retried (applyRateLimitsFrame true a f.rateLimits exempt outcome) := by
  cases hfield : f.rateLimits with
  | none => exact h
  | some rules =>
    rw [hfield] at hok
    rw [applyRateLimitsFrame]
    simp only [Bool.not_true, Bool.false_eq_true, if_false]
    split
    · rename_i hskip
      refine h.imp_right ?_
      rintro ⟨hap, -⟩
      rw [hap] at hskip
      contradiction
    · rename_i hcall
      have hcalls : a.calls true (some rules) exempt = true := by
        rw [RateLimitAgent.calls, Bool.true_and, Bool.not_eq_true']
        exact Bool.eq_false_of_not_eq_true hcall
      obtain ⟨hsuccess, hclear⟩ := hok rules rfl hcalls
      split
      · rename_i hfailed
        refine .inr ⟨rfl, ?_⟩
        rintro hrules
        rw [hclear (Option.some.inj hrules)] at hfailed
        contradiction
      · rename_i hfailed
        exact .inl (beq_iff_eq.mpr (hsuccess (Bool.not_eq_true _ ▸ hfailed)))

theorem retried_step {e : RateLimitEvent} (h : Retried s.agent)
    (hok : reliableApply true s e) (hs : rateLimitStep true s e = some s') : Retried s'.agent := by
  cases e with
  | handle exempt outcome =>
    simp only [rateLimitStep] at hs
    split at hs
    · rename_i f config hconfig
      cases hs
      exact retried_handle h (hok f (by simp [hconfig]))
    · contradiction
  | resync readable =>
    cases hs
    cases readable with
    | false => exact h
    | true => exact h.imp_right fun hagain => ⟨rfl, hagain.2⟩
  | restart enforced =>
    cases hs
    exact .inl rfl
  | answer n =>
    simp only [rateLimitStep] at hs
    split at hs
    · obtain ⟨resolved, -, rfl⟩ := Option.map_eq_some_iff.mp hs
      exact h
    · contradiction
  | _ =>
    have hagent : s'.agent = s.agent := by
      simp only [rateLimitStep, Option.map_eq_some_iff] at hs
      grind
    exact hagent ▸ h

theorem heeded_of_reliable (enforcement : Bool) (policies enforced : List RateLimitRule)
    (es : List RateLimitEvent) (s : RateLimitSystem) (f : RateLimitsFrame)
    (hrun : run (rateLimitStep true) (.init true enforcement policies enforced) es = some s)
    (hok : StepsMeet (rateLimitStep true) (reliableApply true)
      (.init true enforcement policies enforced) es)
    (hf : s.config.head? = some f) : Heeded true s.agent f exempt := by
  have hinv : RateLimitInv true s :=
    run_preserves (fun _ _ _ h hstep => rateLimitInv_step h hstep)
      (rateLimitInv_init enforcement policies enforced) hrun
  have hretried : Retried s.agent :=
    run_invariant (P := fun s => Retried s.agent)
      (fun _ _ _ h hstep hs => retried_step h hstep hs) (.inl rfl) hok hrun
  obtain ⟨config, hconfig⟩ : ∃ config, s.config = f :: config :=
    ⟨_, (List.head?_eq_some_iff.mp hf).choose_spec⟩
  have hfits : f.Fits s.agent.told := (hconfig ▸ hinv.config).1
  unfold Heeded
  rw [if_pos rfl]
  rcases hretried with heffective | ⟨happlied, hnot⟩
  · exact .inr (.inr heffective)
  · unfold RateLimitsFrame.Fits at hfits
    cases hfield : f.rateLimits with
    | none =>
      rw [hfield] at hfits
      refine .inl (Option.eq_none_iff_forall_not_mem.mpr ?_)
      intro w hw
      exact hnot (hfits w hw).2
    | some rules => exact .inr (.inl (by simp [RateLimitAgent.calls, happlied]))

end converge

def sshRateLimit : RateLimitRule := ⟨.rate, some 22, 10, none, .drop, none⟩

/-- Enforcement is turned off, and nft fails to delete the chains. -/
def failedClear : List RateLimitEvent :=
  [.connect 0, .heartbeat 0 true, .answer 0, .receive,
    .handle [] (nftApplyRateLimits [] [sshRateLimit] ⟨true, true, [sshRateLimit]⟩),
    .setEnforcement false, .heartbeat 0 true, .answer 0, .receive,
    .handle [] (nftApplyRateLimits [sshRateLimit] [] ⟨false, true, []⟩)]

theorem rateLimits_converge_cleared : ∃ s s',
    run (rateLimitStep true) (.init true false [] [sshRateLimit])
        [.connect 0, .heartbeat 0 true, .answer 0, .receive] = some s ∧
      rateLimitStep true s (.handle ["192.0.2.1"] (nftApplyRateLimits [sshRateLimit] []
        ⟨true, true, []⟩)) = some s' ∧ s'.agent.enforced = [] := by
  obtain ⟨s, hs⟩ : ∃ s, run (rateLimitStep true) (.init true false [] [sshRateLimit])
      [.connect 0, .heartbeat 0 true, .answer 0, .receive] = some s := ⟨_, rfl⟩
  obtain ⟨s', hs'⟩ : ∃ s', rateLimitStep true s (.handle ["192.0.2.1"]
      (nftApplyRateLimits [sshRateLimit] [] ⟨true, true, []⟩)) = some s' := by
    obtain rfl := Option.some.inj hs
    exact ⟨_, rfl⟩
  refine ⟨s, s', hs, hs', ?_⟩
  have hmet := rateLimits_converge true false [] [sshRateLimit] _ s s' ⟨some [], some []⟩
    ["192.0.2.1"] (nftApplyRateLimits [sshRateLimit] [] ⟨true, true, []⟩) hs
    (by obtain rfl := Option.some.inj hs; rfl) hs'
    (by rintro rules hrules -; obtain rfl := Option.some.inj hrules; exact ⟨rfl, rfl⟩)
  refine hmet.mpr (.inr (.inl ?_)) [] rfl
  obtain rfl := Option.some.inj hs
  rfl

/-- The frame of the heartbeat after leaves the field out, and the limit stays enforced. -/
theorem rateLimits_not_cleared : ¬ ∀ (supported enforcement : Bool)
    (policies enforced : List RateLimitRule) (es : List RateLimitEvent) (s s' : RateLimitSystem)
    (f : RateLimitsFrame) (exempt : List String) (outcome : ApplyOutcome),
    run (rateLimitStep supported) (.init supported enforcement policies enforced) es = some s →
      s.config.head? = some f →
        rateLimitStep supported s (.handle exempt outcome) = some s' →
          (∀ rules ∈ f.rateLimits, s.agent.calls supported f.rateLimits exempt = true →
            outcome.Succeeds rules) → f.MetBy s'.agent.enforced := by
  intro h
  obtain ⟨s, hs⟩ : ∃ s, run (rateLimitStep true) (.init true true [sshRateLimit] [])
      (failedClear ++ [.heartbeat 0 true, .answer 0, .receive]) = some s := ⟨_, rfl⟩
  have hmet := h true true [sshRateLimit] [] _ s { s with config := [] } ⟨none, some []⟩ [] ⟨false, []⟩
    hs (by obtain rfl := Option.some.inj hs; rfl) (by obtain rfl := Option.some.inj hs; rfl)
    (by intro rules hrules; contradiction)
  obtain rfl := Option.some.inj hs
  exact absurd (hmet [] rfl) (by decide)

end Obliguard.Server
