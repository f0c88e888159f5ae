import Obliguard.Agent.RuleMeaning
import Obliguard.Server.FirewallSchema

/-!
# A rule request from the panel to the packet filter

What the server sends for a body that it accepts is what the agent makes of it: its own checks accept the payload and
keep every field. The rule that a backend adds decides the packets that the body asks for
(`firewallAdd_end_to_end`).
-/

namespace Obliguard.Canonical

open Server Agent Bans

theorem firewallAdd_end_to_end {env : SafetyEnv} {body : FirewallBody} {r : FirewallAdd}
    (h : firewallAddSchema env body = .ok r) : ∃ t, Asks body t ∧
      (t.action = .block → ∀ n ∈ t.remoteIp, env.banPrefixFloor n.family ≤ n.len) ∧
      validateFwAddRequest (toFirewallAddPayload r).decode = .ok (toFirewallAddPayload r).decode ∧
      ∀ m commands, FirewallRuleManager.addRule m (toFirewallAddPayload r).decode = .ok commands →
        ∀ c ∈ commands, ∃ rule, c.read = some rule ∧ rule.action = t.action ∧
          ∀ p, rule.Matches p ↔ (c.singleFamily → p.family = t.family) ∧ t.Matches p := by
  obtain ⟨t, hasks, hdecode, hfloor⟩ := firewallAddSchema_rule h
  rw [hdecode]
  exact ⟨t, hasks, hfloor, validateFwAddRequest_request t, fun m commands hcommands => addRule_matches hcommands⟩

theorem firewallAdd_end_to_end_ssh : ∃ r,
    firewallAddSchema ⟨none, none, [], [], []⟩
      ⟨.absent, .str "in", .str "block", .str "tcp", .num "22", .null, .str "203.0.113.9/24"⟩ = .ok r ∧
    ∃ t, Asks ⟨.absent, .str "in", .str "block", .str "tcp", .num "22", .null, .str "203.0.113.9/24"⟩ t ∧
      validateFwAddRequest (toFirewallAddPayload r).decode = .ok (toFirewallAddPayload r).decode := by
  obtain ⟨t, hasks, -, hvalid, -⟩ := @firewallAdd_end_to_end ⟨none, none, [], [], []⟩
    ⟨.absent, .str "in", .str "block", .str "tcp", .num "22", .null, .str "203.0.113.9/24"⟩ _ rfl
  exact ⟨_, rfl, t, hasks, hvalid⟩

end Obliguard.Canonical
