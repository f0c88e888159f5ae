import Obliguard.Agent.RuleCommands
import Obliguard.Base.Inet

/-!
# What custom rules do

Whatever request the agent accepts, the command line of a backend that takes it is read as a rule with the request's
verdict, on the packets that the request means (`addRule_means`).
-/

namespace Obliguard.Agent

open Numeral AddrText Text

/-! ## The fields of a rule -/

theorem colon_mem_text (n : Net) : ':' ∈ n.text ↔ n.family = .v6 := by
  have hdigits : ':' ∉ Nat.toDigits 10 n.len := not_mem_toDigits (by norm_num) (by norm_num) n.len (by decide)
  have htext : ':' ∈ n.text ↔ ':' ∈ n.first.text := by
    rw [Net.text]
    split
    · rfl
    · rw [List.mem_append, List.mem_cons]
      exact or_iff_left fun h => h.elim (by decide) hdigits
  rw [htext, Addr.text]
  show _ ↔ n.first.family = .v6
  cases hfamily : n.first.family with
  | v4 =>
    have hv := n.first.value_lt
    rw [hfamily] at hv
    exact iff_of_false (Inet.colon_not_mem_textV4 hv) (by decide)
  | v6 =>
    have hv := n.first.value_lt
    rw [hfamily] at hv
    refine iff_of_true ?_ rfl
    by_contra hcolon
    have hnone := parseV6_of_no_colon hcolon
    rw [parseV6_textV6 hv] at hnone
    contradiction

theorem netField_eq_empty {o : Option Net} (h : ∀ n ∈ o, ¬n.IsMapped) : netField o = "" ↔ o = none := by
  cases o with
  | none => exact iff_of_true rfl rfl
  | some n =>
    refine iff_of_false (fun hempty => ?_) (Option.some_ne_none n)
    have hnil : n.text = [] := by
      rw [← String.toList_ofList (l := n.text), show String.ofList n.text = "" from hempty]
      rfl
    exact (readTarget_spec (readTarget_text (h n rfl))).2.2 hnil

theorem fwIPFamily_request (t : CustomRule) : fwIPFamily t.request.remoteIP = 6 ↔ t.family = .v6 := by
  show fwIPFamily (netField t.remoteIp) = 6 ↔ t.remoteIp.elim .v4 Net.family = .v6
  cases hremote : t.remoteIp with
  | none => exact iff_of_false (by decide) (by decide)
  | some n =>
    have hne : netField (some n) ≠ "" := fun h =>
      Option.some_ne_none n ((netField_eq_empty (fun m hm => t.unmapped m (hremote ▸ hm))).mp h)
    rw [fwIPFamily, if_neg hne, Option.elim_some, ← colon_mem_text]
    show (if ':' ∈ (String.ofList n.text).toList then 6 else 4) = 6 ↔ _
    rw [String.toList_ofList]
    split
    · rename_i h
      exact iff_of_true rfl h
    · rename_i h
      exact iff_of_false (by decide) h

theorem family_of_remote {t : CustomRule} {n : Net} (h : t.remoteIp = some n) : t.family = n.family := by
  rw [CustomRule.family, h, Option.elim_some]

theorem readTarget_request {t : CustomRule} {n : Net} (h : t.remoteIp = some n) :
    readTarget t.request.remoteIP.toList = some n := by
  show readTarget (netField t.remoteIp).toList = some n
  rw [h]
  show readTarget (String.ofList n.text).toList = some n
  rw [String.toList_ofList, readTarget_text (t.unmapped n h)]

theorem netOf_request {t : CustomRule} {n : Net} (h : t.remoteIp = some n) :
    netOf n.family t.request.remoteIP.toList = some n := by
  rw [netOf, readTarget_request h, Option.filter_some, if_pos (decide_eq_true rfl)]

theorem colonPort_text (r : PortRange) : colonPort r.text = String.ofList (r.textWith ':') := by
  have hdigits : ∀ n, (Nat.toDigits 10 n).map (fun c => if c = '-' then ':' else c) = Nat.toDigits 10 n := by
    intro n
    refine (List.map_congr_left fun c hc => if_neg ?_).trans (List.map_id _)
    rintro rfl
    exact not_mem_toDigits (by norm_num) (by norm_num) n (by decide) hc
  rw [colonPort, PortRange.text, String.toList_ofList, PortRange.textWith, PortRange.textWith]
  split
  · rw [hdigits]
  · rw [List.map_append, List.map_cons, hdigits, hdigits, if_pos rfl]

theorem unlessAny_ports (o : Option PortRange) (tokens : List String) :
    unlessAny (portField o) tokens = o.elim [] fun _ => tokens := by
  cases o with
  | none => rfl
  | some r => exact if_neg (portField_ne.mpr rfl)

theorem unlessAny_net (t : CustomRule) (tokens : List String) :
    unlessAny t.request.remoteIP tokens = t.remoteIp.elim [] fun _ => tokens := by
  show unlessAny (netField t.remoteIp) tokens = _
  cases hremote : t.remoteIp with
  | none => rfl
  | some n =>
    exact if_neg fun h =>
      Option.some_ne_none n ((netField_eq_empty (fun m hm => t.unmapped m (hremote ▸ hm))).mp h)

theorem read_text (r : PortRange) : PortRange.read '-' r.text.toList = some r := by
  rw [PortRange.text, String.toList_ofList, PortRange.read_textWith (by decide)]

theorem read_colonPort (r : PortRange) : PortRange.read ':' (colonPort r.text).toList = some r := by
  rw [colonPort_text, String.toList_ofList, PortRange.read_textWith (by decide)]

/-! ## What a command line means -/

/-- The rule is read with the verdict of the request, on the packets of the table that the request means. -/
def Means (t : CustomRule) (packets : List Criterion) (r : Option FilterRule) : Prop :=
  ∃ criteria, r = some ⟨t.direction, criteria, t.action⟩ ∧ ∀ c, c ∈ criteria ↔ c ∈ packets ∨ c ∈ t.criteria

theorem Means.matches {t : CustomRule} {packets : List Criterion} {r : Option FilterRule} (h : Means t packets r) :
    ∃ rule, r = some rule ∧ rule.action = t.action ∧
      ∀ p, rule.Matches p ↔ (∀ c ∈ packets, c.Holds p) ∧ t.Matches p := by
  obtain ⟨criteria, rfl, hcriteria⟩ := h
  refine ⟨_, rfl, rfl, fun p => ?_⟩
  rw [CustomRule.matches_iff, FilterRule.Matches, and_left_comm]
  refine and_congr_right fun _ => ?_
  simp only [hcriteria, or_imp, forall_and]

theorem elim_singleton {α : Type} (o : Option α) (f : α → Criterion) : (o.elim [] fun a => [f a]) = o.toList.map f := by
  cases o with
  | none => rfl
  | some a => rfl

theorem hasPorts_request {t : CustomRule} :
    t.protocol.HasPorts ↔ t.request.protocol = "tcp" ∨ t.request.protocol = "udp" := by
  rw [hasPorts_text, not_and_or, not_not, not_not]
  rfl

theorem request_icmp {t : CustomRule} (h : t.protocol = .icmp) : t.request.protocol = "icmp" :=
  congrArg RuleProtocol.text h

theorem request_any {t : CustomRule} (h : t.protocol = .any) : t.request.protocol ≠ "icmp" := fun hicmp =>
  absurd ((congrArg RuleProtocol.text h).symm.trans hicmp) (by decide)

theorem l4_of_hasPorts {t : CustomRule} (h : t.protocol.HasPorts) :
    ∃ l : L4, (l = .tcp ∨ l = .udp) ∧ t.l4 = some l ∧ t.protocol.text = l.name := by
  rw [CustomRule.l4]
  rcases h with h | h
  · rw [h]
    exact ⟨.tcp, .inl rfl, rfl, rfl⟩
  · rw [h]
    exact ⟨.udp, .inr rfl, rfl, rfl⟩

theorem l4_of_icmp {t : CustomRule} (h : t.protocol = .icmp) :
    t.l4 = some .icmp ∧ ¬fwIPFamily t.request.remoteIP = 6 ∨
      t.l4 = some .icmpv6 ∧ fwIPFamily t.request.remoteIP = 6 := by
  rw [CustomRule.l4, h, fwIPFamily_request]
  by_cases hv6 : t.family = .v6
  · exact .inr ⟨if_pos hv6, hv6⟩
  · exact .inl ⟨if_neg hv6, hv6⟩

theorem icmp_or_any {p : RuleProtocol} (h : ¬p.HasPorts) : p = .icmp ∨ p = .any := by
  cases p with
  | tcp => exact absurd (.inl rfl) h
  | udp => exact absurd (.inr rfl) h
  | icmp => exact .inl rfl
  | any => exact .inr rfl

theorem l4_of_any {t : CustomRule} (h : t.protocol = .any) : t.l4 = none := by
  rw [CustomRule.l4, h]

theorem l4_ported {t : CustomRule} (h : t.protocol.HasPorts) : t.l4 = some .tcp ∨ t.l4 = some .udp := by
  obtain ⟨l, hl, hl4, -⟩ := l4_of_hasPorts h
  rw [hl4]
  exact hl.imp (congrArg some) (congrArg some)

theorem ports_eq_none {t : CustomRule} (h : ¬t.protocol.HasPorts) : t.localPort = none ∧ t.remotePort = none :=
  ⟨Option.not_isSome_iff_eq_none.mp fun hsome => h (t.ports_ok (.inl hsome)),
    Option.not_isSome_iff_eq_none.mp fun hsome => h (t.ports_ok (.inr hsome))⟩

theorem port_keys (d : RuleDirection) (source destination : String) :
    ((if d.text = "out" then source else destination) = source ∧ d.localPort = .sport ∨
      (if d.text = "out" then source else destination) = destination ∧ d.localPort = .dport) ∧
    ((if d.text = "out" then destination else source) = source ∧ d.remotePort = .sport ∨
      (if d.text = "out" then destination else source) = destination ∧ d.remotePort = .dport) := by
  cases d with
  | incoming => exact ⟨.inr ⟨if_neg (by decide), rfl⟩, .inl ⟨if_neg (by decide), rfl⟩⟩
  | outgoing => exact ⟨.inl ⟨if_pos rfl, rfl⟩, .inr ⟨if_pos rfl, rfl⟩⟩

/-! ### nft -/

theorem nftStatements_match {what key value : String} {criteria : List Criterion}
    (h : nftMatch what key value = some criteria) : Segment nftStatements [what, key, value] criteria := by
  intro rest hrest
  obtain ⟨word, more, rfl⟩ := List.exists_cons_of_ne_nil hrest
  show nftStatements (what :: key :: value :: word :: more) = _
  rw [nftStatements]
  dsimp only
  rw [h]
  cases nftStatements (word :: more) with
  | none => rfl
  | some r => rfl

theorem nftStatements_net (t : CustomRule) :
    Segment nftStatements
      (unlessAny t.request.remoteIP
        [if fwIPFamily t.request.remoteIP = 6 then "ip6" else "ip",
          if t.request.direction = "out" then "daddr" else "saddr", t.request.remoteIP])
      (t.remoteIp.elim [] fun n => [t.direction.remote n]) := by
  rw [unlessAny_net]
  refine Segment.optional fun n hn => nftStatements_match ?_
  have hread := netOf_request hn
  have hfamily : fwIPFamily t.request.remoteIP = 6 ↔ n.family = .v6 := by
    rw [fwIPFamily_request, family_of_remote hn]
  simp only [hfamily]
  show nftMatch _ (if t.direction.text = "out" then "daddr" else "saddr") _ = _
  cases hf : n.family with
  | v4 =>
    rw [hf] at hread
    show (netOf .v4 _).bind _ = _
    rw [hread]
    cases t.direction with
    | incoming => rfl
    | outgoing => rfl
  | v6 =>
    rw [hf] at hread
    show (netOf .v6 _).bind _ = _
    rw [hread]
    cases t.direction with
    | incoming => rfl
    | outgoing => rfl

theorem nftStatements_ports {l : L4} (hl : l = .tcp ∨ l = .udp) {key : String} {criterion : PortRange → Criterion}
    (hkey : key = "sport" ∧ criterion = .sport ∨ key = "dport" ∧ criterion = .dport) (o : Option PortRange) :
    Segment nftStatements (unlessAny (portField o) [l.name, key, portField o])
      (o.elim [] fun r => [.protocol l, criterion r]) := by
  rw [unlessAny_ports]
  refine Segment.optional fun r hr => nftStatements_match ?_
  rw [show portField o = r.text by rw [hr]; rfl]
  have hread := read_text r
  rcases hl with rfl | rfl
  · show (PortRange.read '-' r.text.toList).bind _ = _
    rw [hread]
    rcases hkey with ⟨rfl, rfl⟩ | ⟨rfl, rfl⟩
    · rfl
    · rfl
  · show (PortRange.read '-' r.text.toList).bind _ = _
    rw [hread]
    rcases hkey with ⟨rfl, rfl⟩ | ⟨rfl, rfl⟩
    · rfl
    · rfl

theorem nftStatements_protocol (t : CustomRule) : ∃ criteria,
    Segment nftStatements (nftProtocolArgs t.request) criteria ∧
      ∀ c, c ∈ criteria ↔ c ∈ t.l4.toList.map .protocol ++ t.localPort.toList.map t.direction.localPort ++
        t.remotePort.toList.map t.direction.remotePort := by
  by_cases hports : t.protocol.HasPorts
  · obtain ⟨l, hl, hl4, htext⟩ := l4_of_hasPorts hports
    obtain ⟨hlocal, hremote⟩ := port_keys t.direction "sport" "dport"
    have hproto : Segment nftStatements
        (if portField t.localPort = "" ∧ portField t.remotePort = "" then ["meta", "l4proto", l.name] else [])
        (if portField t.localPort = "" ∧ portField t.remotePort = "" then [.protocol l] else []) := by
      split
      · refine nftStatements_match ?_
        rcases hl with rfl | rfl
        · rfl
        · rfl
      · exact Segment.nil
    have hargs : nftProtocolArgs t.request = _ := if_pos (hasPorts_request.mp hports)
    rw [hargs, show t.request.protocol = l.name from htext]
    refine ⟨_, (hproto.append (nftStatements_ports hl hlocal _)).append (nftStatements_ports hl hremote _), fun c => ?_⟩
    rw [hl4]
    have hne : ∀ r, portField (some r) ≠ "" := fun r => portField_ne.mpr rfl
    cases t.localPort with
    | none =>
      cases t.remotePort with
      | none => simp [portField]
      | some r => simp [hne]
    | some r =>
      cases t.remotePort with
      | none => simp [hne]
      | some r' =>
        simp only [hne, false_and, if_false, List.nil_append, Option.elim_some, Option.toList_some, List.map_cons,
          List.map_nil, List.mem_append, List.mem_cons, List.not_mem_nil, or_false]
        tauto
  · obtain ⟨hlocal, hremote⟩ := ports_eq_none hports
    rw [hlocal, hremote]
    have hargs : nftProtocolArgs t.request = _ := if_neg (mt hasPorts_request.mpr hports)
    rw [hargs]
    rcases icmp_or_any hports with hp | hp
    · rw [if_pos (request_icmp hp)]
      rcases l4_of_icmp hp with ⟨hl4, hv6⟩ | ⟨hl4, hv6⟩
      · rw [hl4, if_neg hv6]
        exact ⟨_, nftStatements_match rfl, fun c => by simp⟩
      · rw [hl4, if_pos hv6]
        exact ⟨_, nftStatements_match rfl, fun c => by simp⟩
    · rw [if_neg (request_any hp), l4_of_any hp]
      exact ⟨_, Segment.nil, fun c => by simp⟩

theorem ite_spaceless {c : Prop} [Decidable c] {a b : String} (ha : ' ' ∉ a.toList) (hb : ' ' ∉ b.toList) :
    ' ' ∉ (if c then a else b).toList := by
  split
  · exact ha
  · exact hb

theorem unlessAny_spaceless {field : String} {tokens : List String} (h : ∀ s ∈ tokens, ' ' ∉ s.toList) :
    ∀ s ∈ unlessAny field tokens, ' ' ∉ s.toList := by
  rw [unlessAny]
  split
  · exact fun s hs => absurd hs List.not_mem_nil
  · exact h

theorem portField_plain {c : Char} (hc : c = ' ' ∨ c = '"') (o : Option PortRange) : c ∉ (portField o).toList := by
  cases o with
  | none => exact List.not_mem_nil
  | some r =>
    show c ∉ (String.ofList (r.textWith '-')).toList
    rw [String.toList_ofList]
    intro h
    have hchar := PortRange.mem_textWith h
    rcases hc with rfl | rfl
    · exact absurd hchar (by decide)
    · exact absurd hchar (by decide)

theorem remoteIP_plain {c : Char} (hc : c = ' ' ∨ c = '"') (t : CustomRule) : c ∉ t.request.remoteIP.toList := by
  show c ∉ (netField t.remoteIp).toList
  cases hremote : t.remoteIp with
  | none => exact List.not_mem_nil
  | some n =>
    show c ∉ (String.ofList n.text).toList
    rw [String.toList_ofList]
    intro h
    have hchar := (readTarget_spec (readTarget_text (t.unmapped n hremote))).1 c h
    rcases hc with rfl | rfl
    · rcases hchar with h | h | h | h
      · exact absurd h (by decide)
      · exact absurd h (by decide)
      · exact absurd h (by decide)
      · exact absurd h (by decide)
    · rcases hchar with h | h | h | h
      · exact absurd h (by decide)
      · exact absurd h (by decide)
      · exact absurd h (by decide)
      · exact absurd h (by decide)

theorem protocol_plain {c : Char} (hc : c = ' ' ∨ c = '"') (p : RuleProtocol) : c ∉ p.text.toList := by
  rcases hc with rfl | rfl
  · cases p with
    | tcp => decide
    | udp => decide
    | icmp => decide
    | any => decide
  · cases p with
    | tcp => decide
    | udp => decide
    | icmp => decide
    | any => decide

theorem nftAddArgs_spaceless (t : CustomRule) {family : String} (hfamily : ' ' ∉ family.toList) :
    ∀ s ∈ nftAddArgs t.request family, ' ' ∉ s.toList := by
  have hprotocol : ∀ s ∈ nftProtocolArgs t.request, ' ' ∉ s.toList := by
    have hports : ∀ o a b, ' ' ∉ a.toList → ' ' ∉ b.toList → ∀ s ∈ unlessAny (portField o)
        [t.protocol.text, if t.direction.text = "out" then a else b, portField o], ' ' ∉ s.toList := by
      intro o a b ha hb
      refine unlessAny_spaceless (List.forall_mem_cons.mpr ⟨protocol_plain (.inl rfl) _, ?_⟩)
      exact List.forall_mem_cons.mpr ⟨ite_spaceless ha hb, List.forall_mem_singleton.mpr (portField_plain (.inl rfl) o)⟩
    have hmeta : ∀ p : String, ' ' ∉ p.toList → ∀ s ∈ ["meta", "l4proto", p], ' ' ∉ s.toList := by
      intro p hp
      refine List.forall_mem_cons.mpr ⟨by decide, List.forall_mem_cons.mpr ⟨by decide, ?_⟩⟩
      exact List.forall_mem_singleton.mpr hp
    rw [nftProtocolArgs]
    split
    · refine List.forall_mem_append.mpr ⟨List.forall_mem_append.mpr ⟨?_, ?_⟩, ?_⟩
      · split
        · exact hmeta _ (protocol_plain (.inl rfl) _)
        · exact fun s hs => absurd hs List.not_mem_nil
      · exact hports _ _ _ (by decide) (by decide)
      · exact hports _ _ _ (by decide) (by decide)
    · split
      · exact hmeta _ (ite_spaceless (by decide) (by decide))
      · exact fun s hs => absurd hs List.not_mem_nil
  rw [nftAddArgs]
  refine List.forall_mem_append.mpr ⟨List.forall_mem_append.mpr ⟨List.forall_mem_append.mpr ⟨?_, ?_⟩, hprotocol⟩, ?_⟩
  · simp only [List.forall_mem_cons]
    exact ⟨by decide, by decide, hfamily, by decide, ite_spaceless (by decide) (by decide),
      fun s hs => absurd hs List.not_mem_nil⟩
  · refine unlessAny_spaceless ?_
    simp only [List.forall_mem_cons]
    exact ⟨ite_spaceless (by decide) (by decide), ite_spaceless (by decide) (by decide), remoteIP_plain (.inl rfl) t,
      fun s hs => absurd hs List.not_mem_nil⟩
  · simp only [List.forall_mem_cons]
    exact ⟨ite_spaceless (by decide) (by decide), by decide, by decide, fun s hs => absurd hs List.not_mem_nil⟩

theorem readNft_nftAddArgs (t : CustomRule) {family : String} {packets : List Criterion}
    (hfamily : nftFamily family = some packets) (hspace : ' ' ∉ family.toList) :
    Means t packets (readNft (nftAddArgs t.request family)) := by
  obtain ⟨criteria, hprotocol, hcriteria⟩ := nftStatements_protocol t
  have hverdict : nftStatements
      [if t.action.text = "allow" then "accept" else "drop", "comment", "\"obliguard-custom\""] =
        some ([], t.action) := by
    cases t.action with
    | allow => rfl
    | block => rfl
  have hbody := ((nftStatements_net t).append hprotocol).read_end hverdict (List.cons_ne_nil _ _)
  have hchain : nftChain (if t.direction.text = "out" then "output" else "input") = some t.direction := by
    cases t.direction with
    | incoming => rfl
    | outgoing => rfl
  obtain ⟨body, hargs, hbody⟩ : ∃ body, nftAddArgs t.request family = "add" :: "rule" :: family :: "filter" ::
      (if t.direction.text = "out" then "output" else "input") :: body ∧ nftStatements body = some _ := ⟨_, rfl, hbody⟩
  have hwords : words (" ".intercalate (nftAddArgs t.request family)) = nftAddArgs t.request family :=
    words_intercalate (by rw [hargs]; exact List.cons_ne_nil _ _) (nftAddArgs_spaceless t hspace)
  refine ⟨packets ++ (t.remoteIp.elim [] (fun n => [t.direction.remote n]) ++ criteria), ?_, fun c => ?_⟩
  · rw [readNft, hwords, hargs]
    dsimp only
    rw [if_pos ⟨rfl, rfl, rfl⟩, hfamily, hchain]
    show (nftStatements body).bind _ = _
    rw [hbody]
    rfl
  · rw [elim_singleton, CustomRule.criteria, List.mem_append, List.mem_append, hcriteria]
    simp only [List.mem_append, or_assoc]

/-! ### iptables -/

theorem iptablesOptions_match {f : IpFamily} {l : Option L4} {flag value : String} {criterion : Criterion}
    (h : iptablesMatch f l flag value = some criterion) : Segment (iptablesOptions f l) [flag, value] [criterion] := by
  intro rest hrest
  obtain ⟨word, more, rfl⟩ := List.exists_cons_of_ne_nil hrest
  show iptablesOptions f l (flag :: value :: word :: more) = _
  rw [iptablesOptions]
  dsimp only
  rw [h]
  cases iptablesOptions f l (word :: more) with
  | none => rfl
  | some r => rfl

theorem iptablesOptions_net (t : CustomRule) (l : Option L4) :
    Segment (iptablesOptions t.family l)
      (unlessAny t.request.remoteIP [if t.request.direction = "out" then "-d" else "-s", t.request.remoteIP])
      (t.remoteIp.elim [] fun n => [t.direction.remote n]) := by
  rw [unlessAny_net]
  refine Segment.optional fun n hn => iptablesOptions_match ?_
  have hread := netOf_request hn
  rw [← family_of_remote hn] at hread
  show iptablesMatch _ _ (if t.direction.text = "out" then "-d" else "-s") _ = _
  cases t.direction with
  | incoming => exact congrArg (Option.map Criterion.src) hread
  | outgoing => exact congrArg (Option.map Criterion.dst) hread

theorem iptablesOptions_ports (f : IpFamily) {l : Option L4} {flag : String} {criterion : PortRange → Criterion}
    (hflag : flag = "--sport" ∧ criterion = .sport ∨ flag = "--dport" ∧ criterion = .dport) {o : Option PortRange}
    (hl : o.isSome → l = some .tcp ∨ l = some .udp) :
    Segment (iptablesOptions f l) (unlessAny (portField o) [flag, colonPort (portField o)])
      (o.elim [] fun r => [criterion r]) := by
  rw [unlessAny_ports]
  refine Segment.optional fun r hr => iptablesOptions_match ?_
  have hread : iptablesPort l (colonPort (portField o)) = some r := by
    rw [iptablesPort, if_pos (hl (Option.isSome_iff_exists.mpr ⟨r, hr⟩)), show portField o = r.text by rw [hr]; rfl,
      read_colonPort]
  rcases hflag with ⟨rfl, rfl⟩ | ⟨rfl, rfl⟩
  · exact congrArg (Option.map Criterion.sport) hread
  · exact congrArg (Option.map Criterion.dport) hread

theorem iptablesOptions_args (t : CustomRule) {l : Option L4}
    (hl : t.protocol.HasPorts → l = some .tcp ∨ l = some .udp) {target : String}
    (htarget : iptablesTarget target = some t.action) :
    iptablesOptions t.family l (iptablesOptionArgs t.request ++ ["-j", target]) =
      some (t.remoteIp.toList.map t.direction.remote ++ t.localPort.toList.map t.direction.localPort ++
        t.remotePort.toList.map t.direction.remotePort, t.action) := by
  obtain ⟨hlocal, hremote⟩ := port_keys t.direction "--sport" "--dport"
  have hend : iptablesOptions t.family l ["-j", target] = some ([], t.action) := by
    show (iptablesTarget target).map _ = _
    rw [htarget]
    rfl
  have hargs := (((iptablesOptions_net t l).append
    (iptablesOptions_ports t.family hlocal fun hsome => hl (t.ports_ok (.inl hsome)))).append
    (iptablesOptions_ports t.family hremote fun hsome => hl (t.ports_ok (.inr hsome)))).read_end hend
      (List.cons_ne_nil _ _)
  rw [elim_singleton, elim_singleton, elim_singleton] at hargs
  exact hargs

theorem iptablesProtocol_none (t : CustomRule) (target : String) :
    iptablesProtocol (iptablesOptionArgs t.request ++ ["-j", target]) =
      some (none, iptablesOptionArgs t.request ++ ["-j", target]) := by
  obtain ⟨flag, value, more, hargs, hflag⟩ : ∃ flag value more,
      iptablesOptionArgs t.request ++ ["-j", target] = flag :: value :: more ∧ flag ≠ "-p" := by
    have hargs : iptablesOptionArgs t.request = _ ++ unlessAny (portField t.localPort) _ ++
      unlessAny (portField t.remotePort) _ := rfl
    rw [hargs, unlessAny_net, unlessAny_ports, unlessAny_ports]
    have hkey : ∀ a b : String, a ≠ "-p" → b ≠ "-p" → (if t.request.direction = "out" then a else b) ≠ "-p" := by
      intro a b ha hb
      split
      · exact ha
      · exact hb
    cases t.remoteIp with
    | some n => exact ⟨_, _, _, rfl, hkey _ _ (by decide) (by decide)⟩
    | none =>
      cases t.localPort with
      | some r => exact ⟨_, _, _, rfl, hkey _ _ (by decide) (by decide)⟩
      | none =>
        cases t.remotePort with
        | some r => exact ⟨_, _, _, rfl, hkey _ _ (by decide) (by decide)⟩
        | none => exact ⟨_, _, _, rfl, by decide⟩
  rw [hargs, iptablesProtocol, if_neg hflag]

theorem iptablesProtocol_args (t : CustomRule) (target : String) :
    iptablesProtocol (iptablesProtocolArgs t.request ++ (iptablesOptionArgs t.request ++ ["-j", target])) =
      some (t.l4, iptablesOptionArgs t.request ++ ["-j", target]) := by
  rw [iptablesProtocolArgs]
  by_cases hports : t.protocol.HasPorts
  · obtain ⟨l, hl, hl4, htext⟩ := l4_of_hasPorts hports
    rw [if_pos (hasPorts_request.mp hports), hl4, show t.request.protocol = l.name from htext]
    rcases hl with rfl | rfl
    · rfl
    · rfl
  · rw [if_neg (mt hasPorts_request.mpr hports)]
    rcases icmp_or_any hports with hp | hp
    · rw [if_pos (request_icmp hp)]
      rcases l4_of_icmp hp with ⟨hl4, hv6⟩ | ⟨hl4, hv6⟩
      · rw [hl4, if_neg hv6]
        rfl
      · rw [hl4, if_pos hv6]
        rfl
    · rw [if_neg (request_any hp), l4_of_any hp]
      exact iptablesProtocol_none t target

theorem readIptables_iptablesAddCommand (t : CustomRule) :
    Means t [.family t.family] (readIptables t.family (iptablesAddCommand t.request).2) := by
  have htarget : iptablesTarget (if t.request.action = "block" then "DROP" else "ACCEPT") = some t.action := by
    show iptablesTarget (if t.action.text = "block" then "DROP" else "ACCEPT") = some t.action
    cases t.action with
    | allow => rfl
    | block => rfl
  have hchain : iptablesChain (if t.request.direction = "out" then "OUTPUT" else "INPUT") = some t.direction := by
    show iptablesChain (if t.direction.text = "out" then "OUTPUT" else "INPUT") = some t.direction
    cases t.direction with
    | incoming => rfl
    | outgoing => rfl
  refine ⟨.family t.family :: t.l4.toList.map .protocol ++ (t.remoteIp.toList.map t.direction.remote ++
    t.localPort.toList.map t.direction.localPort ++ t.remotePort.toList.map t.direction.remotePort), ?_, fun c => ?_⟩
  · show (iptablesChain (if t.request.direction = "out" then "OUTPUT" else "INPUT")).bind _ = _
    rw [hchain]
    show (iptablesProtocol (iptablesProtocolArgs t.request ++ (iptablesOptionArgs t.request ++ ["-j", _]))).bind _ = _
    rw [iptablesProtocol_args]
    show (iptablesOptions t.family t.l4 (iptablesOptionArgs t.request ++ ["-j", _])).bind _ = _
    rw [iptablesOptions_args t l4_ported htarget]
    rfl
  · rw [CustomRule.criteria]
    simp only [List.mem_append, List.mem_cons, List.not_mem_nil, or_false, or_assoc]
    exact or_congr_right or_left_comm

/-! ### ufw -/

theorem ufwPort_args {l : Option L4} {o : Option PortRange} (hl : o.isSome → l = some .tcp ∨ l = some .udp)
    {rest : List String} (hrest : ufwPort l rest = some (none, rest)) :
    ufwPort l (ufwPortArgs (portField o) ++ rest) = some (o, rest) := by
  cases o with
  | none => exact hrest
  | some r =>
    rw [ufwPortArgs, unlessAny_ports]
    show (iptablesPort l (colonPort r.text)).map _ = _
    rw [iptablesPort, if_pos (hl rfl), read_colonPort]
    rfl

theorem ufwEnd_any {key : String} {l : Option L4} {o : Option PortRange}
    (hl : o.isSome → l = some .tcp ∨ l = some .udp) {rest : List String} (hrest : ufwPort l rest = some (none, rest)) :
    ufwEnd key l ([key, "any"] ++ ufwPortArgs (portField o) ++ rest) =
      some (none, o, rest) := by
  show ufwEnd key l (key :: "any" :: (ufwPortArgs (portField o) ++ rest)) = _
  rw [ufwEnd, if_pos rfl, if_pos rfl]
  show (ufwPort l _).bind _ = _
  rw [ufwPort_args hl hrest]
  rfl

theorem ufwEnd_remote (t : CustomRule) {key : String} {l : Option L4} {o : Option PortRange}
    (hl : o.isSome → l = some .tcp ∨ l = some .udp) {rest : List String} (hrest : ufwPort l rest = some (none, rest)) :
    ufwEnd key l ([key, ufwRemote t.request] ++ ufwPortArgs (portField o) ++ rest) = some (t.remoteIp, o, rest) := by
  rw [ufwRemote]
  cases hremote : t.remoteIp with
  | none =>
    have hempty : t.request.remoteIP = "" := congrArg netField hremote
    rw [if_pos hempty]
    exact ufwEnd_any hl hrest
  | some n =>
    have hread := readTarget_request hremote
    have hne : t.request.remoteIP ≠ "" := by
      intro h
      rw [h, show readTarget "".toList = none by decide] at hread
      contradiction
    have hany : t.request.remoteIP ≠ "any" := by
      intro h
      rw [h, show readTarget "any".toList = none by decide] at hread
      contradiction
    rw [if_neg hne]
    show ufwEnd key l (key :: t.request.remoteIP ::
      (ufwPortArgs (portField o) ++ rest)) = _
    rw [ufwEnd, if_pos rfl, if_neg hany, hread]
    show (ufwPort l _).bind _ = _
    rw [ufwPort_args hl hrest]
    rfl

theorem ufwProtocol_args (t : CustomRule) (hicmp : t.request.protocol ≠ "icmp") (host : String) (rest : List String) :
    ufwProtocol (ufwProtocolArgs t.request ++ "from" :: host :: rest) = some (t.l4, "from" :: host :: rest) := by
  rw [ufwProtocolArgs]
  by_cases hports : t.protocol.HasPorts
  · obtain ⟨l, hl, hl4, htext⟩ := l4_of_hasPorts hports
    rw [if_pos (hasPorts_request.mp hports), hl4, show t.request.protocol = l.name from htext]
    rcases hl with rfl | rfl
    · rfl
    · rfl
  · rw [if_neg (mt hasPorts_request.mpr hports)]
    rcases icmp_or_any hports with hp | hp
    · exact absurd (request_icmp hp) hicmp
    · rw [l4_of_any hp]
      rfl

theorem readUfw_tokens {verdict dir : String} {args tokens rest : List String} {action : RuleVerdict}
    {direction : RuleDirection} {l : Option L4} {src dst : Option Net} {sport dport : Option PortRange}
    (haction : ufwAction verdict = some action) (hdirection : ufwDirection dir = some direction)
    (hprotocol : ufwProtocol args = some (l, tokens)) (hfrom : ufwEnd "from" l tokens = some (src, sport, rest))
    (hto : ufwEnd "to" l rest = some (dst, dport, [])) :
    readUfw (verdict :: dir :: args) = some ⟨direction, l.toList.map .protocol ++ src.toList.map .src ++
      sport.toList.map .sport ++ dst.toList.map .dst ++ dport.toList.map .dport, action⟩ := by
  simp only [readUfw, haction, hdirection, hprotocol, hfrom, hto, Option.bind_eq_bind, Option.bind_some, if_true]

theorem ufwEnds_read (t : CustomRule) : ∃ host more src sport rest dst dport,
    ufwEnds t.request = "from" :: host :: more ∧ ufwEnd "from" t.l4 (ufwEnds t.request) = some (src, sport, rest) ∧
      ufwEnd "to" t.l4 rest = some (dst, dport, []) ∧
      ∀ c, c ∈ src.toList.map Criterion.src ++ sport.toList.map .sport ++ dst.toList.map .dst ++
          dport.toList.map .dport ↔
        c ∈ t.remoteIp.toList.map t.direction.remote ++ t.localPort.toList.map t.direction.localPort ++
          t.remotePort.toList.map t.direction.remotePort := by
  have hlocal : t.localPort.isSome → t.l4 = some .tcp ∨ t.l4 = some .udp := fun hsome =>
    l4_ported (t.ports_ok (.inl hsome))
  have hremote : t.remotePort.isSome → t.l4 = some .tcp ∨ t.l4 = some .udp := fun hsome =>
    l4_ported (t.ports_ok (.inr hsome))
  rw [ufwEnds]
  cases hdir : t.direction with
  | incoming =>
    have hout : t.request.direction ≠ "out" := fun h =>
      absurd ((congrArg RuleDirection.text hdir).symm.trans h) (by decide)
    rw [if_neg hout]
    have hto : ufwEnd "to" t.l4 (["to", "any"] ++ ufwPortArgs t.request.localPort) = some (none, t.localPort, []) := by
      rw [← List.append_nil (["to", "any"] ++ ufwPortArgs t.request.localPort)]
      exact ufwEnd_any hlocal rfl
    refine ⟨_, _, _, _, _, _, _, rfl, ufwEnd_remote t hremote rfl, hto, fun c => ?_⟩
    show c ∈ _ ++ _ ++ [] ++ _ ↔ c ∈ t.remoteIp.toList.map Criterion.src ++ t.localPort.toList.map .dport ++
      t.remotePort.toList.map .sport
    simp only [List.mem_append, List.not_mem_nil, or_false, or_assoc]
    exact or_congr_right or_comm
  | outgoing =>
    have hout : t.request.direction = "out" := congrArg RuleDirection.text hdir
    rw [if_pos hout]
    have hto : ufwEnd "to" t.l4 (["to", ufwRemote t.request] ++ ufwPortArgs t.request.remotePort) =
        some (t.remoteIp, t.remotePort, []) := by
      rw [← List.append_nil (["to", ufwRemote t.request] ++ ufwPortArgs t.request.remotePort)]
      exact ufwEnd_remote t hremote rfl
    refine ⟨_, _, _, _, _, _, _, rfl, ufwEnd_any hlocal rfl, hto, fun c => ?_⟩
    show c ∈ [] ++ _ ++ _ ++ _ ↔ c ∈ t.remoteIp.toList.map Criterion.dst ++ t.localPort.toList.map .sport ++
      t.remotePort.toList.map .dport
    simp only [List.mem_append, List.not_mem_nil, false_or]
    exact or_congr_left or_comm

theorem readUfw_ufwAddArgs {t : CustomRule} {args : List String} (h : ufwAddArgs t.request = .ok args) :
    Means t [] (readUfw args) := by
  have haction : ufwAction (if t.request.action = "block" then "deny" else "allow") = some t.action := by
    show ufwAction (if t.action.text = "block" then "deny" else "allow") = some t.action
    cases t.action with
    | allow => rfl
    | block => rfl
  have hdirection : ufwDirection t.request.direction = some t.direction := by
    show ufwDirection t.direction.text = some t.direction
    cases t.direction with
    | incoming => rfl
    | outgoing => rfl
  unfold ufwAddArgs at h
  split at h
  · contradiction
  rename_i hicmp
  split at h
  · contradiction
  obtain rfl := Except.ok.inj h
  obtain ⟨host, more, src, sport, rest, dst, dport, hends, hfrom, hto, hcriteria⟩ := ufwEnds_read t
  have hprotocol := ufwProtocol_args t hicmp host more
  rw [← hends] at hprotocol
  have hread := readUfw_tokens haction hdirection hprotocol hfrom hto
  refine ⟨_, hread, fun c => ?_⟩
  calc c ∈ t.l4.toList.map .protocol ++ src.toList.map .src ++ sport.toList.map .sport ++ dst.toList.map .dst ++
        dport.toList.map .dport
    _ ↔ c ∈ t.l4.toList.map .protocol ∨ c ∈ src.toList.map .src ++ sport.toList.map .sport ++ dst.toList.map .dst ++
        dport.toList.map .dport := by simp only [List.mem_append, or_assoc]
    _ ↔ c ∈ t.l4.toList.map .protocol ∨ c ∈ t.remoteIp.toList.map t.direction.remote ++
        t.localPort.toList.map t.direction.localPort ++ t.remotePort.toList.map t.direction.remotePort :=
      or_congr_right (hcriteria c)
    _ ↔ c ∈ [] ∨ c ∈ t.criteria := by
      simp only [CustomRule.criteria, List.mem_append, List.not_mem_nil, false_or, or_assoc]
      exact or_left_comm

/-! ### firewall-cmd -/

theorem readOption_eq {s key : String} {value : List Char} (hkey : '=' ∉ key.toList)
    (hs : s.toList = key.toList ++ '=' :: value) : readOption s = some (key, value) := by
  have hpos : ∀ c ∈ key.toList, decide (c ≠ '=') = true := by
    intro c hc
    rw [decide_eq_true_eq]
    rintro rfl
    exact hkey hc
  rw [readOption, hs, List.dropWhile_append_of_pos hpos, List.takeWhile_append_of_pos hpos]
  show some (String.ofList (key.toList ++ []), value) = _
  rw [List.append_nil, String.ofList_toList]

theorem readAttr_richAttr {key value : String} (hkey : '"' ∉ key.toList) (hvalue : '"' ∉ value.toList) :
    readAttr key (richAttr key value) = some value.toList := by
  have hchars : (richAttr key value).toList = (key.toList ++ ['=']) ++ '"' :: (value.toList ++ '"' :: []) := by
    rw [richAttr, String.toList_append, String.toList_append, String.toList_append, List.append_assoc,
      List.append_assoc, List.append_assoc]
    rfl
  have hkey' : '"' ∉ key.toList ++ ['='] := fun h =>
    (List.mem_append.mp h).elim hkey fun h => absurd (List.mem_singleton.mp h) (by decide)
  rw [readAttr, hchars, List.splitOn_append_cons_self_of_not_mem hkey', List.splitOn_append_cons_self_of_not_mem hvalue]
  exact if_pos rfl

theorem richPort_args {l : L4} (hl : l = .tcp ∨ l = .udp) (r : PortRange) :
    richPort (richAttr "port" r.text) (richAttr "protocol" l.name) = some (r, l) := by
  have hport : readAttr "port" (richAttr "port" r.text) = some r.text.toList :=
    readAttr_richAttr (by decide) (portField_plain (.inr rfl) (some r))
  have hprotocol : readAttr "protocol" (richAttr "protocol" l.name) = some l.name.toList := by
    rcases hl with rfl | rfl
    · exact readAttr_richAttr (by decide) (by decide)
    · exact readAttr_richAttr (by decide) (by decide)
  have hported : portedL4 (String.ofList l.name.toList) = some l := by
    rw [String.ofList_toList]
    rcases hl with rfl | rfl
    · rfl
    · rfl
  simp only [richPort, hport, hprotocol, hported, read_text, Option.bind_eq_bind, Option.bind_some]

theorem richSource_args (t : CustomRule) {tokens : List String} (h : richSource tokens = some ([], tokens)) :
    richSource (richSourceArgs t.request ++ tokens) = some (t.remoteIp.toList.map .src, tokens) := by
  rw [richSourceArgs, unlessAny_net]
  cases hremote : t.remoteIp with
  | none => exact h
  | some n =>
    have hfamily : fwIPFamily t.request.remoteIP = 6 ↔ n.family = .v6 := by
      rw [fwIPFamily_request, family_of_remote hremote]
    have haddress : readAttr "address" (richAttr "address" t.request.remoteIP) = some t.request.remoteIP.toList :=
      readAttr_richAttr (by decide) (remoteIP_plain (.inr rfl) t)
    have hread := netOf_request hremote
    simp only [hfamily]
    show richSource (richAttr "family" _ :: "source" :: richAttr "address" _ :: tokens) = _
    cases hf : n.family with
    | v4 =>
      rw [hf] at hread
      have hv4 : readAttr "family" (richAttr "family" "ipv4") = some "ipv4".toList := by decide
      rw [if_neg (by decide), richSource, hv4]
      show ((readAttr "address" (richAttr "address" t.request.remoteIP)).bind _) = _
      rw [haddress]
      show (netOf .v4 _).bind _ = _
      rw [hread]
      rfl
    | v6 =>
      rw [hf] at hread
      have hv6 : readAttr "family" (richAttr "family" "ipv6") = some "ipv6".toList := by decide
      rw [if_pos rfl, richSource, hv6]
      show ((readAttr "address" (richAttr "address" t.request.remoteIP)).bind _) = _
      rw [haddress]
      show (netOf .v6 _).bind _ = _
      rw [hread]
      rfl

theorem richProtocol_read {l : L4} (verdict : String) :
    richCriteria ["protocol", richAttr "value" l.name, verdict] = some ([.protocol l], [verdict]) := by
  cases l with
  | tcp => rfl
  | udp => rfl
  | icmp => rfl
  | icmpv6 => rfl

theorem richElement_read {t : CustomRule} (hdirection : t.direction = .incoming)
    (hone : ¬(t.request.localPort ≠ "" ∧ t.request.remotePort ≠ "")) {verdict : String}
    (hverdict : verdict = "drop" ∨ verdict = "accept") : ∃ criteria,
      richSource (richElement t.request ++ [verdict]) = some ([], richElement t.request ++ [verdict]) ∧
      richCriteria (richElement t.request ++ [verdict]) = some (criteria, [verdict]) ∧
      ∀ c, c ∈ criteria ↔ c ∈ t.l4.toList.map .protocol ++ t.localPort.toList.map t.direction.localPort ++
        t.remotePort.toList.map t.direction.remotePort := by
  have hne : ∀ r, portField (some r) ≠ "" := fun r => portField_ne.mpr rfl
  rw [hdirection, richElement]
  cases hlocal : t.localPort with
  | some r =>
    have hl : t.request.localPort = r.text := congrArg portField hlocal
    have hremote : t.remotePort = none := by
      by_contra hsome
      obtain ⟨r', hr'⟩ := Option.ne_none_iff_exists'.mp hsome
      exact hone ⟨hl ▸ hne r, (congrArg portField hr').trans_ne (hne r')⟩
    obtain ⟨l, hl4, ht, htext⟩ := l4_of_hasPorts (t.ports_ok (.inl (by rw [hlocal]; rfl)))
    rw [if_pos (hl ▸ hne r), hl, show t.request.protocol = l.name from htext, hremote, ht]
    refine ⟨[.protocol l, .dport r], rfl, ?_, fun c => ?_⟩
    · show (richPort _ _).map _ = _
      rw [richPort_args hl4]
      rfl
    · simp [RuleDirection.localPort]
  | none =>
    have hl : t.request.localPort = "" := congrArg portField hlocal
    rw [if_neg (not_not.mpr hl)]
    cases hremote : t.remotePort with
    | some r =>
      have hr : t.request.remotePort = r.text := congrArg portField hremote
      obtain ⟨l, hl4, ht, htext⟩ := l4_of_hasPorts (t.ports_ok (.inr (by rw [hremote]; rfl)))
      rw [if_pos (hr ▸ hne r), hr, show t.request.protocol = l.name from htext, ht]
      refine ⟨[.protocol l, .sport r], rfl, ?_, fun c => ?_⟩
      · show (richPort _ _).map _ = _
        rw [richPort_args hl4]
        rfl
      · simp [RuleDirection.remotePort]
    | none =>
      have hr : t.request.remotePort = "" := congrArg portField hremote
      rw [if_neg (not_not.mpr hr)]
      have hprotocol : ∀ l : L4, t.l4 = some l → ∃ criteria,
          richSource ["protocol", richAttr "value" l.name, verdict] =
            some ([], ["protocol", richAttr "value" l.name, verdict]) ∧
          richCriteria ["protocol", richAttr "value" l.name, verdict] = some (criteria, [verdict]) ∧
          ∀ c, c ∈ criteria ↔ c ∈ t.l4.toList.map .protocol ++ [] ++ [] := by
        intro l hl4
        refine ⟨[.protocol l], rfl, richProtocol_read verdict, fun c => ?_⟩
        rw [hl4]
        rfl
      by_cases hports : t.protocol.HasPorts
      · obtain ⟨l, -, hl4, htext⟩ := l4_of_hasPorts hports
        rw [if_pos (hasPorts_request.mp hports), show t.request.protocol = l.name from htext]
        exact hprotocol l hl4
      · rw [if_neg (mt hasPorts_request.mpr hports)]
        rcases icmp_or_any hports with hp | hp
        · rw [if_pos (request_icmp hp)]
          rcases l4_of_icmp hp with ⟨hl4, hv6⟩ | ⟨hl4, hv6⟩
          · rw [if_neg hv6]
            exact hprotocol .icmp hl4
          · rw [if_pos hv6]
            exact hprotocol .icmpv6 hl4
        · rw [if_neg (request_any hp), l4_of_any hp]
          refine ⟨[], rfl, ?_, fun c => Iff.rfl⟩
          rcases hverdict with rfl | rfl
          · rfl
          · rfl

theorem richAttr_spaceless {key value : String} (hkey : ' ' ∉ key.toList) (hvalue : ' ' ∉ value.toList) :
    ' ' ∉ (richAttr key value).toList := by
  rw [richAttr, String.toList_append, String.toList_append, String.toList_append, List.mem_append, List.mem_append,
    List.mem_append]
  rintro (((h | h) | h) | h)
  · exact hkey h
  · exact absurd h (by decide)
  · exact hvalue h
  · exact absurd h (by decide)

theorem richRule_spaceless (t : CustomRule) {verdict : String} (hverdict : verdict = "drop" ∨ verdict = "accept") :
    ∀ s ∈ "rule" :: (richSourceArgs t.request ++ (richElement t.request ++ [verdict])), ' ' ∉ s.toList := by
  have hport : ∀ o, ' ' ∉ (richAttr "port" (portField o)).toList := fun o =>
    richAttr_spaceless (by decide) (portField_plain (.inl rfl) o)
  have hprotocol : ∀ key, ' ' ∉ key.toList → ' ' ∉ (richAttr key t.request.protocol).toList := fun key hkey =>
    richAttr_spaceless hkey (protocol_plain (.inl rfl) t.protocol)
  refine List.forall_mem_cons.mpr ⟨by decide, List.forall_mem_append.mpr ⟨?_, List.forall_mem_append.mpr ⟨?_, ?_⟩⟩⟩
  · refine unlessAny_spaceless ?_
    simp only [List.forall_mem_cons]
    exact ⟨richAttr_spaceless (by decide) (ite_spaceless (by decide) (by decide)), by decide,
      richAttr_spaceless (by decide) (remoteIP_plain (.inl rfl) t), fun s hs => absurd hs List.not_mem_nil⟩
  · rw [richElement]
    split
    · simp only [List.forall_mem_cons]
      exact ⟨by decide, hport _, hprotocol _ (by decide), fun s hs => absurd hs List.not_mem_nil⟩
    · split
      · simp only [List.forall_mem_cons]
        exact ⟨by decide, hport _, hprotocol _ (by decide), fun s hs => absurd hs List.not_mem_nil⟩
      · split
        · simp only [List.forall_mem_cons]
          exact ⟨by decide, hprotocol _ (by decide), fun s hs => absurd hs List.not_mem_nil⟩
        · split
          · simp only [List.forall_mem_cons]
            exact ⟨by decide, richAttr_spaceless (by decide) (ite_spaceless (by decide) (by decide)),
              fun s hs => absurd hs List.not_mem_nil⟩
          · exact fun s hs => absurd hs List.not_mem_nil
  · rcases hverdict with rfl | rfl
    · decide
    · decide

theorem readAddPort_args {l : L4} (hl : l = .tcp ∨ l = .udp) (r : PortRange) :
    readFirewalld ["--permanent", "--add-port=" ++ r.text ++ "/" ++ l.name] =
      some ⟨.incoming, [.protocol l, .dport r], .allow⟩ := by
  have hcall : readOption ("--add-port=" ++ r.text ++ "/" ++ l.name) =
      some ("--add-port", r.textWith '-' ++ '/' :: l.name.toList) := by
    have htext : r.text.toList = r.textWith '-' := String.toList_ofList
    refine readOption_eq (by decide) ?_
    rw [String.toList_append, String.toList_append, String.toList_append, htext, List.append_assoc, List.append_assoc]
    rfl
  have hrange : '/' ∉ r.textWith '-' := fun h => absurd (PortRange.mem_textWith h) (by decide)
  have hsplit : (r.textWith '-' ++ '/' :: l.name.toList).splitOn '/' = [r.textWith '-', l.name.toList] := by
    rw [List.splitOn_append_cons_self_of_not_mem hrange, List.splitOn_eq_singleton]
    rcases hl with rfl | rfl
    · decide
    · decide
  have hported : portedL4 (String.ofList l.name.toList) = some l := by
    rw [String.ofList_toList]
    rcases hl with rfl | rfl
    · rfl
    · rfl
  rw [readFirewalld, if_pos rfl, hcall]
  show readAddPort _ = _
  rw [readAddPort, hsplit]
  show (PortRange.read '-' _).bind _ = _
  rw [PortRange.read_textWith (by decide)]
  show (portedL4 _).bind _ = _
  rw [hported]
  rfl

theorem readRichRule_args {t : CustomRule} (hdirection : t.direction = .incoming)
    (hone : ¬(t.request.localPort ≠ "" ∧ t.request.remotePort ≠ "")) :
    Means t [] (readFirewalld ["--permanent", "--add-rich-rule=" ++ " ".intercalate
      ("rule" :: (richSourceArgs t.request ++ (richElement t.request ++
        [if t.request.action = "block" then "drop" else "accept"])))]) := by
  obtain ⟨verdict, hverdict, hword, haction⟩ : ∃ verdict,
      (if t.request.action = "block" then "drop" else "accept") = verdict ∧
        (verdict = "drop" ∨ verdict = "accept") ∧ nftVerdict verdict = some t.action := by
    show ∃ verdict, (if t.action.text = "block" then "drop" else "accept") = verdict ∧ _
    cases t.action with
    | allow => exact ⟨"accept", rfl, .inr rfl, rfl⟩
    | block => exact ⟨"drop", rfl, .inl rfl, rfl⟩
  rw [hverdict]
  obtain ⟨criteria, hsource, helement, hcriteria⟩ := richElement_read hdirection hone hword
  have hcall : ∀ rule : String, readOption ("--add-rich-rule=" ++ rule) = some ("--add-rich-rule", rule.toList) := by
    intro rule
    refine readOption_eq (by decide) ?_
    rw [String.toList_append]
    rfl
  refine ⟨t.remoteIp.toList.map .src ++ criteria, ?_, fun c => ?_⟩
  · rw [readFirewalld, if_pos rfl, hcall]
    show readRichRule _ = _
    rw [readRichRule, String.ofList_toList, words_intercalate (List.cons_ne_nil _ _) (richRule_spaceless t hword)]
    show (richSource _).bind _ = _
    rw [richSource_args t hsource]
    show (richCriteria _).bind _ = _
    rw [helement]
    show (nftVerdict verdict).map _ = _
    rw [haction, hdirection]
    rfl
  · have hc := hcriteria c
    rw [hdirection] at hc
    rw [CustomRule.criteria, hdirection, List.mem_append, hc]
    simp only [List.mem_append, List.not_mem_nil, false_or, or_assoc]
    rfl

theorem readFirewalld_addCommands {t : CustomRule} {args : List String}
    (h : firewalldAddCommands t.request = .ok args) : Means t [] (readFirewalld args) := by
  unfold firewalldAddCommands at h
  split at h
  · contradiction
  rename_i hout
  have hdirection : t.direction = .incoming := by
    cases hd : t.direction with
    | incoming => rfl
    | outgoing => exact absurd (congrArg RuleDirection.text hd) hout
  split at h
  · rename_i hport
    obtain rfl := Except.ok.inj h
    obtain ⟨hallow, hip, hremote, hlocal⟩ := hport
    have haction : t.action = .allow := by
      cases ha : t.action with
      | allow => rfl
      | block => exact absurd ((congrArg RuleVerdict.text ha).symm.trans hallow) (by decide)
    have hnet : t.remoteIp = none := (netField_eq_empty t.unmapped).mp hip
    have hnone : t.remotePort = none := Option.not_isSome_iff_eq_none.mp (mt portField_ne.mpr (not_not.mpr hremote))
    obtain ⟨r, hr⟩ := Option.isSome_iff_exists.mp (portField_ne.mp hlocal)
    obtain ⟨l, hl, hl4, htext⟩ := l4_of_hasPorts (t.ports_ok (.inl (portField_ne.mp hlocal)))
    rw [show t.request.localPort = r.text from congrArg portField hr, show t.request.protocol = l.name from htext,
      readAddPort_args hl]
    refine ⟨_, by rw [hdirection, haction], fun c => ?_⟩
    rw [CustomRule.criteria, hnet, hnone, hl4, hr, hdirection]
    simp [RuleDirection.localPort]
  split at h
  · contradiction
  rename_i hone
  split at h
  · contradiction
  obtain rfl := Except.ok.inj h
  exact readRichRule_args hdirection hone

/-! ### netsh -/

theorem netshProtocol_request (t : CustomRule) : netshProtocol (netshProto t.request).toList = some t.l4 := by
  rw [netshProto]
  by_cases hports : t.protocol.HasPorts
  · obtain ⟨l, hl, hl4, htext⟩ := l4_of_hasPorts hports
    have hne : l.name ≠ "icmp" := by
      rcases hl with rfl | rfl
      · decide
      · decide
    rw [show t.request.protocol = l.name from htext, if_neg hne, hl4]
    rcases hl with rfl | rfl
    · rfl
    · rfl
  · rcases icmp_or_any hports with hp | hp
    · rw [if_pos (request_icmp hp)]
      rcases l4_of_icmp hp with ⟨hl4, hv6⟩ | ⟨hl4, hv6⟩
      · rw [if_neg hv6, hl4]
        rfl
      · rw [if_pos hv6, hl4]
        rfl
    · rw [if_neg (request_any hp), show t.request.protocol = "any" from congrArg RuleProtocol.text hp, l4_of_any hp]
      rfl

theorem mapM_optional {α : Type} {o : Option α} {s : String} {p : String × List Char}
    (h : ∀ a ∈ o, readOption s = some p) :
    (o.elim [] fun _ => [s]).mapM readOption = some (o.elim [] fun _ => [p]) := by
  cases o with
  | none => rfl
  | some a =>
    show [s].mapM readOption = some [p]
    rw [List.mapM_cons, h a rfl]
    rfl

theorem netshPorts_request {l : Option L4} {o : Option PortRange} (hl : o.isSome → l = some .tcp ∨ l = some .udp) :
    readOptional (netshPorts l) (o.map fun _ => (portField o).toList) = some o := by
  cases o with
  | none => rfl
  | some r =>
    show (netshPorts l r.text.toList).map some = _
    rw [netshPorts, if_pos (hl rfl), read_text]
    rfl

theorem netshRemote_request (t : CustomRule) :
    readOptional readTarget (t.remoteIp.map fun _ => t.request.remoteIP.toList) = some t.remoteIp := by
  cases hremote : t.remoteIp with
  | none => rfl
  | some n =>
    show (readTarget t.request.remoteIP.toList).map some = _
    rw [readTarget_request hremote]
    rfl

/-- The options that a request makes. -/
def netshOptions (t : CustomRule) (action : String) : List (String × List Char) :=
  [("name", (netshName t.request).toList), ("dir", t.request.direction.toList), ("action", action.toList),
    ("enable", "yes".toList), ("protocol", (netshProto t.request).toList)] ++
    (t.localPort.elim [] fun _ => [("localport", t.request.localPort.toList)]) ++
    (t.remotePort.elim [] fun _ => [("remoteport", t.request.remotePort.toList)]) ++
    (t.remoteIp.elim [] fun _ => [("remoteip", t.request.remoteIP.toList)])

theorem lookup_netshOptions (t : CustomRule) (action : String) :
    (netshOptions t action).lookup "localport" = (t.localPort.map fun _ => t.request.localPort.toList) ∧
    (netshOptions t action).lookup "remoteport" = (t.remotePort.map fun _ => t.request.remotePort.toList) ∧
    (netshOptions t action).lookup "remoteip" = (t.remoteIp.map fun _ => t.request.remoteIP.toList) := by
  rw [netshOptions]
  cases t.localPort with
  | none =>
    cases t.remotePort with
    | none =>
      cases t.remoteIp with
      | none => exact ⟨rfl, rfl, rfl⟩
      | some n => exact ⟨rfl, rfl, rfl⟩
    | some r =>
      cases t.remoteIp with
      | none => exact ⟨rfl, rfl, rfl⟩
      | some n => exact ⟨rfl, rfl, rfl⟩
  | some r =>
    cases t.remotePort with
    | none =>
      cases t.remoteIp with
      | none => exact ⟨rfl, rfl, rfl⟩
      | some n => exact ⟨rfl, rfl, rfl⟩
    | some r' =>
      cases t.remoteIp with
      | none => exact ⟨rfl, rfl, rfl⟩
      | some n => exact ⟨rfl, rfl, rfl⟩

theorem readNetshRule_options (t : CustomRule) {action : String} (haction : netshAction action.toList = some t.action) :
    readNetshRule (netshOptions t action) = some ⟨t.direction, t.criteria, t.action⟩ := by
  obtain ⟨hlocal, hremote, hip⟩ := lookup_netshOptions t action
  have hdirection : netshDirection t.request.direction.toList = some t.direction := by
    show netshDirection t.direction.text.toList = some t.direction
    cases t.direction with
    | incoming => rfl
    | outgoing => rfl
  rw [readNetshRule, hlocal, hremote, hip]
  show (netshDirection t.request.direction.toList).bind _ = _
  rw [hdirection]
  show (netshAction action.toList).bind _ = _
  rw [haction]
  show (netshProtocol (netshProto t.request).toList).bind _ = _
  rw [netshProtocol_request]
  show (readOptional (netshPorts t.l4) (t.localPort.map fun _ => (portField t.localPort).toList)).bind _ = _
  rw [netshPorts_request fun hsome => l4_ported (t.ports_ok (.inl hsome))]
  show (readOptional (netshPorts t.l4) (t.remotePort.map fun _ => (portField t.remotePort).toList)).bind _ = _
  rw [netshPorts_request fun hsome => l4_ported (t.ports_ok (.inr hsome))]
  show (readOptional readTarget (t.remoteIp.map fun _ => t.request.remoteIP.toList)).bind _ = _
  rw [netshRemote_request]
  rfl

theorem readNetsh_netshAddArgs (t : CustomRule) : Means t [] (readNetsh (netshAddArgs t.request)) := by
  obtain ⟨action, hword, haction⟩ : ∃ action, (if t.request.action = "allow" then "allow" else "block") = action ∧
      netshAction action.toList = some t.action := by
    show ∃ action, (if t.action.text = "allow" then "allow" else "block") = action ∧ _
    cases t.action with
    | allow => exact ⟨"allow", rfl, rfl⟩
    | block => exact ⟨"block", rfl, rfl⟩
  have hoption : ∀ (start key value : String), '=' ∉ key.toList → start.toList = key.toList ++ ['='] →
      readOption (start ++ value) = some (key, value.toList) := by
    intro start key value hkey hstart
    refine readOption_eq hkey ?_
    rw [String.toList_append, hstart, List.append_assoc]
    rfl
  have hfixed : ["name=" ++ netshName t.request, "dir=" ++ t.request.direction, "action=" ++ action, "enable=yes",
      "protocol=" ++ netshProto t.request].mapM readOption =
      some [("name", (netshName t.request).toList), ("dir", t.request.direction.toList), ("action", action.toList),
        ("enable", "yes".toList), ("protocol", (netshProto t.request).toList)] := by
    rw [List.mapM_cons, hoption "name=" "name" _ (by decide) rfl, List.mapM_cons,
      hoption "dir=" "dir" _ (by decide) rfl, List.mapM_cons, hoption "action=" "action" _ (by decide) rfl,
      List.mapM_cons, show readOption "enable=yes" = some ("enable", "yes".toList) from rfl, List.mapM_cons,
      hoption "protocol=" "protocol" _ (by decide) rfl]
    rfl
  refine ⟨t.criteria, ?_, fun c => (or_iff_right List.not_mem_nil).symm⟩
  rw [netshAddArgs, hword, unlessAny_net]
  show (List.mapM readOption ([_, _, _, _, _] ++ unlessAny (portField t.localPort) _ ++
    unlessAny (portField t.remotePort) _ ++ _)).bind _ = _
  rw [unlessAny_ports, unlessAny_ports, List.mapM_append, List.mapM_append, List.mapM_append, hfixed,
    mapM_optional fun _ _ => hoption "localport=" "localport" _ (by decide) rfl,
    mapM_optional fun _ _ => hoption "remoteport=" "remoteport" _ (by decide) rfl,
    mapM_optional fun _ _ => hoption "remoteip=" "remoteip" _ (by decide) rfl]
  exact readNetshRule_options t haction

/-! ## Any backend -/

theorem addRule_reads {m : FirewallRuleManager} {t : CustomRule} {commands : List FwCommand}
    (h : m.addRule t.request = .ok commands) :
    ∀ c ∈ commands, Means t (if c.singleFamily then [.family t.family] else []) c.read := by
  cases m with
  | nft =>
    obtain rfl := Except.ok.inj h
    refine List.forall_mem_cons.mpr ⟨readNft_nftAddArgs t rfl (by decide), List.forall_mem_singleton.mpr ?_⟩
    cases hf : t.family with
    | v4 =>
      rw [if_neg (fun h6 => absurd ((fwIPFamily_request t).mp h6) (by rw [hf]; decide))]
      exact readNft_nftAddArgs t rfl (by decide)
    | v6 =>
      rw [if_pos ((fwIPFamily_request t).mpr hf)]
      exact readNft_nftAddArgs t rfl (by decide)
  | firewalld =>
    cases hargs : firewalldAddCommands t.request with
    | error e => rw [FirewallRuleManager.addRule, hargs] at h; contradiction
    | ok args =>
      rw [FirewallRuleManager.addRule, hargs] at h
      obtain rfl := Except.ok.inj h
      exact List.forall_mem_singleton.mpr (readFirewalld_addCommands hargs)
  | ufw =>
    cases hargs : ufwAddArgs t.request with
    | error e => rw [FirewallRuleManager.addRule, hargs] at h; contradiction
    | ok args =>
      rw [FirewallRuleManager.addRule, hargs] at h
      obtain rfl := Except.ok.inj h
      exact List.forall_mem_singleton.mpr (readUfw_ufwAddArgs hargs)
  | iptables =>
    obtain rfl := Except.ok.inj h
    have hread := readIptables_iptablesAddCommand t
    refine List.forall_mem_singleton.mpr ?_
    have hprogram : (iptablesAddCommand t.request).1 =
        if fwIPFamily t.request.remoteIP = 6 then "ip6tables" else "iptables" := rfl
    cases hf : t.family with
    | v4 =>
      rw [hf] at hread
      rw [hprogram, if_neg (fun h6 => absurd ((fwIPFamily_request t).mp h6) (by rw [hf]; decide))]
      exact hread
    | v6 =>
      rw [hf] at hread
      rw [hprogram, if_pos ((fwIPFamily_request t).mpr hf)]
      exact hread
  | windows =>
    obtain rfl := Except.ok.inj h
    exact List.forall_mem_singleton.mpr (readNetsh_netshAddArgs t)

theorem addRule_matches {m : FirewallRuleManager} {t : CustomRule} {commands : List FwCommand}
    (h : m.addRule t.request = .ok commands) : ∀ c ∈ commands, ∃ rule, c.read = some rule ∧ rule.action = t.action ∧
      ∀ p, rule.Matches p ↔ (c.singleFamily → p.family = t.family) ∧ t.Matches p := by
  intro c hc
  obtain ⟨rule, hread, haction, hmatches⟩ := (addRule_reads h c hc).matches
  refine ⟨rule, hread, haction, fun p => (hmatches p).trans (and_congr_left fun _ => ?_)⟩
  split
  · rename_i hsingle
    rw [List.forall_mem_singleton]
    exact (imp_iff_right hsingle).symm
  · rename_i hboth
    exact iff_of_true (fun c hc => absurd hc List.not_mem_nil) fun h => absurd h hboth

/-- Whatever request the agent accepts, each command line with which a backend adds it is read as a rule with the
request's verdict, on the packets that the request means. -/
theorem addRule_means {m : FirewallRuleManager} {req valid : FwAddRequest} {commands : List FwCommand}
    (hvalid : validateFwAddRequest req = .ok valid) (hcommands : m.addRule valid = .ok commands) :
    ∃ t, Says req t ∧ ∀ c ∈ commands, ∃ rule, c.read = some rule ∧ rule.action = t.action ∧
      ∀ p, rule.Matches p ↔ (c.singleFamily → p.family = t.family) ∧ t.Matches p := by
  obtain ⟨t, hsays, rfl⟩ := validateFwAddRequest_ok hvalid
  exact ⟨t, hsays, addRule_matches hcommands⟩

/-- A request with an IPv6 network goes to `ip6tables`. -/
theorem addRule_means_ip6tables : ∃ t, Says ⟨"", "out", "block", "tcp", "", "8000-8100", "2001:DB8::/32"⟩ t ∧
    ∀ c ∈ [FwCommand.mk "ip6tables" ["-A", "OUTPUT", "-p", "tcp", "-d", "2001:db8::/32", "--dport", "8000:8100",
      "-j", "DROP"]], ∃ rule, c.read = some rule ∧ rule.action = t.action ∧
        ∀ p, rule.Matches p ↔ (c.singleFamily → p.family = t.family) ∧ t.Matches p :=
  @addRule_means .iptables _ ⟨"", "out", "block", "tcp", "", "8000-8100", "2001:db8::/32"⟩ _ rfl rfl

end Obliguard.Agent
