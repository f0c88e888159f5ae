import Obliguard.Lib.Selection
import Obliguard.Server.BanEngine

/-!
# What `createAutoBans` inserts

From any candidates: the new rows are those of the addresses of candidates that pass the ban-safety check, that no live
global row covers and no global whitelist entry contains (`exists_new_iff`), one row each (`new_unique`), made from the
first candidate of the address (`new_first`). A row that is no longer there had expired (`old_row`).
-/

namespace Obliguard.Server

open Bans IpValidation Text AddrText

/-! ## First candidates -/

section firstBy
variable {α κ : Type} [DecidableEq κ] {key : α → κ} {l : List α} {a : α} {P : α → Prop}

theorem firstWith_foldl (hP : ∀ b c, key b = key c → (P b ↔ P c)) (out : List α) :
    FirstWith P (l.foldl (fun out a => if out.any fun b => key b == key a then out else out ++ [a]) out) a ↔
      FirstWith P (out ++ l) a := by
  induction l generalizing out with
  | nil => rw [List.foldl_nil, List.append_nil]
  | cons c l ih =>
    rw [List.foldl_cons, ih]
    split
    · rename_i hany
      obtain ⟨b, hb, hkey⟩ := List.any_eq_true.mp hany
      have hcP : P b ↔ P c := hP b c (beq_iff_eq.mp hkey)
      rw [FirstWith.append_iff, FirstWith.append_iff, FirstWith.cons_iff]
      refine or_congr_right (and_congr_right fun hnone => ?_)
      have hc : ¬P c := fun h => hnone b hb (hcP.mpr h)
      tauto
    · rw [List.append_assoc, List.singleton_append]

theorem firstWith_firstBy (hP : ∀ b c, key b = key c → (P b ↔ P c)) :
    FirstWith P (firstBy key l) a ↔ FirstWith P l a := firstWith_foldl hP []

theorem mem_foldl_firstBy (out : List α) :
    a ∈ l.foldl (fun out a => if out.any fun b => key b == key a then out else out ++ [a]) out ↔
      a ∈ out ∨ (∀ b ∈ out, key b ≠ key a) ∧ FirstWith (fun b => key b = key a) l a := by
  induction l generalizing out with
  | nil =>
    rw [List.foldl_nil]
    exact ⟨.inl, fun h => h.resolve_right fun h => FirstWith.not_nil h.2⟩
  | cons c l ih =>
    rw [List.foldl_cons, ih, FirstWith.cons_iff]
    split
    · rename_i hany
      obtain ⟨b, hb, hkey⟩ := List.any_eq_true.mp hany
      refine or_congr_right (and_congr_right fun hnone => ?_)
      have hc : key c ≠ key a := fun h => hnone b hb ((beq_iff_eq.mp hkey).trans h)
      tauto
    · rename_i hany
      have hnone : ∀ b ∈ out, key b ≠ key c := by
        intro b hb hkey
        exact hany (List.any_eq_true.mpr ⟨b, hb, beq_iff_eq.mpr hkey⟩)
      simp only [List.mem_append, List.mem_singleton]
      constructor
      · rintro ((ha | rfl) | ⟨hout, hfirst⟩)
        · exact .inl ha
        · exact .inr ⟨hnone, .inl ⟨rfl, rfl⟩⟩
        · exact .inr ⟨fun b hb => hout b (.inl hb), .inr ⟨hout c (.inr rfl), hfirst⟩⟩
      · rintro (ha | ⟨hout, ⟨-, rfl⟩ | ⟨hc, hfirst⟩⟩)
        · exact .inl (.inl ha)
        · exact .inl (.inr rfl)
        · refine .inr ⟨?_, hfirst⟩
          rintro b (hb | rfl)
          · exact hout b hb
          · exact hc

theorem mem_firstBy_iff : a ∈ firstBy key l ↔ FirstWith (fun b => key b = key a) l a := by
  rw [firstBy, mem_foldl_firstBy]
  constructor
  · rintro (h | ⟨-, h⟩)
    · exact absurd h List.not_mem_nil
    · exact h
  · exact fun h => .inr ⟨fun b hb => absurd hb List.not_mem_nil, h⟩

theorem nodup_firstBy : ((firstBy key l).map key).Nodup := by
  have hout : ∀ out : List α, (out.map key).Nodup → ((l.foldl (fun out a =>
      if out.any fun b => key b == key a then out else out ++ [a]) out).map key).Nodup := by
    induction l with
    | nil => exact fun _ h => h
    | cons c l ih =>
      intro out h
      rw [List.foldl_cons]
      apply ih
      split
      · exact h
      · rename_i hany
        rw [List.map_append, List.map_singleton, List.nodup_append]
        refine ⟨h, List.nodup_singleton _, ?_⟩
        rintro k hk k' hk' rfl
        obtain ⟨b, hb, rfl⟩ := List.mem_map.mp hk
        exact hany (List.any_eq_true.mpr ⟨b, hb, beq_iff_eq.mpr (List.mem_singleton.mp hk')⟩)
  exact hout [] List.nodup_nil

end firstBy

/-! ## The ban-safety check -/

section check
variable {env : SafetyEnv} {raw raw' : String} {allowCidr : Bool} {t t' : BanTarget}

theorem parseBanTarget_congr (h : netOfText raw = netOfText raw') :
    parseBanTarget env raw allowCidr = parseBanTarget env raw' allowCidr := by
  have hparse : parseIpOrCidr raw = parseIpOrCidr raw' := by
    rw [parseIpOrCidr_netOfText, parseIpOrCidr_netOfText, h]
  conv_lhs => unfold parseBanTarget
  split
  · rename_i hnone
    symm
    conv_lhs => unfold parseBanTarget
    split
    · rfl
    · rename_i p hp
      have hboth := hnone.symm.trans (hparse.trans hp)
      contradiction
  · rename_i p hp
    symm
    conv_lhs => unfold parseBanTarget
    split
    · rename_i hnone
      have hboth := hnone.symm.trans (hparse.symm.trans hp)
      contradiction
    · rename_i p' hp'
      obtain rfl : p = p' := Option.some.inj (hp.symm.trans (hparse.trans hp'))
      have hnet : netOfParsed hp = netOfParsed hp' := by
        have hsome := (netOfText_netOfParsed hp).symm.trans (h.trans (netOfText_netOfParsed hp'))
        exact Option.some.inj hsome
      simp only [hnet]

theorem checkBanTarget_congr (h : netOfText raw = netOfText raw') :
    checkBanTarget env raw allowCidr = checkBanTarget env raw' allowCidr := by
  rw [checkBanTarget, checkBanTarget, parseBanTarget_congr h]

/-- A single address that passes the check. -/
def Passes (env : SafetyEnv) (x : Net) : Prop := ∃ t, checkBanTarget env (String.ofList x.text) false = .ok t ∧ t.net = x

theorem passes_of_check {x : Net} (h : checkBanTarget env raw false = .ok t) (hx : t.net = x) : Passes env x := by
  obtain ⟨hnet, -⟩ := checkBanTarget_net h
  refine ⟨t, ?_, hx⟩
  rw [← h]
  refine checkBanTarget_congr ?_
  rw [hnet, hx, netOfText_text]
  rw [← hx]
  exact t.not_mapped

theorem check_of_passes {x : Net} (h : Passes env x) (hraw : netOfText raw = some x) :
    ∃ t, checkBanTarget env raw false = .ok t ∧ t.net = x := by
  obtain ⟨t, ht, hx⟩ := h
  refine ⟨t, ?_, hx⟩
  rw [← ht]
  refine checkBanTarget_congr ?_
  rw [hraw, netOfText_text]
  rw [← hx]
  exact t.not_mapped

theorem address_eq_iff (h : checkBanTarget env raw false = .ok t) (h' : checkBanTarget env raw' false = .ok t') :
    t.address = t'.address ↔ t.net = t'.net := by
  obtain ⟨-, -, -, hhost⟩ := checkBanTarget_net h
  obtain ⟨-, -, -, hhost'⟩ := checkBanTarget_net h'
  have htext : t.address = String.ofList t.net.first.text := congrArg ParsedCidr.address t.parsed
  have htext' : t'.address = String.ofList t'.net.first.text := congrArg ParsedCidr.address t'.parsed
  rw [htext, htext']
  constructor
  · intro heq
    have hparse := congrArg parseAddr (String.ofList_inj.mp heq)
    rw [parseAddr_text, parseAddr_text] at hparse
    have hfirst : t.net.first = t'.net.first := Option.some.inj hparse
    have hfamily : t.net.family = t'.net.family := congrArg Addr.family hfirst
    refine Net.ext hfamily (congrArg Addr.value hfirst) ?_
    rw [hhost rfl, hhost' rfl, hfamily]
  · intro heq
    rw [heq]

end check

/-! ## One candidate for each address -/

/-- The candidate is of the address, and the address passes the check. -/
def Targets (env : SafetyEnv) (x : Net) (c : AutoBanCandidate) : Prop :=
  ∃ t, checkBanTarget env c.ip false = .ok t ∧ t.net = x

theorem targets_iff {env : SafetyEnv} {x : Net} {c : AutoBanCandidate} :
    Targets env x c ↔ netOfText c.ip = some x ∧ Passes env x := by
  constructor
  · rintro ⟨t, ht, hx⟩
    exact ⟨(checkBanTarget_net ht).1.trans (congrArg some hx), passes_of_check ht hx⟩
  · rintro ⟨hx, hpasses⟩
    exact check_of_passes hpasses hx

section byAddress
variable {env : SafetyEnv} {cs : List AutoBanCandidate} {c : AutoBanCandidate} {t : BanTarget} {x : Net}

theorem toOption_map_eq_some {e : Except BanTargetError BanTarget} {q : AutoBanCandidate × BanTarget} :
    (e.toOption.map fun t => (c, t)) = some q ↔ e = .ok q.2 ∧ c = q.1 := by
  obtain ⟨c', t'⟩ := q
  cases e with
  | error e =>
    rw [Except.toOption, Option.map_none]
    exact iff_of_false nofun fun h => nomatch h.1
  | ok t =>
    rw [Except.toOption, Option.map_some, Option.some_inj, Prod.mk.injEq, Except.ok.injEq]
    exact and_comm

theorem mem_byAddress_iff : (c, t) ∈ byAddress env cs ↔
    checkBanTarget env c.ip false = .ok t ∧ FirstWith (Targets env t.net) cs c := by
  have hsame (hcheck : checkBanTarget env c.ip false = .ok t) (c' : AutoBanCandidate) :
      (∃ q, ((checkBanTarget env c'.ip false).toOption.map fun t => (c', t)) = some q ∧ q.2.address = t.address) ↔
        Targets env t.net c' := by
    simp only [toOption_map_eq_some]
    constructor
    · rintro ⟨⟨c'', t'⟩, ⟨ht', rfl⟩, haddress⟩
      exact ⟨t', ht', (address_eq_iff ht' hcheck).mp haddress⟩
    · rintro ⟨t', ht', hnet⟩
      exact ⟨(c', t'), ⟨ht', rfl⟩, (address_eq_iff ht' hcheck).mpr hnet⟩
  have hkey (b c' : AutoBanCandidate) (h : b.ip = c'.ip) : Targets env t.net b ↔ Targets env t.net c' := by
    rw [Targets, Targets, h]
  rw [byAddress, mem_firstBy_iff, FirstWith.filterMap_iff]
  constructor
  · rintro ⟨c', hfirst, hc'⟩
    obtain ⟨hcheck, rfl⟩ := toOption_map_eq_some.mp hc'
    refine ⟨hcheck, ?_⟩
    rw [← firstWith_firstBy hkey]
    exact (FirstWith.congr fun b _ => hsame hcheck b).mp hfirst
  · rintro ⟨hcheck, hfirst⟩
    refine ⟨c, ?_, toOption_map_eq_some.mpr ⟨hcheck, rfl⟩⟩
    rw [← firstWith_firstBy hkey] at hfirst
    exact (FirstWith.congr fun b _ => hsame hcheck b).mpr hfirst

theorem nodup_byAddress (env : SafetyEnv) (cs : List AutoBanCandidate) :
    ((byAddress env cs).map (·.2.net)).Nodup := by
  have haddress : ((byAddress env cs).map (·.2.address)).Nodup := nodup_firstBy
  rw [List.Nodup, List.pairwise_map] at haddress ⊢
  refine haddress.imp_of_mem fun {p q} hp hq hne hnet => hne ?_
  exact (address_eq_iff (mem_byAddress hp).2 (mem_byAddress hq).2).mpr hnet

end byAddress

/-! ## Inserts -/

/-- The rows of the inserts, numbered from `id`. -/
def newRows (expiry : Net → Option Int) : Nat → List (AutoBanCandidate × BanTarget) → List BanRow
  | _, [] => []
  | id, p :: ps => autoRow p.1 p.2 (expiry p.2.net) id :: newRows expiry (id + 1) ps

/-- The unique key of an auto-ban. -/
def autoKey (n : Net) : Inet × Nat × Scope × Nat × Nat :=
  (Inet.ofAddr n.first, (Stored.ofNet n).effectivePrefix, .global, 0, 0)

section inserts
variable {expiry : Net → Option Int} {bans : Table BanRow.id} {ps : List (AutoBanCandidate × BanTarget)} {r : BanRow}
  {m n : Net}

theorem effectivePrefix_ofNet (n : Net) : (Stored.ofNet n).effectivePrefix = n.len :=
  congrArg Inet.masklen (Stored.networkSql_ofNet n)

theorem autoKey_injective (h : autoKey m = autoKey n) : m = n := by
  have hfirst : Inet.ofAddr m.first = Inet.ofAddr n.first := congrArg (·.1) h
  have hlen : (Stored.ofNet m).effectivePrefix = (Stored.ofNet n).effectivePrefix := congrArg (·.2.1) h
  rw [effectivePrefix_ofNet, effectivePrefix_ofNet] at hlen
  exact Net.ext (congrArg Inet.family hfirst) (congrArg Inet.addr hfirst) hlen

theorem net_autoRow (c : AutoBanCandidate) (t : BanTarget) (e : Option Int) (id : Nat) :
    (autoRow c t e id).net = t.net := by
  show (Stored.ofNet t.net).networkSql.net = t.net
  rw [Stored.networkSql_ofNet, Inet.net_ofNet]

theorem mem_newRows {id : Nat} (h : r ∈ newRows expiry id ps) :
    id ≤ r.id ∧ ∃ p ∈ ps, r = autoRow p.1 p.2 (expiry p.2.net) r.id := by
  induction ps generalizing id with
  | nil => exact absurd h List.not_mem_nil
  | cons p ps ih =>
    rcases List.mem_cons.mp h with rfl | h
    · exact ⟨le_rfl, p, List.mem_cons_self, rfl⟩
    · obtain ⟨hid, q, hq, hr⟩ := ih h
      exact ⟨by omega, q, List.mem_cons_of_mem p hq, hr⟩

theorem map_net_newRows (id : Nat) : (newRows expiry id ps).map BanRow.net = ps.map (·.2.net) := by
  induction ps generalizing id with
  | nil => rfl
  | cons p ps ih => rw [newRows, List.map_cons, List.map_cons, ih, net_autoRow]

theorem foldl_insertAuto_rows (hfree : ∀ p ∈ ps, ∀ r ∈ bans.rows, r.isActive = true → activeKey r ≠ autoKey p.2.net)
    (hnodup : (ps.map (·.2.net)).Nodup) :
    (ps.foldl (insertAuto expiry) bans).rows = bans.rows ++ newRows expiry bans.seq ps := by
  induction ps generalizing bans with
  | nil => exact (List.append_nil _).symm
  | cons p ps ih =>
    obtain ⟨hp, hfree⟩ := List.forall_mem_cons.mp hfree
    rw [List.map_cons, List.nodup_cons] at hnodup
    have hconflict : ¬uniqueConflict bans (autoRow p.1 p.2 (expiry p.2.net) bans.seq) = true := by
      rw [uniqueConflict, Bool.and_eq_true, List.any_eq_true]
      rintro ⟨-, r, hr, hkey⟩
      rw [Bool.and_eq_true, beq_iff_eq] at hkey
      exact hp r hr hkey.1 hkey.2
    rw [List.foldl_cons, insertAuto, if_neg hconflict, ih ?_ hnodup.2]
    · rw [newRows, Table.insert, List.append_assoc, List.singleton_append]
    · intro q hq r hr hactive hkey
      rcases Table.mem_insert.mp hr with hr | rfl
      · exact hfree q hq r hr hactive hkey
      · exact hnodup.1 (autoKey_injective hkey ▸ List.mem_map_of_mem hq)

theorem insertAutoBans_bans {db : Db} : (insertAutoBans expiry ps db).bans = ps.foldl (insertAuto expiry) db.bans := by
  rw [insertAutoBans]
  dsimp only
  rw [← List.foldl_flatten, flatten_slices (by decide)]

end inserts

/-! ## The cycle -/

/-- A live global row covers the network. -/
def LiveCovered (bans : Table BanRow.id) (now : Int) (x : Net) : Prop :=
  ∃ b ∈ bans.rows, b.isActive = true ∧ b.scope = .global ∧ b.unexpired now = true ∧ x ≤ b.net

/-- A global whitelist entry contains the network. -/
def GloballyWhitelisted (db : Db) (x : Net) : Prop := ∃ w ∈ db.whitelist.rows, w.scope = .global ∧ x ≤ w.ip

/-- A row that the step inserted. -/
def IsNew (db db' : Db) (r : BanRow) : Prop := r ∈ db'.bans.rows ∧ db.bans.seq ≤ r.id

section cycle
variable {env : SafetyEnv} {policy : BanPolicy} {now : Int} {cs : List AutoBanCandidate} {db : Db} {r r' b : BanRow}
  {x : Net}

theorem mem_covering {bans : Table BanRow.id} :
    b ∈ covering bans x ↔ b ∈ bans.rows ∧ b.scope = .global ∧ b.isActive = true ∧ x ≤ b.net := by
  rw [covering, List.mem_filter, Bool.and_eq_true, Bool.and_eq_true, beq_iff_eq, Inet.contains_iff, Inet.net_ofNet,
    and_assoc]
  rfl

theorem any_covering {bans : Table BanRow.id} :
    ((covering bans x).any fun b => b.unexpired now) = true ↔ LiveCovered bans now x := by
  rw [List.any_eq_true]
  simp only [mem_covering, LiveCovered]
  constructor
  · rintro ⟨b, ⟨hb, hscope, hactive, hx⟩, hlive⟩
    exact ⟨b, hb, hactive, hscope, hlive, hx⟩
  · rintro ⟨b, hb, hactive, hscope, hlive, hx⟩
    exact ⟨b, ⟨hb, hscope, hactive, hx⟩, hlive⟩

theorem whitelisted_iff : isWhitelisted db x {} = true ↔ GloballyWhitelisted db x := by
  rw [isWhitelisted_iff]
  refine exists_congr fun w => and_congr_right fun _ => ?_
  rw [whitelistApplies, and_comm]
  cases w.scope <;> simp

/-- The rows that cover the candidates to ban, all of them expired. -/
def coveringIds (env : SafetyEnv) (now : Int) (cs : List AutoBanCandidate) (db : Db) : List Nat :=
  (uncovered env now cs db.bans).flatMap fun p => (covering db.bans p.2.net).map (·.id)

/-- What is banned. -/
def toBan (env : SafetyEnv) (now : Int) (cs : List AutoBanCandidate) (db : Db) : List (AutoBanCandidate × BanTarget) :=
  (uncovered env now cs db.bans).filter fun p => !isWhitelisted db p.2.net {}

theorem mem_toBan {p : AutoBanCandidate × BanTarget} : p ∈ toBan env now cs db ↔
    p ∈ byAddress env cs ∧ ¬LiveCovered db.bans now p.2.net ∧ ¬GloballyWhitelisted db p.2.net := by
  rw [toBan, uncovered, List.mem_filter, List.mem_filter, Bool.not_eq_true', Bool.not_eq_true', ← Bool.not_eq_true,
    ← Bool.not_eq_true, any_covering, whitelisted_iff, and_assoc]

theorem createAutoBans_rows : (createAutoBans env policy now cs db).bans.rows =
    ((deactivateBans db now (coveringIds env now cs db) .expiry).2).bans.rows ++
      newRows (autoExpiry policy now (deactivateBans db now (coveringIds env now cs db) .expiry).2.bans) db.bans.seq
        (toBan env now cs db) := by
  obtain ⟨stale, hstale⟩ : ∃ stale, stale = (deactivateBans db now (coveringIds env now cs db) .expiry).2 := ⟨_, rfl⟩
  have hrun : createAutoBans env policy now cs db =
      insertAutoBans (autoExpiry policy now stale.bans) (toBan env now cs db) stale := by
    rw [hstale]
    rfl
  have hseq : stale.bans.seq = db.bans.seq := by
    rw [hstale, deactivateBans_bans]
    rfl
  rw [hrun, insertAutoBans_bans, ← hstale, foldl_insertAuto_rows, hseq]
  · -- an active row with the key of an address covers it, so it is stale
    intro p hp r hr hactive hkey
    rw [hstale] at hr
    obtain ⟨hmem, hid⟩ := active_of_mem_deactivateBans hr hactive
    have hip : r.target.ip = Inet.ofAddr p.2.net.first := congrArg (·.1) hkey
    have hlen : r.target.effectivePrefix = p.2.net.len := (congrArg (·.2.1) hkey).trans (effectivePrefix_ofNet p.2.net)
    have hscope : r.scope = .global := congrArg (·.2.2.1) hkey
    have hfamily : r.target.ip.family = p.2.net.family := congrArg Inet.family hip
    have haddr : r.target.ip.addr = p.2.net.addr := congrArg Inet.addr hip
    have hnetwork : r.target.networkSql = Inet.ofNet p.2.net := Inet.ext hfamily haddr hlen
    have hnet : r.net = p.2.net := by rw [BanRow.net, hnetwork, Inet.net_ofNet]
    refine hid (List.mem_flatMap.mpr ⟨p, List.mem_of_mem_filter hp, List.mem_map_of_mem ?_⟩)
    exact mem_covering.mpr ⟨hmem, hscope, hactive, hnet.ge⟩
  · refine (nodup_byAddress env cs).sublist (List.Sublist.map _ ?_)
    exact (List.filter_sublist).trans List.filter_sublist

theorem isNew_iff : IsNew db (createAutoBans env policy now cs db) r ↔
    r ∈ newRows (autoExpiry policy now (deactivateBans db now (coveringIds env now cs db) .expiry).2.bans) db.bans.seq
      (toBan env now cs db) := by
  rw [IsNew, createAutoBans_rows, List.mem_append]
  constructor
  · rintro ⟨hr | hr, hid⟩
    · have hlt := (Table.bounds _ r hr).2
      rw [deactivateBans_bans] at hlt
      exact absurd hlt (Nat.not_lt.mpr hid)
    · exact hr
  · exact fun hr => ⟨.inr hr, (mem_newRows hr).1⟩

/-- The addresses that are banned. -/
theorem exists_new_iff : (∃ r, IsNew db (createAutoBans env policy now cs db) r ∧ r.net = x) ↔
    (∃ c ∈ cs, Targets env x c) ∧ ¬LiveCovered db.bans now x ∧ ¬GloballyWhitelisted db x := by
  have hnets : (∃ r, IsNew db (createAutoBans env policy now cs db) r ∧ r.net = x) ↔
      ∃ p ∈ toBan env now cs db, p.2.net = x := by
    simp only [isNew_iff]
    rw [← List.mem_map (f := BanRow.net), map_net_newRows, List.mem_map]
  rw [hnets]
  constructor
  · rintro ⟨⟨c, t⟩, hp, rfl⟩
    obtain ⟨hmem, hfree⟩ := mem_toBan.mp hp
    obtain ⟨-, hfirst⟩ := mem_byAddress_iff.mp hmem
    exact ⟨⟨c, hfirst.mem, hfirst.prop⟩, hfree⟩
  · rintro ⟨hany, hfree⟩
    obtain ⟨c, hfirst⟩ := FirstWith.exists_iff.mpr hany
    obtain ⟨t, hcheck, rfl⟩ := hfirst.prop
    exact ⟨(c, t), mem_toBan.mpr ⟨mem_byAddress_iff.mpr ⟨hcheck, hfirst⟩, hfree⟩, rfl⟩

/-- A new row is made from the first candidate of its address. -/
theorem new_first (h : IsNew db (createAutoBans env policy now cs db) r) : ∃ c t e,
    FirstWith (Targets env r.net) cs c ∧ checkBanTarget env c.ip false = .ok t ∧ r = autoRow c t e r.id := by
  obtain ⟨-, ⟨c, t⟩, hp, hr⟩ := mem_newRows (isNew_iff.mp h)
  obtain ⟨hcheck, hfirst⟩ := mem_byAddress_iff.mp (mem_toBan.mp hp).1
  refine ⟨c, t, _, ?_, hcheck, hr⟩
  rw [hr, net_autoRow]
  exact hfirst

/-- An address has one new row. -/
theorem new_unique (h : IsNew db (createAutoBans env policy now cs db) r)
    (h' : IsNew db (createAutoBans env policy now cs db) r') (hnet : r.net = r'.net) : r = r' := by
  refine List.inj_on_of_nodup_map ?_ (isNew_iff.mp h) (isNew_iff.mp h') hnet
  rw [map_net_newRows]
  refine (nodup_byAddress env cs).sublist (List.Sublist.map _ ?_)
  exact (List.filter_sublist).trans List.filter_sublist

/-- A row of before stays, or it had expired and is deactivated. -/
theorem old_row (hb : b ∈ db.bans.rows) : b ∈ (createAutoBans env policy now cs db).bans.rows ∨
    b.isActive = true ∧ b.expired now = true ∧
      b.deactivated now .expiry ∈ (createAutoBans env policy now cs db).bans.rows := by
  rw [createAutoBans_rows, deactivateBans_bans]
  simp only [List.mem_append, Table.mem_update]
  by_cases hhit : isHit (coveringIds env now cs db) b = true
  · obtain ⟨hid, hactive⟩ := (isHit_iff hb).mp hhit
    obtain ⟨p, hp, hid⟩ := List.mem_flatMap.mp hid
    obtain ⟨b', hb', hid⟩ := List.mem_map.mp hid
    obtain rfl := Table.eq_of_key (mem_covering.mp hb').1 hb hid
    have hexpired : b'.unexpired now = false := by
      rw [← Bool.not_eq_true]
      intro hlive
      have hnone := (List.mem_filter.mp hp).2
      rw [Bool.not_eq_true', ← Bool.not_eq_true] at hnone
      exact hnone (List.any_eq_true.mpr ⟨b', hb', hlive⟩)
    refine .inr ⟨hactive, ?_, .inl ⟨b', hb, if_pos hhit⟩⟩
    rw [BanRow.expired_eq, hexpired]
    rfl
  · exact .inl (.inl ⟨b, hb, if_neg hhit⟩)

end cycle

end Obliguard.Server
