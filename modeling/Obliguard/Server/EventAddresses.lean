import Obliguard.Agent.BanEntry
import Obliguard.Server.ParseIp
import Obliguard.Server.ServiceTemplates

/-!
# The addresses of events

What `normalizeEventIp` accepts is read by PostgreSQL unless it has a zone, which `isIP` lets through; and two texts of
one address become one `inet` unless one of them is an IPv4-mapped address in another spelling than `::ffff:a.b.c.d`,
which alone is folded (`eventAddresses_canonical`).
-/

namespace Obliguard.Server

open Agent AddrText IpValidation Numeral Text

/-! ## What a text denotes -/

/-- The text of an address, trimmed and without its brackets. -/
def addressText (raw : String) : List Char := stripBrackets (jsTrim raw.toList)

/-- The address that a text denotes, where an IPv4-mapped one is that IPv4 address. -/
def denotedAddr (raw : String) : Option Addr := (parseAddr (addressText raw)).map unmap

/-- The `inet` that PostgreSQL reads in a literal of a host. -/
def inetValue (ip : List Char) : Option Inet := (parseAddr ip).map Inet.ofAddr

/-- An IPv4-mapped address that is not spelled `::ffff:a.b.c.d`. -/
def Unfolded (raw : String) : Prop :=
  foldDotted (addressText raw) = addressText raw ∧
    ∃ v, parseV6 (addressText raw) = some v ∧ v / 2 ^ 32 = 0xffff

/-! ## The IPv4-mapped spelling -/

theorem parseV4_dot_mem {s : List Char} {v : Nat} (h : parseV4 s = some v) : '.' ∈ s := by
  by_contra hdot
  rw [parseV4, List.splitOn_eq_singleton hdot] at h
  contradiction

theorem fields_ffff {rest : List Char} (hdot : '.' ∈ rest) (hcolon : ':' ∉ rest) :
    fields true ("ffff:".toList ++ rest) = (parseV4 rest).map fun v => 0xffff :: toGroups 16 2 v := by
  have hsplit : ("ffff:".toList ++ rest).splitOn ':' = ["ffff".toList, rest] := by
    show ("ffff".toList ++ ':' :: rest).splitOn ':' = _
    rw [List.splitOn_append_cons_self_of_not_mem (by decide), List.splitOn_eq_singleton hcolon]
  have hffff : hextet "ffff".toList = some 0xffff := by decide
  have hne : "ffff:".toList ++ rest ≠ [] := by simp
  rw [fields, if_neg hne, hsplit, fieldList, hffff, Option.bind_some, fieldList, lastField, hextet_of_dot hdot,
    if_pos rfl, Option.map_map]
  rfl

theorem parseV4_no_colon {s : List Char} {v : Nat} (h : parseV4 s = some v) : ':' ∉ s := by
  intro hc
  rcases parseV4_chars h ':' hc with h | h
  · contradiction
  · contradiction

theorem parseV6_dotted {rest : List Char} {v : Nat} (h : parseV4 rest = some v) :
    parseV6 ("::ffff:".toList ++ rest) = some (0xffff * 2 ^ 32 + v) := by
  have hv := parseV4_lt h
  have hfields : fields true ("ffff:".toList ++ rest) = some (0xffff :: toGroups 16 2 v) := by
    rw [fields_ffff (parseV4_dot_mem h) (parseV4_no_colon h), h, Option.map_some]
  have hsplit : splitDouble ("::ffff:".toList ++ rest) = some ([], "ffff:".toList ++ rest) := rfl
  rw [parseV6, hsplit]
  dsimp only
  rw [show fields false [] = some [] from rfl, Option.bind_some, hfields, Option.bind_some,
    if_pos (by rw [List.length_cons, length_toGroups]; decide), List.length_cons, length_toGroups]
  have hgroups : toGroups 16 2 v = [v / 2 ^ 16 % 2 ^ 16, v % 2 ^ 16] := rfl
  have hzeros : List.replicate (8 - ([] : List Nat).length - (2 + 1)) 0 = [0, 0, 0, 0, 0] := rfl
  rw [hgroups, hzeros, List.nil_append, Option.some.injEq, ofGroups]
  simp only [List.cons_append, List.nil_append, List.foldl_cons, List.foldl_nil]
  omega

theorem parseV6_mapped {start rest : List Char} {v : Nat} (hstart : start.map Char.toLower = "::ffff:".toList)
    (h : parseV4 rest = some v) : parseV6 (start ++ rest) = some (0xffff * 2 ^ 32 + v) := by
  rw [← parseV6_map_toLower, List.map_append, hstart]
  exact parseV6_dotted (by rw [parseV4_map_toLower, h])

/-! ## What is accepted -/

section accepted
variable {raw : String} {ip s : List Char}

theorem ofAddr_injective {a b : Addr} (h : Inet.ofAddr a = Inet.ofAddr b) : a = b := by
  have hhost : (Inet.ofAddr a).host = (Inet.ofAddr b).host := congrArg Inet.host h
  exact hhost

theorem percent_not_mem {a : Addr} (h : parseAddr s = some a) : '%' ∉ s := by
  intro hmem
  exact not_isAddrChar (.inr rfl) ((parseAddr_spec h).1 '%' hmem)

theorem foldDotted_cases (s : List Char) : foldDotted s = s ∨
    ∃ start, s = start ++ foldDotted s ∧ start.map Char.toLower = "::ffff:".toList ∧
      ∀ c ∈ foldDotted s, c.isDigit || c == '.' := by
  unfold foldDotted
  dsimp only
  split
  · rename_i h
    refine .inr ⟨s.take 7, (List.take_append_drop 7 s).symm, h.1, ?_⟩
    exact List.all_eq_true.mp h.2.2
  · exact .inl rfl

theorem isIPZoned_cases {f : IpFamily} (h : isIPZoned s = some f) :
    (f = .v4 ∧ ∃ v, parseV4 s = some v) ∨ (f = .v6 ∧ ∃ v, parseV6 s = some v) ∨ (f = .v6 ∧ '%' ∈ s) := by
  rw [isIPZoned] at h
  split at h
  · rename_i f' hip
    obtain rfl := Option.some.inj h
    rw [isIP] at hip
    split at hip
    · rename_i h4
      exact .inl ⟨(Option.some.inj hip).symm, Option.isSome_iff_exists.mp h4⟩
    · split at hip
      · rename_i h6
        exact .inr (.inl ⟨(Option.some.inj hip).symm, Option.isSome_iff_exists.mp h6⟩)
      · contradiction
  · split at h
    · rename_i c z zone hdrop
      split at h
      · refine .inr (.inr ⟨(Option.some.inj h).symm, ?_⟩)
        by_contra hpercent
        have hnil : s.dropWhile (· ≠ '%') = [] := by
          rw [List.dropWhile_eq_nil_iff]
          intro d hd
          rw [decide_eq_true_eq]
          rintro rfl
          exact hpercent hd
        rw [hnil] at hdrop
        contradiction
      · contradiction
    · contradiction

theorem normalizeEventIp_cases (h : normalizeEventIp (some raw) = some ip) :
    ('%' ∈ addressText raw ∧ '%' ∈ ip) ∨ ∃ a a', parseAddr (addressText raw) = some a ∧ parseAddr ip = some a' ∧
      unmap a' = unmap a ∧ (is4In6 a' = true ↔ Unfolded raw) := by
  rw [normalizeEventIp, Option.bind_some] at h
  have haddress : stripBrackets (jsTrim raw.toList) = addressText raw := rfl
  dsimp only at h
  rw [haddress] at h
  generalize htext : addressText raw = t at h
  rcases foldDotted_cases t with hfold | ⟨start, hstart, hlower, hdotted⟩
  · -- the text as it is
    rw [hfold] at h
    cases hip : isIPZoned t with
    | none =>
      rw [hip] at h
      contradiction
    | some f =>
      rw [hip] at h
      rcases isIPZoned_cases hip with ⟨rfl, v, hv⟩ | ⟨rfl, v, hv⟩ | ⟨rfl, hzone⟩
      · obtain rfl := Option.some.inj h
        have hparse : parseAddr t = some ⟨.v4, v, parseV4_lt hv⟩ := parseAddr_eq_some.mpr hv
        refine .inr ⟨_, _, hparse, hparse, rfl, ?_⟩
        rw [Unfolded, htext, parseV6_of_parseV4 hv]
        refine iff_of_false (fun hmapped => ?_) fun hunfolded => ?_
        · contradiction
        · obtain ⟨-, w, hw, -⟩ := hunfolded
          contradiction
      · obtain rfl := Option.some.inj h
        have hparse : parseAddr t = some ⟨.v6, v, parseV6_lt hv⟩ := parseAddr_eq_some.mpr hv
        have hlow : parseAddr (t.map Char.toLower) = some ⟨.v6, v, parseV6_lt hv⟩ := by
          refine parseAddr_eq_some.mpr ?_
          show parseV6 (t.map Char.toLower) = some v
          rw [parseV6_map_toLower, hv]
        refine .inr ⟨_, _, hparse, hlow, rfl, ?_⟩
        rw [Unfolded, htext, hfold, is4In6]
        simp only [decide_true, Bool.true_and, decide_eq_true_eq, true_and, hv, Option.some.injEq,
          exists_eq_left']
      · obtain rfl := Option.some.inj h
        exact .inl ⟨hzone, List.mem_map_of_mem (f := Char.toLower) hzone⟩
  · -- `::ffff:` is taken off: what remains is a dotted address
    by_cases hfold : foldDotted t = t
    · rw [hfold] at hstart
      have hnil : start = [] := List.append_left_eq_self.mp hstart.symm
      rw [hnil] at hlower
      contradiction
    · cases hip : isIPZoned (foldDotted t) with
      | none =>
        rw [hip] at h
        contradiction
      | some f =>
        rw [hip] at h
        have hnot : ∀ c, c ∈ foldDotted t → c ≠ ':' ∧ c ≠ '%' := by
          intro c hc
          have := hdotted c hc
          constructor
          · rintro rfl
            contradiction
          · rintro rfl
            contradiction
        rcases isIPZoned_cases hip with ⟨rfl, v, hv⟩ | ⟨rfl, v, hv⟩ | ⟨rfl, hzone⟩
        · obtain rfl := Option.some.inj h
          have hmapped : parseV6 t = some (0xffff * 2 ^ 32 + v) := by
            rw [hstart]
            exact parseV6_mapped hlower hv
          have hlt := parseV4_lt hv
          have hparse : parseAddr t = some ⟨.v6, _, parseV6_lt hmapped⟩ := parseAddr_eq_some.mpr hmapped
          have hrest : parseAddr (foldDotted t) = some ⟨.v4, v, hlt⟩ := parseAddr_eq_some.mpr hv
          have hhigh : (0xffff * 2 ^ 32 + v) / 2 ^ 32 = 0xffff := by omega
          have hlow : (0xffff * 2 ^ 32 + v) % 2 ^ 32 = v := by omega
          refine .inr ⟨_, _, hparse, hrest, ?_, ?_⟩
          · have hin : is4In6 ⟨.v6, _, parseV6_lt hmapped⟩ = true := by
              rw [is4In6, hhigh]
              rfl
            rw [unmap, unmap, if_neg (fun h => by contradiction), if_pos hin]
            simp only [hlow]
          · rw [Unfolded, htext]
            refine iff_of_false (fun h => ?_) fun h => hfold h.1
            contradiction
        · rw [parseV6_of_no_colon fun hc => (hnot _ hc).1 rfl] at hv
          contradiction
        · exact absurd rfl (hnot _ hzone).2

theorem eq_iff_of_unmap {a b : Addr} (h : unmap a = unmap b) : a = b ↔ (is4In6 a = true ↔ is4In6 b = true) := by
  constructor
  · rintro rfl
    exact Iff.rfl
  · intro hmapped
    by_cases ha : is4In6 a = true
    · have hb := hmapped.mp ha
      rw [unmap, unmap, if_pos ha, if_pos hb] at h
      have hlow : a.value % 2 ^ 32 = b.value % 2 ^ 32 := congrArg Addr.value h
      rw [is4In6, Bool.and_eq_true, decide_eq_true_eq, decide_eq_true_eq] at ha hb
      have hvalue : a.value = b.value := by omega
      exact Addr.ext (ha.1.trans hb.1.symm) hvalue
    · have hb := mt hmapped.mpr ha
      rw [unmap, unmap, if_neg ha, if_neg hb] at h
      exact h

theorem inetValue_isSome_iff (h : normalizeEventIp (some raw) = some ip) :
    (inetValue ip).isSome = true ↔ '%' ∉ addressText raw := by
  rw [inetValue, Option.isSome_map]
  rcases normalizeEventIp_cases h with ⟨hzone, hkept⟩ | ⟨a, a', ha, ha', -, -⟩
  · refine iff_of_false ?_ fun hnot => hnot hzone
    intro hsome
    obtain ⟨a, ha⟩ := Option.isSome_iff_exists.mp hsome
    exact percent_not_mem ha hkept
  · rw [ha']
    exact iff_of_true rfl (percent_not_mem ha)

theorem inetValue_eq_iff {raw' : String} {ip' : List Char} {a : Addr} (h : normalizeEventIp (some raw) = some ip)
    (h' : normalizeEventIp (some raw') = some ip') (ha : denotedAddr raw = some a)
    (ha' : denotedAddr raw' = some a) : inetValue ip = inetValue ip' ↔ (Unfolded raw ↔ Unfolded raw') := by
  have hplain : ∀ {raw ip}, normalizeEventIp (some raw) = some ip → denotedAddr raw = some a →
      ∃ r, parseAddr ip = some r ∧ unmap r = a ∧ (is4In6 r = true ↔ Unfolded raw) := by
    intro raw ip h ha
    obtain ⟨x, hx, hxa⟩ := Option.map_eq_some_iff.mp ha
    rcases normalizeEventIp_cases h with ⟨hzone, -⟩ | ⟨y, r, hy, hr, hunmap, hmapped⟩
    · exact absurd hzone (percent_not_mem hx)
    · obtain rfl := Option.some.inj (hx.symm.trans hy)
      exact ⟨r, hr, hunmap.trans hxa, hmapped⟩
  obtain ⟨r, hr, hra, hmapped⟩ := hplain h ha
  obtain ⟨r', hr', hra', hmapped'⟩ := hplain h' ha'
  rw [inetValue, inetValue, hr, hr', Option.map_some, Option.map_some, Option.some.injEq, ← hmapped, ← hmapped',
    ← eq_iff_of_unmap (hra.trans hra'.symm)]
  exact ⟨ofAddr_injective, congrArg Inet.ofAddr⟩

/-- The insert of a flush takes every row, or none is stored. -/
theorem eventRows_isSome_iff {b : EventBatch} {now : Int} :
    ((incomingEvents b).mapM fun p => eventRow b now p.1 p.2).isSome = true ↔
      ∀ ev ∈ b.events, b.disabledServices.contains ev.service = false → ∀ raw, ev.ip = some raw →
        (normalizeEventIp (some raw)).isSome = true → '%' ∉ addressText raw ∧ ev.fits = true := by
  have hrow : ∀ p : List Char × AgentIpEvent,
      (eventRow b now p.1 p.2).isSome = true ↔ (inetValue p.1).isSome = true ∧ p.2.fits = true := by
    intro p
    rw [eventRow, inetValue, Option.isSome_map]
    cases p.2.fits with
    | false => simp
    | true => simp
  rw [mapM_isSome_iff]
  constructor
  · intro hall ev hev hservice raw hraw haccepted
    obtain ⟨ip, hip⟩ := Option.isSome_iff_exists.mp haccepted
    have hmem : (ip, ev) ∈ incomingEvents b := by
      refine List.mem_filter.mpr ⟨List.mem_filterMap.mpr ⟨ev, hev, ?_⟩, ?_⟩
      · rw [hraw, hip]
        rfl
      · rw [hservice]
        rfl
    obtain ⟨hread, hfits⟩ := (hrow _).mp (hall _ hmem)
    exact ⟨(inetValue_isSome_iff hip).mp hread, hfits⟩
  · intro hall p hp
    obtain ⟨hp, hservice⟩ := List.mem_filter.mp hp
    obtain ⟨ev, hev, hpair⟩ := List.mem_filterMap.mp hp
    obtain ⟨ip, hip, rfl⟩ := Option.map_eq_some_iff.mp hpair
    rw [Bool.not_eq_true'] at hservice
    rw [hrow]
    cases hraw : ev.ip with
    | none =>
      rw [hraw] at hip
      contradiction
    | some raw =>
      rw [hraw] at hip
      obtain ⟨hzone, hfits⟩ := hall ev hev hservice raw hraw (Option.isSome_iff_exists.mpr ⟨ip, hip⟩)
      exact ⟨(inetValue_isSome_iff hip).mpr hzone, hfits⟩

end accepted

/-! ## Canonical addresses -/

/-- An accepted text is read by PostgreSQL exactly when it has no zone, so a flush whose texts fit their columns is
stored exactly when no accepted address in it has one; and two accepted texts of one address are one `inet`
exactly when both or none of them is an IPv4-mapped address that is not folded. -/
theorem eventAddresses_canonical (raw : String) (ip : List Char) (h : normalizeEventIp (some raw) = some ip) :
    ((inetValue ip).isSome = true ↔ '%' ∉ addressText raw) ∧
    (∀ raw' ip' a, normalizeEventIp (some raw') = some ip' → denotedAddr raw = some a →
      denotedAddr raw' = some a → (inetValue ip = inetValue ip' ↔ (Unfolded raw ↔ Unfolded raw'))) ∧
    ∀ (b : EventBatch) (now : Int), ((incomingEvents b).mapM fun p => eventRow b now p.1 p.2).isSome = true ↔
      ∀ ev ∈ b.events, b.disabledServices.contains ev.service = false → ∀ raw, ev.ip = some raw →
        (normalizeEventIp (some raw)).isSome = true → '%' ∉ addressText raw ∧ ev.fits = true :=
  ⟨inetValue_isSome_iff h, fun _ _ _ h' ha ha' => inetValue_eq_iff h h' ha ha', fun _ _ => eventRows_isSome_iff⟩

/-- Two spellings of an IPv6 address. -/
theorem eventAddresses_canonical_compressed :
    ∃ ip ip', normalizeEventIp (some "[2001:DB8::1]") = some ip ∧
      normalizeEventIp (some " 2001:db8:0:0:0:0:0:1 ") = some ip' ∧
      (inetValue ip).isSome = true ∧ inetValue ip = inetValue ip' := by
  have haddr : denotedAddr "[2001:DB8::1]" = denotedAddr " 2001:db8:0:0:0:0:0:1 " := by decide
  obtain ⟨a, ha⟩ : ∃ a, denotedAddr "[2001:DB8::1]" = some a :=
    Option.isSome_iff_exists.mp (by decide)
  have hip : normalizeEventIp (some "[2001:DB8::1]") = some "2001:db8::1".toList := by decide
  have hip' : normalizeEventIp (some " 2001:db8:0:0:0:0:0:1 ") = some "2001:db8:0:0:0:0:0:1".toList := by
    decide
  have hplain : ¬ Unfolded "[2001:DB8::1]" := by
    rintro ⟨-, v, hv, hmapped⟩
    have hvalue : parseV6 (addressText "[2001:DB8::1]") = some 0x20010db8000000000000000000000001 := by
      decide
    obtain rfl := Option.some.inj (hvalue.symm.trans hv)
    exact absurd hmapped (by decide)
  have hplain' : ¬ Unfolded " 2001:db8:0:0:0:0:0:1 " := by
    rintro ⟨-, v, hv, hmapped⟩
    have hvalue : parseV6 (addressText " 2001:db8:0:0:0:0:0:1 ") = some 0x20010db8000000000000000000000001 := by
      decide
    obtain rfl := Option.some.inj (hvalue.symm.trans hv)
    exact absurd hmapped (by decide)
  obtain ⟨hread, hsame, -⟩ := eventAddresses_canonical _ _ hip
  exact ⟨_, _, hip, hip', hread.mpr (by decide),
    (hsame _ _ a hip' ha (haddr ▸ ha)).mpr (iff_of_false hplain hplain')⟩

/-- A zone is accepted and no `inet`; the hexadecimal spelling of an IPv4-mapped address is another `inet` than the
dotted one. -/
theorem eventAddresses_odd :
    (¬ ∀ raw ip, normalizeEventIp (some raw) = some ip → (inetValue ip).isSome = true) ∧
    ¬ ∀ raw raw' ip ip' a, normalizeEventIp (some raw) = some ip → normalizeEventIp (some raw') = some ip' →
      denotedAddr raw = some a → denotedAddr raw' = some a → inetValue ip = inetValue ip' := by
  constructor
  · intro h
    have hzone := h "fe80::1%eth0" "fe80::1%eth0".toList (by decide)
    exact absurd hzone (by decide)
  · intro h
    have hsame := h "::ffff:198.51.100.7" "::ffff:c633:6407" "198.51.100.7".toList "::ffff:c633:6407".toList
      ⟨.v4, 3325256711, by decide⟩ (by decide) (by decide) (by decide) (by decide)
    exact absurd hsame (by decide)

end Obliguard.Server
