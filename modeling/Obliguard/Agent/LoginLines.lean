import Obliguard.Agent.ServiceLines

/-!
# Whom a line of an FTP or mail daemon accuses

The failure lines of vsftpd, pure-ftpd, proftpd, dovecot and postfix through `FTPParser` and `MailParser`. A parser tries
the formats in order, and what the client writes into a line of one daemon may be a failure in the format of another
that is tried before: of vsftpd in a line of pure-ftpd, of either in a line of proftpd, of dovecot in a line of postfix.
Those are the lines that accuse another address (`parse_login_iff`).
-/

namespace Obliguard.Agent

open AddrText Numeral Rx Text

/-! ## Texts in which nothing begins -/

/-- No `ph` begins in `B` when `s` follows. -/
def StartFree (ph B s : List Char) : Prop := ∀ q₁ q₂, B = q₁ ++ q₂ → q₂ ≠ [] → ¬ph <+: q₂ ++ s

section startFree
variable {ph B B' s : List Char} {c : Char}

theorem startFree_append (h : StartFree ph B (B' ++ s)) (h' : StartFree ph B' s) : StartFree ph (B ++ B') s := by
  intro q₁ q₂ htext hne
  obtain ⟨d, rfl, hd⟩ | ⟨d, rfl, hd⟩ := List.append_eq_append_iff.mp htext
  · exact h' d q₂ hd hne
  · cases d with
    | nil =>
      obtain rfl : B' = q₂ := by simpa using hd.symm
      exact h' [] B' rfl hne
    | cons x d =>
      rw [hd, List.append_assoc]
      exact h q₁ (x :: d) rfl (List.cons_ne_nil x d)

theorem startFree_of_not_infix (hB : ¬ph <:+: B) (hc : c ∉ ph.tail) : StartFree ph B (c :: s) := by
  rintro q₁ q₂ rfl hne hph
  obtain ⟨t, ht⟩ := hph
  obtain ⟨d, hd, -⟩ | ⟨d, rfl, hd⟩ := List.append_eq_append_iff.mp ht
  · exact hB ⟨q₁, d, by rw [hd, List.append_assoc]⟩
  · cases d with
    | nil => exact hB ⟨q₁, [], by simp⟩
    | cons x d =>
      obtain ⟨rfl, -⟩ := List.cons.inj hd
      rw [List.tail_append_of_ne_nil hne] at hc
      exact hc (List.mem_append_right _ List.mem_cons_self)

theorem startFree_of_not_mem (hc : c ∉ B) : StartFree (c :: ph) B s := by
  rintro q₁ q₂ rfl hne ⟨t, ht⟩
  obtain ⟨x, q₂, rfl⟩ := List.exists_cons_of_ne_nil hne
  obtain ⟨rfl, -⟩ := List.cons.inj ht
  exact hc (List.mem_append_right q₁ List.mem_cons_self)

/-- No end of `B` can be continued to `ph`, and `ph` is not in it. -/
def checkStartFree (ph B : List Char) : Bool :=
  (List.range B.length).all fun k => !ph.isPrefixOf (B.drop k) && !(B.drop k).isPrefixOf ph

theorem startFree_of_check (h : checkStartFree ph B = true) : StartFree ph B s := by
  rintro q₁ q₂ rfl hne hph
  have hlt : q₁.length < (q₁ ++ q₂).length := by
    rw [List.length_append]
    have := List.length_pos_iff.mpr hne
    omega
  have hk := List.all_eq_true.mp h q₁.length (List.mem_range.mpr hlt)
  rw [List.drop_left, Bool.and_eq_true, Bool.not_eq_true', Bool.not_eq_true', Bool.eq_false_iff, Bool.eq_false_iff] at hk
  rcases List.prefix_or_prefix_of_prefix hph (List.prefix_append q₂ s) with h | h
  · exact hk.1 (List.isPrefixOf_iff_prefix.mpr h)
  · exact hk.2 (List.isPrefixOf_iff_prefix.mpr h)

theorem countFrom_startFree (h : StartFree ph B s) : countFrom ph 0 (B ++ s) = countFrom ph 0 s := by
  induction B with
  | nil => rfl
  | cons x B ih =>
    have hnot : ¬ph.isPrefixOf (x :: (B ++ s)) = true := by
      rw [List.isPrefixOf_iff_prefix]
      exact h [] (x :: B) rfl (List.cons_ne_nil x B)
    rw [List.cons_append, countFrom, if_neg hnot]
    refine ih ?_
    rintro q₁ q₂ rfl hne
    exact h (x :: q₁) q₂ rfl hne

theorem find_startFree {r : Rx} (h : StartFree ph B s) : (seq (lit ph) r).find (B ++ s) = (seq (lit ph) r).find s := by
  refine find_append ?_
  intro q₁ q₂ htext hne
  rw [List.eq_nil_iff_forall_not_mem]
  rintro ⟨c, v⟩ hmem
  obtain ⟨m, hm, -⟩ := mem_run_lit_seq.mp hmem
  exact h q₁ q₂ htext hne ⟨m, hm.symm⟩

end startFree

/-! ## What the patterns find -/

/-- The text of an address to the patterns. -/
def AddressText (X : List Char) : Prop := X ≠ [] ∧ ∀ c ∈ X, addressChar c = true

def vsftpdMark : List Char := " LOGIN: Client \"".toList

/-- `[NAME] ` or nothing. -/
def NamePart (o : List Char) : Prop := o = [] ∨ ∃ name, o = '[' :: (name ++ "] ".toList) ∧ ∀ c ∈ name, dot c = true

/-- `s` holds `[pid n] [NAME] FAIL LOGIN: Client "X"`, or the same with `OK`. -/
def VsftpdText (s X : List Char) : Prop :=
  ∃ a n o w b, s = a ++ ("[pid ".toList ++ (n ++ ("] ".toList ++ (o ++ (w ++ (vsftpdMark ++ (X ++ '"' :: b))))))) ∧
    Digits n ∧ NamePart o ∧ w ∈ ["OK".toList, "FAIL".toList] ∧ AddressText X

section vsftpd
variable {s v X Y : List Char} {c : List (List Char)}

theorem mem_run_vsftpdName : (c, v) ∈ run (opt (seq (lit ['[']) (seq (capture (lazy dot)) (lit "] ".toList)))) s ↔
    ∃ o, s = o ++ v ∧ ((o = [] ∧ c = [[]]) ∨
      ∃ name, o = '[' :: (name ++ "] ".toList) ∧ (∀ x ∈ name, dot x = true) ∧ c = [name]) := by
  simp only [mem_run_opt, mem_run_lit_seq, mem_run_capture_lazy_seq, mem_run_lit]
  constructor
  · rintro (⟨_, rfl, name, _, _, rfl, hname, ⟨rfl, rfl⟩, rfl⟩ | ⟨rfl, rfl⟩)
    · exact ⟨'[' :: (name ++ "] ".toList), by simp only [List.append_assoc, List.cons_append, List.nil_append],
        .inr ⟨name, rfl, hname, rfl⟩⟩
    · exact ⟨[], rfl, .inl ⟨rfl, rfl⟩⟩
  · rintro ⟨o, rfl, ⟨rfl, rfl⟩ | ⟨name, rfl, hname, rfl⟩⟩
    · exact .inr ⟨rfl, rfl⟩
    · exact .inl ⟨name ++ ("] ".toList ++ v), by simp only [List.append_assoc, List.cons_append, List.nil_append],
        name, _, [], rfl, hname, ⟨rfl, rfl⟩, rfl⟩

theorem mem_run_vsftpdResult : (c, v) ∈ run vsftpdResult s ↔ ∃ w X, s = w ++ (vsftpdMark ++ (X ++ '"' :: v)) ∧
    w ∈ ["OK".toList, "FAIL".toList] ∧ AddressText X ∧ c = [w, X] := by
  simp only [vsftpdResult, mem_run_capture_anyOf_seq, mem_run_lit_seq, mem_run_capture_some1_seq, mem_run_lit]
  constructor
  · rintro ⟨w, _, _, rfl, hw, ⟨_, rfl, X, _, _, rfl, hX, ⟨rfl, rfl⟩, rfl⟩, rfl⟩
    exact ⟨w, X, rfl, hw, hX, rfl⟩
  · rintro ⟨w, X, rfl, hw, hX, rfl⟩
    exact ⟨w, _, [X], rfl, hw, ⟨_, rfl, X, _, [], rfl, hX, ⟨rfl, rfl⟩, rfl⟩, rfl⟩

theorem mem_run_vsftpd : (∃ name w, ([name, w, X], v) ∈ run vsftpdLoginRx s) ↔ ∃ n o w, s = "[pid ".toList ++ (n ++
    ("] ".toList ++ (o ++ (w ++ (vsftpdMark ++ (X ++ '"' :: v)))))) ∧ Digits n ∧ NamePart o ∧
      w ∈ ["OK".toList, "FAIL".toList] ∧ AddressText X := by
  simp only [vsftpdLoginRx, mem_run_lit_seq, mem_run_some1_seq]
  simp only [mem_run_seq, mem_run_vsftpdName, mem_run_vsftpdResult]
  constructor
  · rintro ⟨name, w, _, rfl, n, _, rfl, hn, _, rfl, c₁, _, _, ⟨o, rfl, ho⟩, ⟨w', X', rfl, hw, hX, rfl⟩, hc⟩
    have hlength : c₁ = [name] ∧ w = w' ∧ X = X' := by
      rcases ho with ⟨-, rfl⟩ | ⟨name', -, -, rfl⟩ <;> simpa [eq_comm] using hc
    obtain ⟨-, rfl, rfl⟩ := hlength
    refine ⟨n, o, w, rfl, hn, ?_, hw, hX⟩
    rcases ho with ⟨rfl, -⟩ | ⟨name', rfl, hname, -⟩
    · exact .inl rfl
    · exact .inr ⟨name', rfl, hname⟩
  · rintro ⟨n, o, w, rfl, hn, rfl | ⟨name, rfl, hname⟩, hw, hX⟩
    · exact ⟨[], w, _, rfl, n, _, rfl, hn, _, rfl, [[]], _, [w, X], ⟨[], rfl, .inl ⟨rfl, rfl⟩⟩,
        ⟨w, X, rfl, hw, hX, rfl⟩, rfl⟩
    · exact ⟨name, w, _, rfl, n, _, rfl, hn, _, rfl, [name], _, [w, X], ⟨_, rfl, .inr ⟨name, rfl, hname, rfl⟩⟩,
        ⟨w, X, rfl, hw, hX, rfl⟩, rfl⟩

theorem length_of_find {r : Rx} {m : List (List Char)} (h : r.find s = some m) : m.length = r.groups + 1 := by
  obtain ⟨pre, t, c, v, whole, -, hhead, rfl, -⟩ := find_eq_some h
  rw [List.length_cons, length_of_mem_run (List.mem_of_head? hhead)]

theorem vsftpd_find (s : List Char) : (vsftpdLoginRx.find s = none ∧ ∀ X, ¬VsftpdText s X) ∨
    ∃ whole name w X, vsftpdLoginRx.find s = some [whole, name, w, X] ∧ VsftpdText s X := by
  cases hfind : vsftpdLoginRx.find s with
  | none =>
    refine .inl ⟨rfl, ?_⟩
    rintro X ⟨a, n, o, w, b, rfl, hn, ho, hw, hX⟩
    obtain ⟨name, w, hmem⟩ := mem_run_vsftpd.mpr ⟨n, o, w, rfl, hn, ho, hw, hX⟩
    exact List.ne_nil_of_mem hmem (find_eq_none.mp hfind a _ rfl)
  | some m =>
    have hlength := length_of_find hfind
    obtain ⟨a, t, c, v, whole, rfl, hhead, rfl, -⟩ := find_eq_some hfind
    obtain ⟨name, w, X, rfl⟩ := List.length_eq_three.mp (Nat.succ.inj hlength)
    obtain ⟨n, o, w', rfl, hn, ho, hw, hX⟩ := mem_run_vsftpd.mp ⟨name, w, List.mem_of_head? hhead⟩
    exact .inr ⟨whole, name, w, X, rfl, a, n, o, w', v, rfl, hn, ho, hw, hX⟩

theorem VsftpdText.unique (honce : countFrom vsftpdMark 0 s = 1) (hX : VsftpdText s X) {p b : List Char}
    (hs : s = p ++ (vsftpdMark ++ (Y ++ '"' :: b))) (hY : '"' ∉ Y) : X = Y := by
  obtain ⟨a, n, o, w, b', htext, -, -, -, hX⟩ := hX
  have hquote : '"' ∉ X := fun h => absurd (hX.2 '"' h) (by decide)
  have htext' : s = (a ++ ("[pid ".toList ++ (n ++ ("] ".toList ++ (o ++ w))))) ++ (vsftpdMark ++ (X ++ '"' :: b')) := by
    rw [htext]
    simp only [List.append_assoc]
  obtain ⟨-, hrest⟩ := append_inj_of_count vsftpdMark (by decide) (by decide)
    (by rw [← htext']; exact honce) (htext'.symm.trans hs)
  exact (append_cons_inj hquote hY hrest).1

end vsftpd

/-! ## Pure-FTPd -/

def pureMark : List Char := ") [WARNING] Authentication failed for user [".toList

/-- `s` holds `(?@X) [WARNING] Authentication failed for user [NAME]` behind `a`. -/
def PureText (s a X : List Char) : Prop :=
  ∃ name b, s = a ++ ("(?@".toList ++ (X ++ (pureMark ++ (name ++ ']' :: b)))) ∧ AddressText X ∧
    ∀ x ∈ name, dot x = true

/-- The first one. -/
def FirstPureText (s X : List Char) : Prop :=
  ∃ a, PureText s a X ∧ ∀ a' X', PureText s a' X' → a.length ≤ a'.length

section pure
variable {s t v X Y : List Char} {c : List (List Char)}

theorem mem_run_pure : (c, v) ∈ run pureFtpdFailRx s ↔
    ∃ X name, s = "(?@".toList ++ (X ++ (pureMark ++ (name ++ ']' :: v))) ∧ AddressText X ∧
      (∀ x ∈ name, dot x = true) ∧ c = [X, name] := by
  simp only [pureFtpdFailRx, mem_run_lit_seq, mem_run_capture_some1_seq, mem_run_capture_many_seq, mem_run_lit]
  constructor
  · rintro ⟨_, rfl, X, _, _, rfl, hX, ⟨_, rfl, name, _, _, rfl, hname, ⟨rfl, rfl⟩, rfl⟩, rfl⟩
    exact ⟨X, name, rfl, hX, hname, rfl⟩
  · rintro ⟨X, name, rfl, hX, hname, rfl⟩
    exact ⟨_, rfl, X, _, [name], rfl, hX, ⟨_, rfl, name, _, [], rfl, hname, ⟨rfl, rfl⟩, rfl⟩, rfl⟩

theorem pure_text_address {r r' : List Char} (hX : AddressText X) (hY : AddressText Y)
    (h : "(?@".toList ++ (X ++ (pureMark ++ r)) = "(?@".toList ++ (Y ++ (pureMark ++ r'))) : X = Y := by
  have hbracket {x : List Char} (hx : AddressText x) : ')' ∉ x := fun h => absurd (hx.2 ')' h) (by decide)
  exact (append_cons_inj (hbracket hX) (hbracket hY) (List.append_cancel_left h)).1

theorem FirstPureText.unique (hX : FirstPureText s X) (hY : FirstPureText s Y) : X = Y := by
  obtain ⟨a, htextX, hfirst⟩ := hX
  obtain ⟨a', htextY, hfirst'⟩ := hY
  have hlength : a.length = a'.length := Nat.le_antisymm (hfirst a' Y htextY) (hfirst' a X htextX)
  obtain ⟨name, b, ha, hX, -⟩ := htextX
  obtain ⟨name', b', ha', hY, -⟩ := htextY
  obtain ⟨-, hrest⟩ := List.append_inj (ha.symm.trans ha') hlength
  exact pure_text_address hX hY hrest

theorem pure_find (s : List Char) : (pureFtpdFailRx.find s = none ∧ ∀ X, ¬FirstPureText s X) ∨
    ∃ whole X name, pureFtpdFailRx.find s = some [whole, X, name] ∧ FirstPureText s X := by
  cases hfind : pureFtpdFailRx.find s with
  | none =>
    refine .inl ⟨rfl, ?_⟩
    rintro X ⟨a, ⟨name, b, rfl, hX, hname⟩, -⟩
    exact List.ne_nil_of_mem (mem_run_pure.mpr ⟨X, name, rfl, hX, hname, rfl⟩) (find_eq_none.mp hfind a _ rfl)
  | some m =>
    obtain ⟨a, t, c, v, whole, rfl, hhead, rfl, hfirst⟩ := find_eq_some hfind
    obtain ⟨X, name, rfl, hX, hname, rfl⟩ := mem_run_pure.mp (List.mem_of_head? hhead)
    refine .inr ⟨whole, X, name, rfl, a, ⟨name, v, rfl, hX, hname⟩, ?_⟩
    rintro a' X' ⟨name', b', htext, hX', hname'⟩
    exact hfirst a' _ htext (List.ne_nil_of_mem (mem_run_pure.mpr ⟨X', name', rfl, hX', hname', rfl⟩))

theorem pure_address {r : List Char} (h : (c, v) ∈ run pureFtpdFailRx ("(?@".toList ++ (X ++ (pureMark ++ r))))
    (hX : AddressText X) : ∃ name, c = [X, name] := by
  obtain ⟨Y, name, htext, hY, -, rfl⟩ := mem_run_pure.mp h
  rw [pure_text_address hX hY htext]
  exact ⟨name, rfl⟩

/-! ## ProFTPD -/

theorem proftpd_address {H r : List Char} (hH : ∀ x ∈ H, hostChar x = true)
    (h : (c, v) ∈ run proftpdFailRx ('(' :: (H ++ '[' :: (X ++ ']' :: r)))) (hX : AddressText X) :
    ∃ name, c = [X, name] := by
  simp only [proftpdFailRx, mem_run_lit_seq, mem_run_many_seq, mem_run_capture_some1_seq, mem_run_capture_lazy_seq,
    mem_run_anyOf] at h
  obtain ⟨_, h₁, H', _, rfl, hH', _, rfl, Y, _, _, rfl, hY, ⟨_, rfl, name, _, _, rfl, -, ⟨rfl, -⟩, rfl⟩, rfl⟩ := h
  have hopen {x : List Char} (hx : ∀ y ∈ x, hostChar y = true) : '[' ∉ x := fun h => absurd (hx '[' h) (by decide)
  have hclose {x : List Char} (hx : AddressText x) : ']' ∉ x := fun h => absurd (hx.2 ']' h) (by decide)
  obtain ⟨-, h₂⟩ := append_cons_inj (hopen hH) (hopen hH') (List.cons.inj h₁).2
  obtain ⟨rfl, -⟩ := append_cons_inj (hclose hX) (hclose hY) h₂
  exact ⟨name, rfl⟩

end pure

/-! ## Dovecot and Postfix -/

def ripMark : List Char := ", rip=".toList

/-- `s` holds `auth failed, n attempts..., rip=X` with a comma or the end of the line behind it. -/
def DovecotText (s X : List Char) : Prop :=
  ∃ a n e b z, s = a ++ ("auth failed, ".toList ++ (n ++ (" attempt".toList ++ (e ++ (b ++ (ripMark ++ (X ++ z))))))) ∧
    Digits n ∧ (e = ['s'] ∨ e = []) ∧ ((∀ x ∈ (b ++ ripMark).head?, wordChar x = false) ∧ ∀ x ∈ b, dot x = true) ∧
    AddressText X ∧ (z.head? = some ',' ∨ ∀ x ∈ z, blank x = true)

section mail
variable {s t v X Y : List Char} {c : List (List Char)}

theorem mem_run_dovecotAddress : (c, v) ∈ run dovecotAddress s ↔ ∃ X z, s = ripMark ++ (X ++ (z ++ v)) ∧
    AddressText X ∧ (z = [','] ∨ v = [] ∧ ∀ x ∈ z, blank x = true) ∧ c = [X] := by
  simp only [dovecotAddress, mem_run_lit_seq, mem_run_capture_some1_seq, mem_run_alt, mem_run_lit, mem_run_many_seq,
    mem_run_ends, groups, Nat.add_zero, List.replicate_zero, List.append_nil, List.nil_append]
  constructor
  · rintro ⟨_, rfl, X, _, _, rfl, hX, ⟨_, ⟨rfl, rfl⟩, rfl⟩ | ⟨_, ⟨z, _, rfl, hz, rfl, rfl, rfl⟩, rfl⟩, rfl⟩
    · exact ⟨X, [','], rfl, hX, .inl rfl, rfl⟩
    · exact ⟨X, z, rfl, hX, .inr ⟨rfl, hz⟩, rfl⟩
  · rintro ⟨X, z, rfl, hX, rfl | ⟨rfl, hz⟩, rfl⟩
    · exact ⟨_, rfl, X, _, [], rfl, hX, .inl ⟨[], ⟨rfl, rfl⟩, rfl⟩, rfl⟩
    · exact ⟨_, rfl, X, _, [], rfl, hX, .inr ⟨[], ⟨z, [], rfl, hz, rfl, rfl, rfl⟩, rfl⟩, rfl⟩

theorem mem_run_dovecotRest : (c, v) ∈ run (seq (stop wordChar) (seq (many dot) dovecotAddress)) s ↔
    ∃ b X z, s = b ++ (ripMark ++ (X ++ (z ++ v))) ∧ ((∀ x ∈ (b ++ ripMark).head?, wordChar x = false) ∧
      ∀ x ∈ b, dot x = true) ∧ AddressText X ∧ (z = [','] ∨ v = [] ∧ ∀ x ∈ z, blank x = true) ∧ c = [X] := by
  have hhead (b r : List Char) : (b ++ (ripMark ++ r)).head? = (b ++ ripMark).head? := by
    rw [← List.append_assoc, List.head?_append_of_ne_nil]
    exact List.append_ne_nil_of_right_ne_nil b (by decide)
  simp only [mem_run_stop_seq, mem_run_many_seq, mem_run_dovecotAddress]
  constructor
  · rintro ⟨hstop, b, _, rfl, hb, X, z, rfl, hX, hz, rfl⟩
    rw [hhead] at hstop
    exact ⟨b, X, z, rfl, ⟨hstop, hb⟩, hX, hz, rfl⟩
  · rintro ⟨b, X, z, rfl, ⟨hstop, hb⟩, hX, hz, rfl⟩
    rw [hhead]
    exact ⟨hstop, b, _, rfl, hb, X, z, rfl, hX, hz, rfl⟩

theorem mem_run_dovecot : (c, v) ∈ run dovecotFailRx s ↔ ∃ n e b X z, s = "auth failed, ".toList ++ (n ++
    (" attempt".toList ++ (e ++ (b ++ (ripMark ++ (X ++ (z ++ v))))))) ∧ Digits n ∧ (e = ['s'] ∨ e = []) ∧
    ((∀ x ∈ (b ++ ripMark).head?, wordChar x = false) ∧ ∀ x ∈ b, dot x = true) ∧ AddressText X ∧
    (z = [','] ∨ v = [] ∧ ∀ x ∈ z, blank x = true) ∧ c = [n, X] := by
  simp only [dovecotFailRx, mem_run_lit_seq, mem_run_capture_some1_seq, mem_run_opt_seq (a := lit ['s']) rfl,
    mem_run_dovecotRest]
  constructor
  · rintro ⟨_, rfl, n, _, _, rfl, hn,
      ⟨_, rfl, ⟨_, rfl, b, X, z, rfl, hb, hX, hz, rfl⟩ | ⟨b, X, z, rfl, hb, hX, hz, rfl⟩⟩, rfl⟩
    · exact ⟨n, ['s'], b, X, z, rfl, hn, .inl rfl, hb, hX, hz, rfl⟩
    · exact ⟨n, [], b, X, z, rfl, hn, .inr rfl, hb, hX, hz, rfl⟩
  · rintro ⟨n, e, b, X, z, rfl, hn, rfl | rfl, hb, hX, hz, rfl⟩
    · exact ⟨_, rfl, n, _, [X], rfl, hn, ⟨_, rfl, .inl ⟨_, rfl, b, X, z, rfl, hb, hX, hz, rfl⟩⟩, rfl⟩
    · exact ⟨_, rfl, n, _, [X], rfl, hn, ⟨_, rfl, .inr ⟨b, X, z, rfl, hb, hX, hz, rfl⟩⟩, rfl⟩

theorem dovecot_find (s : List Char) : (dovecotFailRx.find s = none ∧ ∀ X, ¬DovecotText s X) ∨
    ∃ whole n X, dovecotFailRx.find s = some [whole, n, X] ∧ DovecotText s X := by
  cases hfind : dovecotFailRx.find s with
  | none =>
    refine .inl ⟨rfl, ?_⟩
    rintro X ⟨a, n, e, b, z, rfl, hn, he, hb, hX, hz⟩
    have hnone := find_eq_none.mp hfind a _ rfl
    rcases hz with hz | hz
    · obtain ⟨z', rfl⟩ := List.head?_eq_some_iff.mp hz
      refine List.ne_nil_of_mem (a := ([n, X], z')) (mem_run_dovecot.mpr ?_) hnone
      exact ⟨n, e, b, X, [','], rfl, hn, he, hb, hX, .inl rfl, rfl⟩
    · refine List.ne_nil_of_mem (a := ([n, X], [])) (mem_run_dovecot.mpr ?_) hnone
      exact ⟨n, e, b, X, z, by rw [List.append_nil], hn, he, hb, hX, .inr ⟨rfl, hz⟩, rfl⟩
  | some m =>
    obtain ⟨a, t, c, v, whole, rfl, hhead, rfl, -⟩ := find_eq_some hfind
    obtain ⟨n, e, b, X, z, rfl, hn, he, hb, hX, hz, rfl⟩ := mem_run_dovecot.mp (List.mem_of_head? hhead)
    refine .inr ⟨whole, n, X, rfl, a, n, e, b, z ++ v, rfl, hn, he, hb, hX, ?_⟩
    rcases hz with rfl | ⟨rfl, hz⟩
    · exact .inl rfl
    · exact .inr (by rwa [List.append_nil])

theorem takeWhile_address {z : List Char} (hX : AddressText X) (hz : z.head? = some ',' ∨ ∀ x ∈ z, blank x = true) :
    (X ++ z).takeWhile addressChar = X := by
  rw [List.takeWhile_append_of_pos hX.2]
  cases z with
  | nil => simp
  | cons x z =>
    have hx : addressChar x = false := by
      rcases hz with hz | hz
      · obtain rfl := Option.some.inj hz
        decide
      · have hblank := hz x List.mem_cons_self
        simp only [blank, Bool.or_eq_true, beq_iff_eq] at hblank
        rcases hblank with (((rfl | rfl) | rfl) | rfl) | rfl <;> decide
    rw [List.takeWhile_cons_of_neg (by rw [hx]; decide), List.append_nil]

theorem DovecotText.unique (honce : countFrom ripMark 0 s = 1) (hX : DovecotText s X) {p z : List Char}
    (hs : s = p ++ (ripMark ++ (Y ++ z))) (hY : AddressText Y) (hz : z.head? = some ',' ∨ ∀ x ∈ z, blank x = true) :
    X = Y := by
  obtain ⟨a, n, e, b, z', htext, -, -, -, hX, hz'⟩ := hX
  have htext' : s = (a ++ ("auth failed, ".toList ++ (n ++ (" attempt".toList ++ (e ++ b))))) ++
      (ripMark ++ (X ++ z')) := by
    rw [htext]
    simp only [List.append_assoc]
  obtain ⟨-, hrest⟩ := append_inj_of_count ripMark (by decide) (by decide)
    (by rw [← htext']; exact honce) (htext'.symm.trans hs)
  rw [← takeWhile_address hX hz', hrest, takeWhile_address hY hz]

theorem postfix_address {H r : List Char} (hH : ∀ x ∈ H, hostChar x = true)
    (h : (c, v) ∈ run postfixFailRx ("warning: ".toList ++ (H ++ '[' :: (X ++ ']' :: r)))) (hX : AddressText X) :
    ∃ c', c = X :: c' := by
  simp only [postfixFailRx, mem_run_lit_seq, mem_run_some1_seq, mem_run_capture_some1_seq] at h
  obtain ⟨_, h₁, H', _, rfl, hH', _, rfl, Y, _, c', rfl, hY, hrest, rfl⟩ := h
  rw [postfixSasl, mem_run_lit_seq] at hrest
  obtain ⟨m, rfl, -⟩ := hrest
  have hopen : '[' ∉ H := fun h => absurd (hH '[' h) (by decide)
  have hopen' : '[' ∉ H' := fun h => absurd (hH'.2 '[' h) (by decide)
  have hclose {x : List Char} (hx : AddressText x) : ']' ∉ x := fun h => absurd (hx.2 ']' h) (by decide)
  obtain ⟨-, h₂⟩ := append_cons_inj hopen hopen' (List.append_cancel_left h₁)
  obtain ⟨rfl, -⟩ := append_cons_inj (hclose hX) (hclose hY) h₂
  exact ⟨c', rfl⟩

end mail

/-! ## Lines -/

/-- A failed login that a daemon logs. The user name, and the password of an anonymous login, are texts of the
client. -/
inductive LoginLine
  /-- `[pid PID] [USER] FAIL LOGIN: Client "A"`, perhaps with `, anon password "PASSWORD"`. -/
  | vsftpd (pid : List Char) (user password : Option (List Char))
  /-- `(?@A) [WARNING] Authentication failed for user [USER]`. -/
  | pureFtpd (user : List Char)
  /-- `(HOST[A]) - USER USER (Login failed)...` or `(HOST[A]) - USER USER: no such user found...`. -/
  | proftpd (host user reason rest : List Char)
  /-- `LOGIN (auth failed, COUNT attempts MIDDLE: user=<USER>AFTER, rip=A, lip=...`. -/
  | dovecot (login count middle user after rest : List Char)
  /-- `warning: HOST[A]: SASL METHOD authentication failed: REASON`, perhaps with `, sasl_username=USER`. -/
  | smtpd (host method reason : List Char) (user : Option (List Char))

def nameText : Option (List Char) → List Char
  | none => []
  | some user => '[' :: (user ++ "] ".toList)

def passwordText : Option (List Char) → List Char
  | none => []
  | some password => ", anon password \"".toList ++ (password ++ ['"'])

def saslText : Option (List Char) → List Char
  | none => []
  | some user => ", sasl_username=".toList ++ user

/-- What the daemon writes before the text of the client. -/
def pureHead (A : List Char) : List Char :=
  "(?@".toList ++ (A ++ ") [WARNING] Authentication failed for user".toList)

def proftpdHead (host A : List Char) : List Char := '(' :: (host ++ '[' :: (A ++ "]) - USER".toList))

def postfixHead (host method reason A : List Char) : List Char :=
  "warning: ".toList ++ (host ++ '[' :: (A ++ ("]: SASL ".toList ++ (method ++ (" authentication failed".toList ++
    (": ".toList ++ reason))))))

/-- What follows, the text of the client first. -/
def pureTail (user : List Char) : List Char := " [".toList ++ (user ++ [']'])

def proftpdTail (user reason rest : List Char) : List Char := ' ' :: (user ++ (reason ++ rest))

def vsftpdText (pid : List Char) (user password : Option (List Char)) (A : List Char) : List Char :=
  "[pid ".toList ++ (pid ++ ("] ".toList ++ (nameText user ++ ("FAIL".toList ++ (vsftpdMark ++ (A ++
    '"' :: passwordText password))))))

def dovecotText (login count middle user after rest A : List Char) : List Char :=
  login ++ ("auth failed, ".toList ++ (count ++ (" attempts".toList ++ (middle ++ (": user=<".toList ++ (user ++
    ('>' :: (after ++ (ripMark ++ (A ++ (", lip=".toList ++ rest)))))))))))

def LoginLine.text (A : List Char) : LoginLine → List Char
  | vsftpd pid user password => vsftpdText pid user password A
  | pureFtpd user => pureHead A ++ pureTail user
  | proftpd host user reason rest => proftpdHead host A ++ proftpdTail user reason rest
  | dovecot login count middle user after rest => dovecotText login count middle user after rest A
  | smtpd host method reason user => postfixHead host method reason A ++ saslText user

/-- What the daemon itself writes. -/
def LoginLine.Logged : LoginLine → Prop
  | vsftpd pid _ _ => Digits pid
  | pureFtpd _ => True
  | proftpd host _ reason _ => (∀ c ∈ host, clientChar c = true) ∧ reason ∈ proftpdReasons
  | dovecot _ count middle _ _ _ => Digits count ∧ middle.head? = some ' '
  | smtpd host method reason _ =>
    (host ≠ [] ∧ ∀ c ∈ host, clientChar c = true) ∧ (method ≠ [] ∧ ∀ c ∈ method, (wordChar c || c == '-') = true) ∧
      ',' ∉ reason

/-- A syslog prefix holds nothing of what the messages begin with. -/
structure LogPrefix (syslog : List Char) : Prop where
  bracket : '(' ∉ syslog
  marks : ∀ ph ∈ ["[pid ".toList, vsftpdMark, "auth failed, ".toList, ripMark, "warning: ".toList], ¬ph <:+: syslog

/-! ## The address that is read -/

/-- The text reads as a login of vsftpd from another address than `address`. -/
def VsftpdAccuses (s : List Char) (address : String) : Prop :=
  countFrom vsftpdMark 0 s = 1 ∧
    ∃ X, VsftpdText s X ∧ cleanIP (String.ofList X) ≠ "" ∧ cleanIP (String.ofList X) ≠ address

/-- The first text of pure-ftpd is of another address. -/
def PureAccuses (s : List Char) (address : String) : Prop :=
  ∃ X, FirstPureText s X ∧ cleanIP (String.ofList X) ≠ "" ∧ cleanIP (String.ofList X) ≠ address

/-- The text reads as a failure of dovecot from another address. -/
def DovecotAccuses (s : List Char) (address : String) : Prop :=
  countFrom ripMark 0 s = 1 ∧
    ∃ X, DovecotText s X ∧ cleanIP (String.ofList X) ≠ "" ∧ cleanIP (String.ofList X) ≠ address

/-- What the client writes, with the end of the line behind it, imitates a daemon that is tried before, and accuses
another address. -/
def LoginLine.Imitates (address : String) : LoginLine → Prop
  | vsftpd _ _ _ => False
  | pureFtpd user => VsftpdAccuses (pureTail user) address
  | proftpd _ user reason rest =>
    VsftpdAccuses (proftpdTail user reason rest) address ∨
      (∀ X, ¬VsftpdText (proftpdTail user reason rest) X) ∧ PureAccuses (proftpdTail user reason rest) address
  | dovecot _ _ _ _ _ _ => False
  | smtpd _ _ _ user => DovecotAccuses (saslText user) address

/-- The events that the parser of the daemon makes of a line. -/
def LoginLine.parse (re : Regexp) (stamps : Nat → Stamp) (svcKey : String) (line : List Char) :
    LoginLine → List AgentIpEvent
  | vsftpd _ _ _ => parseFTP (serviceRegexp re) stamps (String.ofList line) svcKey
  | pureFtpd _ => parseFTP (serviceRegexp re) stamps (String.ofList line) svcKey
  | proftpd _ _ _ _ => parseFTP (serviceRegexp re) stamps (String.ofList line) svcKey
  | dovecot _ _ _ _ _ _ => parseMail (serviceRegexp re) stamps (String.ofList line) svcKey
  | smtpd _ _ _ _ => parseMail (serviceRegexp re) stamps (String.ofList line) svcKey

section parse
variable (re : Regexp) (stamps : Nat → Stamp) {svcKey : String} {A L s X : List Char} {address : String}

theorem find_vsftpd : (serviceRegexp re).findStringSubmatch vsftpdLoginRe (String.ofList L) =
    (vsftpdLoginRx.find L).map (·.map String.ofList) := by
  rw [find_of_mem re _ vsftpdLoginRx.find (by simp [servicePatterns]), String.toList_ofList]

theorem find_pure : (serviceRegexp re).findStringSubmatch pureFtpdFailRe (String.ofList L) =
    (pureFtpdFailRx.find L).map (·.map String.ofList) := by
  rw [find_of_mem re _ pureFtpdFailRx.find (by simp [servicePatterns]), String.toList_ofList]

theorem find_proftpd : (serviceRegexp re).findStringSubmatch proftpdFailRe (String.ofList L) =
    (proftpdFailRx.find L).map (·.map String.ofList) := by
  rw [find_of_mem re _ proftpdFailRx.find (by simp [servicePatterns]), String.toList_ofList]

theorem count_ofList (mark : String) : count (String.ofList L) mark = countFrom mark.toList 0 L := by
  rw [count, String.toList_ofList]

theorem forall_parseFTP_vsftpd (hfind : vsftpdLoginRx.find L = vsftpdLoginRx.find s)
    (hcount : countFrom vsftpdMark 0 L = countFrom vsftpdMark 0 s) (hX : VsftpdText s X) :
    (∀ ev ∈ parseFTP (serviceRegexp re) stamps (String.ofList L) svcKey, ev.ip = address) ↔
      ¬VsftpdAccuses s address := by
  obtain ⟨-, hnone⟩ | ⟨whole, name, w, Y, hsome, hY⟩ := vsftpd_find s
  · exact absurd hX (hnone X)
  · rw [parseFTP, find_vsftpd, hfind, hsome]
    simp only [Option.map_some, count_ofList]
    rw [show countFrom " LOGIN: Client \"".toList 0 L = countFrom vsftpdMark 0 s from hcount]
    by_cases honce : countFrom vsftpdMark 0 s = 1
    · rw [if_neg (not_not.mpr honce)]
      refine (forall_authEvents_iff stamps).trans (not_congr ?_)
      constructor
      · exact fun h => ⟨honce, Y, hY, h⟩
      · rintro ⟨-, Z, hZ, h⟩
        obtain ⟨a, n, o, w, b, htext, -, -, -, hYchars⟩ := hY
        obtain rfl := hZ.unique honce (Y := Y) (p := a ++ ("[pid ".toList ++ (n ++ ("] ".toList ++ (o ++ w))))) (b := b)
          (by rw [htext]; simp only [List.append_assoc]) fun h => absurd (hYchars.2 '"' h) (by decide)
        exact h
    · rw [if_pos honce]
      exact iff_of_true (fun _ h => absurd h List.not_mem_nil) fun h => honce h.1

theorem parseFTP_pure (hvsftpd : vsftpdLoginRx.find L = none) {whole name : List Char}
    (hpure : pureFtpdFailRx.find L = some [whole, X, name]) :
    parseFTP (serviceRegexp re) stamps (String.ofList L) svcKey =
      authEvents stamps 1 (String.ofList X) (String.ofList name) svcKey "auth_failure" (String.ofList L) := by
  rw [parseFTP, find_vsftpd, find_pure, hvsftpd, hpure]
  rfl

theorem parseFTP_proftpd (hvsftpd : vsftpdLoginRx.find L = none) (hpure : pureFtpdFailRx.find L = none)
    {whole name : List Char} (hproftpd : proftpdFailRx.find L = some [whole, X, name]) :
    parseFTP (serviceRegexp re) stamps (String.ofList L) svcKey =
      authEvents stamps 1 (String.ofList X) (String.ofList name) svcKey "auth_failure" (String.ofList L) := by
  rw [parseFTP, find_vsftpd, find_pure, find_proftpd, hvsftpd, hpure, hproftpd]
  rfl

end parse

/-! ## Texts before the client's -/

section heads
variable {P A H s ph : List Char}

theorem AddressText.not_mem {X : List Char} (hX : AddressText X) {c : Char} (hc : addressChar c = false) : c ∉ X := by
  intro hmem
  rw [hX.2 c hmem] at hc
  contradiction

theorem startFree_address (hA : AddressText A) (hph : ph.head? = some '[' ∨ ph.head? = some ' ' ∨ ph.head? = some '(') :
    StartFree ph A s := by
  rcases hph with hph | hph | hph
  all_goals
    obtain ⟨ph', rfl⟩ := List.head?_eq_some_iff.mp hph
    exact startFree_of_not_mem (hA.not_mem (by decide))

/-- The texts that begin where vsftpd is read. -/
def vsftpdStarts : List (List Char) := ["[pid ".toList, vsftpdMark]

theorem head?_vsftpdStarts (hph : ph ∈ vsftpdStarts) :
    ph.head? = some '[' ∨ ph.head? = some ' ' ∨ ph.head? = some '(' := by
  simp only [vsftpdStarts, List.mem_cons, List.not_mem_nil, or_false] at hph
  rcases hph with rfl | rfl
  · exact .inl rfl
  · exact .inr (.inl rfl)

theorem startFree_vsftpdStarts {B : List Char} (h : (vsftpdStarts.all fun ph => checkStartFree ph B) = true)
    (hph : ph ∈ vsftpdStarts) : StartFree ph B s := startFree_of_check (List.all_eq_true.mp h ph hph)

theorem startFree_syslog (hP : LogPrefix P) (hph : ph ∈ vsftpdStarts) : StartFree ph P ('(' :: s) := by
  simp only [vsftpdStarts, List.mem_cons, List.not_mem_nil, or_false] at hph
  refine startFree_of_not_infix (hP.marks ph ?_) ?_
  · rcases hph with rfl | rfl
    · exact List.mem_cons_self
    · exact List.mem_cons_of_mem _ List.mem_cons_self
  · rcases hph with rfl | rfl <;> decide

theorem startFree_pureHead (hP : LogPrefix P) (hA : AddressText A) (hph : ph ∈ vsftpdStarts) :
    StartFree ph (P ++ pureHead A) s := by
  have hend : StartFree ph ") [WARNING] Authentication failed for user".toList s :=
    startFree_vsftpdStarts (by decide) hph
  have haddress := startFree_append (startFree_address hA (head?_vsftpdStarts hph)) hend
  have hstart : StartFree ph "(?@".toList (A ++ ") [WARNING] Authentication failed for user".toList ++ s) :=
    startFree_vsftpdStarts (by decide) hph
  exact startFree_append (startFree_syslog hP hph) (startFree_append hstart haddress)

theorem not_prefix_of_head {x y : Char} {t r : List Char} (hph : ph = x :: y :: r) (h : t.head? ≠ some y) :
    ¬ph <+: x :: t := by
  rintro ⟨u, hu⟩
  rw [hph] at hu
  obtain ⟨-, rfl⟩ := List.cons.inj hu
  exact h rfl

theorem startFree_singleton {x : Char} (h : ¬ph <+: x :: s) : StartFree ph [x] s := by
  intro q₁ q₂ htext hne
  obtain ⟨y, q₂, rfl⟩ := List.exists_cons_of_ne_nil hne
  cases q₁ with
  | nil =>
    rw [List.nil_append] at htext
    rwa [← htext]
  | cons z q₁ => exact absurd (List.cons.inj htext).2.symm (by simp)

theorem startFree_proftpdHead (hP : LogPrefix P) (hH : ∀ c ∈ H, clientChar c = true) (hA : AddressText A)
    (hph : ph ∈ vsftpdStarts) : StartFree ph (P ++ proftpdHead H A) s := by
  have hend : StartFree ph "]) - USER".toList s := startFree_vsftpdStarts (by decide) hph
  have haddress := startFree_append (startFree_address hA (head?_vsftpdStarts hph)) hend
  obtain ⟨a, A', rfl⟩ := List.exists_cons_of_ne_nil hA.1
  have ha : a ≠ 'p' := by
    rintro rfl
    exact absurd (hA.2 'p' List.mem_cons_self) (by decide)
  have hopen : StartFree ph ['['] ((a :: A') ++ "]) - USER".toList ++ s) := by
    simp only [vsftpdStarts, List.mem_cons, List.not_mem_nil, or_false] at hph
    rcases hph with rfl | rfl
    · exact startFree_singleton (not_prefix_of_head (y := 'p') (r := "id ".toList) rfl (by simpa using ha))
    · exact startFree_of_check (by decide)
  have hhost : StartFree ph H (['['] ++ ((a :: A') ++ "]) - USER".toList) ++ s) := by
    rcases head?_vsftpdStarts hph with hhead | hhead | hhead
    all_goals
      obtain ⟨ph', rfl⟩ := List.head?_eq_some_iff.mp hhead
      exact startFree_of_not_mem fun h => absurd (hH _ h) (by decide)
  have hparen : StartFree ph ['('] (H ++ (['['] ++ ((a :: A') ++ "]) - USER".toList)) ++ s) :=
    startFree_vsftpdStarts (by decide) hph
  refine startFree_append (startFree_syslog hP hph) (startFree_append hparen ?_)
  exact startFree_append hhost (startFree_append hopen haddress)

theorem startFree_proftpdHead_pure (hP : LogPrefix P) (hH : ∀ c ∈ H, clientChar c = true) (hA : AddressText A) :
    StartFree "(?@".toList (P ++ proftpdHead H A) s := by
  have hrest : '(' ∉ H ++ (['['] ++ (A ++ "]) - USER".toList)) := by
    simp only [List.mem_append, not_or]
    exact ⟨fun h => absurd (hH _ h) (by decide), by decide, hA.not_mem (by decide), by decide⟩
  have hparen : StartFree "(?@".toList ['('] (H ++ (['['] ++ (A ++ "]) - USER".toList)) ++ s) := by
    refine startFree_singleton (not_prefix_of_head (y := '?') (r := ['@']) rfl ?_)
    cases H with
    | nil => simp
    | cons x H =>
      have hx : x ≠ '?' := by
        rintro rfl
        exact absurd (hH '?' List.mem_cons_self) (by decide)
      simpa using hx
  exact startFree_append (startFree_of_not_mem hP.bracket) (startFree_append hparen (startFree_of_not_mem hrest))

end heads

/-! ## The lines of the FTP daemons -/

section ftp
variable (re : Regexp) (stamps : Nat → Stamp) {svcKey : String} {P A L s X : List Char} {address : String}

theorem pureMark_eq : pureMark = ") [WARNING] Authentication failed for user".toList ++ " [".toList := by decide

theorem pureHead_append {user : List Char} :
    pureHead A ++ pureTail user = "(?@".toList ++ (A ++ (pureMark ++ (user ++ [']']))) := by
  rw [pureHead, pureTail, pureMark_eq]
  simp only [List.append_assoc]

theorem find_pureHead {user : List Char} (hA : AddressText A) (huser : ∀ c ∈ user, dot c = true) :
    ∃ whole name, pureFtpdFailRx.find (pureHead A ++ pureTail user) = some [whole, A, name] := by
  rw [pureHead_append]
  have hmem := mem_run_pure (s := "(?@".toList ++ (A ++ (pureMark ++ (user ++ [']'])))) (v := []) (c := [A, user])
  obtain ⟨c, v, whole, hhead, hsome⟩ :=
    find_of_run_ne_nil (List.ne_nil_of_mem (hmem.mpr ⟨A, user, rfl, hA, huser, rfl⟩))
  obtain ⟨name, rfl⟩ := pure_address (List.mem_of_head? hhead) hA
  exact ⟨whole, name, hsome⟩

theorem parse_pureFtpd_iff (svcKey : String) {user : List Char} (hP : LogPrefix P) (hA : AddressText A)
    (hL : L = P ++ (pureHead A ++ pureTail user)) (huser : ∀ c ∈ user, dot c = true) :
    (∀ ev ∈ parseFTP (serviceRegexp re) stamps (String.ofList L) svcKey, ev.ip = cleanIP (String.ofList A)) ↔
      ¬VsftpdAccuses (pureTail user) (cleanIP (String.ofList A)) := by
  have htext : L = (P ++ pureHead A) ++ pureTail user := by rw [hL, List.append_assoc]
  have hfind : vsftpdLoginRx.find L = vsftpdLoginRx.find (pureTail user) := by
    rw [htext]
    exact find_startFree (startFree_pureHead hP hA List.mem_cons_self)
  have hcount : countFrom vsftpdMark 0 L = countFrom vsftpdMark 0 (pureTail user) := by
    rw [htext]
    exact countFrom_startFree (startFree_pureHead hP hA (List.mem_cons_of_mem _ List.mem_cons_self))
  rcases vsftpd_find (pureTail user) with ⟨hnone, hno⟩ | ⟨_, _, _, X, -, hX⟩
  · refine iff_of_true ?_ fun h => hno _ h.2.choose_spec.1
    obtain ⟨whole, name, hsome⟩ := find_pureHead hA huser
    have hpure : pureFtpdFailRx.find L = some [whole, A, name] := by
      rw [← hsome, hL]
      exact find_startFree (startFree_of_not_mem hP.bracket)
    rw [parseFTP_pure re stamps (hfind.trans hnone) hpure]
    exact fun ev hev => ip_of_mem_authEvents stamps hev
  · exact forall_parseFTP_vsftpd re stamps hfind hcount hX

theorem proftpdHead_append {H user reason rest : List Char} : proftpdHead H A ++ proftpdTail user reason rest =
    '(' :: (H ++ '[' :: (A ++ ("]) - USER ".toList ++ (user ++ (reason ++ rest))))) := by
  have hmark : "]) - USER ".toList = "]) - USER".toList ++ [' '] := by decide
  rw [proftpdHead, proftpdTail, hmark]
  simp only [List.append_assoc, List.cons_append, List.nil_append]

theorem hostChar_of_clientChar {c : Char} (hc : clientChar c = true) : hostChar c = true := by
  have hne {x : Char} (hx : clientChar x = false) : c ≠ x := by
    rintro rfl
    rw [hc] at hx
    contradiction
  simp only [hostChar, Bool.and_eq_true, bne_iff_ne]
  exact ⟨⟨⟨⟨(space_of_clientChar hc).2.2, hne (by decide)⟩, hne (by decide)⟩, hne (by decide)⟩, hne (by decide)⟩

theorem find_proftpdHead {H user reason : List Char} (rest : List Char) (hH : ∀ c ∈ H, clientChar c = true)
    (hA : AddressText A) (huser : ∀ c ∈ user, dot c = true) (hreason : reason ∈ proftpdReasons) :
    ∃ whole name, proftpdFailRx.find (proftpdHead H A ++ proftpdTail user reason rest) = some [whole, A, name] := by
  have hhost : ∀ c ∈ H, hostChar c = true := fun c hc => hostChar_of_clientChar (hH c hc)
  rw [proftpdHead_append]
  have hmem : ([A, user], rest) ∈ run proftpdFailRx
      ('(' :: (H ++ '[' :: (A ++ ("]) - USER ".toList ++ (user ++ (reason ++ rest)))))) := by
    simp only [proftpdFailRx, mem_run_lit_seq, mem_run_many_seq, mem_run_capture_some1_seq, mem_run_capture_lazy_seq,
      mem_run_anyOf]
    exact ⟨_, rfl, H, _, rfl, hhost, _, rfl, A, _, [user], rfl, hA, ⟨_, rfl, user, _, [], rfl, huser,
      ⟨rfl, reason, hreason, rfl⟩, rfl⟩, rfl⟩
  obtain ⟨c, v, whole, hhead, hsome⟩ := find_of_run_ne_nil (List.ne_nil_of_mem hmem)
  obtain ⟨name, rfl⟩ := proftpd_address hhost (r := ") - USER ".toList ++ (user ++ (reason ++ rest)))
    (List.mem_of_head? hhead) hA
  exact ⟨whole, name, hsome⟩

theorem forall_parseFTP_pure (hvsftpd : vsftpdLoginRx.find L = none)
    (hfind : pureFtpdFailRx.find L = pureFtpdFailRx.find s) (hX : FirstPureText s X) :
    (∀ ev ∈ parseFTP (serviceRegexp re) stamps (String.ofList L) svcKey, ev.ip = address) ↔ ¬PureAccuses s address := by
  rcases pure_find s with ⟨-, hnone⟩ | ⟨whole, Y, name, hsome, hY⟩
  · exact absurd hX (hnone X)
  · rw [parseFTP_pure re stamps hvsftpd (hfind.trans hsome)]
    refine (forall_authEvents_iff stamps).trans (not_congr ?_)
    constructor
    · exact fun h => ⟨Y, hY, h⟩
    · rintro ⟨Z, hZ, h⟩
      rwa [hY.unique hZ]

theorem parse_proftpd_iff {H user reason rest : List Char} (hP : LogPrefix P) (hH : ∀ c ∈ H, clientChar c = true)
    (hA : AddressText A) (hreason : reason ∈ proftpdReasons)
    (hL : L = P ++ (proftpdHead H A ++ proftpdTail user reason rest)) (huser : ∀ c ∈ user, dot c = true) :
    (∀ ev ∈ parseFTP (serviceRegexp re) stamps (String.ofList L) svcKey, ev.ip = cleanIP (String.ofList A)) ↔
      ¬(VsftpdAccuses (proftpdTail user reason rest) (cleanIP (String.ofList A)) ∨
        (∀ X, ¬VsftpdText (proftpdTail user reason rest) X) ∧
          PureAccuses (proftpdTail user reason rest) (cleanIP (String.ofList A))) := by
  have htext : L = (P ++ proftpdHead H A) ++ proftpdTail user reason rest := by rw [hL, List.append_assoc]
  have hfind : vsftpdLoginRx.find L = vsftpdLoginRx.find (proftpdTail user reason rest) := by
    rw [htext]
    exact find_startFree (startFree_proftpdHead hP hH hA List.mem_cons_self)
  have hcount : countFrom vsftpdMark 0 L = countFrom vsftpdMark 0 (proftpdTail user reason rest) := by
    rw [htext]
    exact countFrom_startFree (startFree_proftpdHead hP hH hA (List.mem_cons_of_mem _ List.mem_cons_self))
  have hpure : pureFtpdFailRx.find L = pureFtpdFailRx.find (proftpdTail user reason rest) := by
    rw [htext]
    exact find_startFree (startFree_proftpdHead_pure hP hH hA)
  rcases vsftpd_find (proftpdTail user reason rest) with ⟨hnone, hno⟩ | ⟨_, _, _, X, -, hX⟩
  · have hnot : ¬VsftpdAccuses (proftpdTail user reason rest) (cleanIP (String.ofList A)) :=
      fun h => hno _ h.2.choose_spec.1
    rcases pure_find (proftpdTail user reason rest) with ⟨hnone', hno'⟩ | ⟨_, X, _, -, hX⟩
    · obtain ⟨whole, name, hsome⟩ := find_proftpdHead rest hH hA huser hreason
      have hproftpd : proftpdFailRx.find L = some [whole, A, name] := by
        rw [← hsome, hL]
        exact find_startFree (startFree_of_not_mem hP.bracket)
      rw [parseFTP_proftpd re stamps (hfind.trans hnone) (hpure.trans hnone') hproftpd]
      refine iff_of_true (fun ev hev => ip_of_mem_authEvents stamps hev) ?_
      rintro (h | ⟨-, Y, hY, -⟩)
      · exact hnot h
      · exact hno' Y hY
    · rw [forall_parseFTP_pure re stamps (hfind.trans hnone) hpure hX, not_or]
      exact ⟨fun h => ⟨hnot, fun h' => h h'.2⟩, fun h h' => h.2 ⟨hno, h'⟩⟩
  · rw [forall_parseFTP_vsftpd re stamps hfind hcount hX, not_or]
    exact ⟨fun h => ⟨h, fun h' => h'.1 X hX⟩, fun h => h.1⟩

theorem namePart_nameText {user : Option (List Char)} (huser : ∀ name ∈ user, ∀ c ∈ name, dot c = true) :
    NamePart (nameText user) := by
  cases user with
  | none => exact .inl rfl
  | some name => exact .inr ⟨name, rfl, huser name rfl⟩

theorem parse_vsftpd {pid : List Char} {user password : Option (List Char)} (hA : AddressText A) (hpid : Digits pid)
    (hL : L = P ++ vsftpdText pid user password A) (huser : ∀ name ∈ user, ∀ c ∈ name, dot c = true) :
    ∀ ev ∈ parseFTP (serviceRegexp re) stamps (String.ofList L) svcKey, ev.ip = cleanIP (String.ofList A) := by
  have htext : VsftpdText L A := by
    refine ⟨P, pid, nameText user, "FAIL".toList, passwordText password, ?_, hpid, namePart_nameText huser, ?_, hA⟩
    · rw [hL, vsftpdText]
    · exact List.mem_cons_of_mem _ List.mem_cons_self
  refine (forall_parseFTP_vsftpd re stamps rfl rfl htext).mpr ?_
  rintro ⟨honce, X, hX, -, hne⟩
  have hunique := hX.unique honce (Y := A) (b := passwordText password)
    (p := P ++ ("[pid ".toList ++ (pid ++ ("] ".toList ++ (nameText user ++ "FAIL".toList)))))
    (by rw [hL, vsftpdText]; simp only [List.append_assoc]) (hA.not_mem (by decide))
  rw [hunique] at hne
  exact hne rfl

end ftp

/-! ## The lines of the mail daemons -/

section mail
variable (re : Regexp) (stamps : Nat → Stamp) {svcKey : String} {P A L s X : List Char} {address : String}

theorem find_dovecot : (serviceRegexp re).findStringSubmatch dovecotFailRe (String.ofList L) =
    (dovecotFailRx.find L).map (·.map String.ofList) := by
  rw [find_of_mem re _ dovecotFailRx.find (by simp [servicePatterns]), String.toList_ofList]

theorem find_postfix : (serviceRegexp re).findStringSubmatch postfixFailRe (String.ofList L) =
    (postfixFailRx.find L).map (·.map String.ofList) := by
  rw [find_of_mem re _ postfixFailRx.find (by simp [servicePatterns]), String.toList_ofList]

theorem forall_parseMail_dovecot (hfind : dovecotFailRx.find L = dovecotFailRx.find s)
    (hcount : countFrom ripMark 0 L = countFrom ripMark 0 s) (hX : DovecotText s X) :
    (∀ ev ∈ parseMail (serviceRegexp re) stamps (String.ofList L) svcKey, ev.ip = address) ↔
      ¬DovecotAccuses s address := by
  obtain ⟨-, hnone⟩ | ⟨whole, n, Y, hsome, hY⟩ := dovecot_find s
  · exact absurd hX (hnone X)
  · rw [parseMail, find_dovecot, hfind, hsome]
    simp only [Option.map_some, count_ofList]
    rw [show countFrom ", rip=".toList 0 L = countFrom ripMark 0 s from hcount]
    by_cases honce : countFrom ripMark 0 s = 1
    · rw [if_neg (not_not.mpr honce)]
      refine (forall_authEvents_iff stamps).trans (not_congr ?_)
      constructor
      · exact fun h => ⟨honce, Y, hY, h⟩
      · rintro ⟨-, Z, hZ, h⟩
        obtain ⟨a, n, e, b, z, htext, -, -, -, hYchars, hz⟩ := hY
        obtain rfl := hZ.unique honce (Y := Y) (z := z)
          (p := a ++ ("auth failed, ".toList ++ (n ++ (" attempt".toList ++ (e ++ b)))))
          (by rw [htext]; simp only [List.append_assoc]) hYchars hz
        exact h
    · rw [if_pos honce]
      exact iff_of_true (fun _ h => absurd h List.not_mem_nil) fun h => honce h.1

theorem parse_dovecot {login count middle user after rest : List Char} (hA : AddressText A) (hcount : Digits count)
    (hmiddle : middle.head? = some ' ') (hL : L = P ++ dovecotText login count middle user after rest A)
    (hdot : ∀ c ∈ L, dot c = true) :
    ∀ ev ∈ parseMail (serviceRegexp re) stamps (String.ofList L) svcKey, ev.ip = cleanIP (String.ofList A) := by
  obtain ⟨b, hb⟩ : ∃ b, b = middle ++ (": user=<".toList ++ (user ++ ('>' :: after))) := ⟨_, rfl⟩
  have hattempts : " attempts".toList = " attempt".toList ++ ['s'] := by decide
  have hline : L = (P ++ login) ++ ("auth failed, ".toList ++ (count ++ (" attempt".toList ++ (['s'] ++ (b ++
      (ripMark ++ (A ++ (", lip=".toList ++ rest)))))))) := by
    rw [hL, dovecotText, hattempts, hb]
    simp only [List.append_assoc, List.cons_append, List.nil_append]
  have hhead : (b ++ ripMark).head? = some ' ' := by
    obtain ⟨m, rfl⟩ := List.head?_eq_some_iff.mp hmiddle
    rw [hb]
    rfl
  have hbdot : ∀ c ∈ b, dot c = true := by
    intro c hc
    refine hdot c ?_
    rw [hline]
    simp only [List.mem_append]
    exact .inr (.inr (.inr (.inr (.inr (.inl hc)))))
  have htext : DovecotText L A := by
    refine ⟨P ++ login, count, ['s'], b, ", lip=".toList ++ rest, hline, hcount, .inl rfl, ⟨?_, hbdot⟩, hA, .inl rfl⟩
    rw [hhead]
    rintro c hc
    obtain rfl := Option.some.inj hc
    decide
  refine (forall_parseMail_dovecot re stamps rfl rfl htext).mpr ?_
  rintro ⟨honce, X, hX, -, hne⟩
  have hunique := hX.unique honce (Y := A) (z := ", lip=".toList ++ rest)
    (p := (P ++ login) ++ ("auth failed, ".toList ++ (count ++ (" attempt".toList ++ (['s'] ++ b)))))
    (by rw [hline]; simp only [List.append_assoc]) hA (.inl rfl)
  rw [hunique] at hne
  exact hne rfl

theorem startFree_syslog_mail {ph : List Char} (hP : LogPrefix P)
    (hph : ph ∈ ["auth failed, ".toList, ripMark, "warning: ".toList]) : StartFree ph P ('w' :: s) := by
  refine startFree_of_not_infix (hP.marks ph ?_) ?_
  · exact List.mem_cons_of_mem _ (List.mem_cons_of_mem _ hph)
  · simp only [List.mem_cons, List.not_mem_nil, or_false] at hph
    rcases hph with rfl | rfl | rfl <;> decide

theorem postfixHead_eq {H method reason : List Char} : postfixHead H method reason A =
    'w' :: ("arning: ".toList ++ (H ++ '[' :: (A ++ ("]: SASL ".toList ++ (method ++ (" authentication failed".toList ++
      (": ".toList ++ reason))))))) := by
  have hmark : "warning: ".toList = 'w' :: "arning: ".toList := by decide
  unfold postfixHead
  simp only [hmark, List.cons_append]

theorem comma_not_mem_postfixHead {H method reason : List Char} (hH : ∀ c ∈ H, clientChar c = true) (hA : AddressText A)
    (hmethod : ∀ c ∈ method, (wordChar c || c == '-') = true) (hreason : ',' ∉ reason) :
    ',' ∉ postfixHead H method reason A := by
  have hhost : ',' ∉ H := fun h => absurd (hH ',' h) (by decide)
  have haddress : ',' ∉ A := hA.not_mem (by decide)
  have hmethod : ',' ∉ method := fun h => absurd (hmethod ',' h) (by decide)
  unfold postfixHead
  simp only [List.mem_append, List.mem_cons, not_or]
  exact ⟨by decide, hhost, by decide, haddress, by decide, hmethod, by decide, by decide, hreason⟩

theorem find_dovecot_saslText {B : List Char} {user : Option (List Char)} (hP : LogPrefix P) (hB : ',' ∉ B)
    (hhead : B.head? = some 'w') :
    dovecotFailRx.find (P ++ B ++ saslText user) = dovecotFailRx.find (saslText user) := by
  have hclear {b : List Char} (hb : ',' ∉ b) : run dovecotFailRx (b ++ saslText user) = [] := by
    rw [List.eq_nil_iff_forall_not_mem]
    rintro ⟨c, v⟩ hmem
    obtain ⟨n, e, b', X, z, htext, hn, -⟩ := mem_run_dovecot.mp hmem
    have hmark : "auth failed, ".toList = "auth failed".toList ++ ',' :: [' '] := by decide
    simp only [hmark, List.append_assoc, List.cons_append] at htext
    cases user with
    | none =>
      unfold saslText at htext
      simp only [List.append_nil] at htext
      subst htext
      exact hb (List.mem_append_right _ List.mem_cons_self)
    | some name =>
      have hsasl : ", sasl_username=".toList = ',' :: " sasl_username=".toList := by decide
      unfold saslText at htext
      simp only [hsasl, List.cons_append] at htext
      obtain ⟨-, hrest⟩ := append_cons_inj hb (by decide) htext
      obtain ⟨x, n, rfl⟩ := List.exists_cons_of_ne_nil hn.1
      obtain rfl : 's' = x := (List.cons.inj (List.cons.inj hrest).2).1
      exact absurd (hn.2 's' List.mem_cons_self) (by decide)
  obtain ⟨B, rfl⟩ := List.head?_eq_some_iff.mp hhead
  refine find_append fun q₁ q₂ htext hne => ?_
  obtain ⟨d, -, hd⟩ | ⟨d, rfl, hd⟩ := List.append_eq_append_iff.mp htext
  · refine hclear fun hmem => hB ?_
    rw [hd]
    exact List.mem_append_right d hmem
  · cases d with
    | nil =>
      rw [hd]
      exact hclear hB
    | cons x d =>
      rw [List.eq_nil_iff_forall_not_mem]
      rintro ⟨c, v⟩ hmem
      obtain ⟨n, e, b, X, z, hrun, -⟩ := mem_run_dovecot.mp hmem
      rw [hd, List.append_assoc] at hrun
      exact startFree_syslog_mail hP List.mem_cons_self q₁ (x :: d) rfl (List.cons_ne_nil x d) ⟨_, hrun.symm⟩

theorem find_postfixHead {H method : List Char} (reason u : List Char) (hH : H ≠ [] ∧ ∀ c ∈ H, clientChar c = true)
    (hA : AddressText A) (hmethod : method ≠ [] ∧ ∀ c ∈ method, (wordChar c || c == '-') = true) :
    ∃ whole c, postfixFailRx.find (postfixHead H method reason A ++ u) = some (whole :: A :: c) := by
  have hhost : ∀ c ∈ H, hostChar c = true := fun c hc => hostChar_of_clientChar (hH.2 c hc)
  have hname : ∀ c ∈ H, (nonblank c && c != '[' && c != ']') = true := by
    intro c hc
    have h := hhost c hc
    simp only [hostChar, Bool.and_eq_true] at h ⊢
    exact ⟨⟨h.1.1.1.1, h.1.2⟩, h.2⟩
  have htext : postfixHead H method reason A ++ u = "warning: ".toList ++ (H ++ '[' :: (A ++
      ("]: SASL ".toList ++ (method ++ (" authentication failed".toList ++ (": ".toList ++
        (reason ++ u))))))) := by
    unfold postfixHead
    simp only [List.append_assoc, List.cons_append]
  have hstop : ∀ x ∈ (": ".toList ++ (reason ++ u)).head?, wordChar x = false := by
    rintro x hx
    obtain rfl : ':' = x := Option.some.inj hx
    decide
  have hmem : ([A, []], ": ".toList ++ (reason ++ u)) ∈ run postfixFailRx (postfixHead H method reason A ++ u) := by
    rw [htext]
    simp only [postfixFailRx, postfixSasl, mem_run_lit_seq, mem_run_some1_seq, mem_run_capture_some1_seq,
      mem_run_stop_seq, mem_run_opt]
    refine ⟨_, rfl, H, _, rfl, ⟨hH.1, hname⟩, _, rfl, A, _, [[]], rfl, hA, ?_, rfl⟩
    exact ⟨_, rfl, method, _, rfl, hmethod, _, rfl, hstop, .inr ⟨rfl, rfl⟩⟩
  obtain ⟨c, v, whole, hhead, hsome⟩ := find_of_run_ne_nil (List.ne_nil_of_mem hmem)
  rw [htext] at hhead
  obtain ⟨c', rfl⟩ := postfix_address (r := ": SASL ".toList ++ (method ++ (" authentication failed".toList ++
    (": ".toList ++ (reason ++ u))))) hhost (List.mem_of_head? hhead) hA
  exact ⟨whole, c', hsome⟩

theorem parse_smtpd_iff {H method reason : List Char} {user : Option (List Char)} (hP : LogPrefix P)
    (hH : H ≠ [] ∧ ∀ c ∈ H, clientChar c = true) (hA : AddressText A)
    (hmethod : method ≠ [] ∧ ∀ c ∈ method, (wordChar c || c == '-') = true) (hreason : ',' ∉ reason)
    (hL : L = P ++ (postfixHead H method reason A ++ saslText user)) :
    (∀ ev ∈ parseMail (serviceRegexp re) stamps (String.ofList L) svcKey, ev.ip = cleanIP (String.ofList A)) ↔
      ¬DovecotAccuses (saslText user) (cleanIP (String.ofList A)) := by
  have hcomma := comma_not_mem_postfixHead hH.2 hA hmethod.2 hreason
  have hhead : (postfixHead H method reason A).head? = some 'w' := by rw [postfixHead_eq, List.head?_cons]
  have hfind : dovecotFailRx.find L = dovecotFailRx.find (saslText user) := by
    rw [hL, ← List.append_assoc]
    exact find_dovecot_saslText hP hcomma hhead
  have hcount : countFrom ripMark 0 L = countFrom ripMark 0 (saslText user) := by
    obtain ⟨B, hB⟩ := List.head?_eq_some_iff.mp hhead
    rw [hL, countFrom_startFree, countFrom_startFree]
    · exact startFree_of_not_mem hcomma
    · rw [hB]
      exact startFree_syslog_mail hP (List.mem_cons_of_mem _ List.mem_cons_self)
  rcases dovecot_find (saslText user) with ⟨hnone, hno⟩ | ⟨_, _, X, -, hX⟩
  · refine iff_of_true ?_ fun h => hno _ h.2.choose_spec.1
    obtain ⟨whole, c, hsome⟩ := find_postfixHead reason (saslText user) hH hA hmethod
    have hpostfix : postfixFailRx.find L = some (whole :: A :: c) := by
      rw [← hsome, hL]
      obtain ⟨B, hB⟩ := List.head?_eq_some_iff.mp hhead
      rw [hB]
      exact find_startFree (startFree_syslog_mail hP (List.mem_cons_of_mem _ (List.mem_cons_of_mem _ List.mem_cons_self)))
    rw [parseMail, find_dovecot, find_postfix, hfind, hnone, hpostfix]
    simp only [Option.map_none, Option.map_some]
    intro ev hev
    split at hev
    · exact absurd hev List.not_mem_nil
    · exact ip_of_mem_authEvents stamps hev
  · exact forall_parseMail_dovecot re stamps hfind hcount hX

end mail

/-! ## Every line -/

theorem addressChar_of_isDigit {c : Char} (h : isDigit 16 c = true) : addressChar c = true := by
  obtain ⟨d, hd, -⟩ := isDigit_iff.mp h
  simp only [addressChar, digit, Bool.or_eq_true, Bool.and_eq_true, decide_eq_true_eq]
  rw [digitVal] at hd
  split at hd
  · rename_i hc
    simp [hc]
  · split at hd
    · rename_i hc
      simp [hc]
    · split at hd
      · rename_i hc
        simp [hc]
      · contradiction

theorem addressText_of_parseAddr {A : List Char} (hA : (parseAddr A).isSome = true) : AddressText A := by
  obtain ⟨a, ha⟩ := Option.isSome_iff_exists.mp hA
  constructor
  · rintro rfl
    rw [parseAddr_nil] at hA
    contradiction
  · intro c hc
    rcases (parseAddr_spec ha).1 c hc with rfl | rfl | h
    · decide
    · decide
    · exact addressChar_of_isDigit h

/-- The line of a failed login accuses no third party, except when what the client writes imitates the line of a daemon
that is tried before. -/
theorem parse_login_iff (re : Regexp) (stamps : Nat → Stamp) (svcKey : String) (syslog A : List Char) (d : LoginLine)
    (hsyslog : LogPrefix syslog) (hd : d.Logged) (hA : (parseAddr A).isSome = true)
    (hline : ∀ c ∈ syslog ++ d.text A, dot c = true) :
    (∀ ev ∈ d.parse re stamps svcKey (syslog ++ d.text A), ev.ip = cleanIP (String.ofList A)) ↔
      ¬d.Imitates (cleanIP (String.ofList A)) := by
  have hA := addressText_of_parseAddr hA
  cases d with
  | vsftpd pid user password =>
    refine iff_of_true (parse_vsftpd re stamps hA hd rfl ?_) id
    rintro name rfl c hc
    refine hline c (List.mem_append_right syslog ?_)
    simp only [LoginLine.text, vsftpdText, nameText, List.mem_append, List.mem_cons]
    exact .inr (.inr (.inr (.inl (.inr (.inl hc)))))
  | pureFtpd user =>
    refine parse_pureFtpd_iff re stamps svcKey hsyslog hA rfl fun c hc => hline c (List.mem_append_right syslog ?_)
    simp only [LoginLine.text, pureTail, List.mem_append, List.mem_cons]
    exact .inr (.inr (.inl hc))
  | proftpd host user reason rest =>
    refine parse_proftpd_iff re stamps hsyslog hd.1 hA hd.2 rfl fun c hc => hline c (List.mem_append_right syslog ?_)
    simp only [LoginLine.text, proftpdTail, List.mem_append, List.mem_cons]
    exact .inr (.inr (.inl hc))
  | dovecot login count middle user after rest =>
    exact iff_of_true (parse_dovecot re stamps hA hd.1 hd.2 rfl hline) id
  | smtpd host method reason user => exact parse_smtpd_iff re stamps hsyslog hd.1 hA hd.2.1 hd.2.2 rfl

theorem not_infix_of_countFrom {sub s : List Char} (hsub : sub ≠ []) (h : countFrom sub 0 s = 0) : ¬sub <:+: s := by
  rintro ⟨a, b, rfl⟩
  have hpos := countFrom_pos (a := a) (b := b) hsub (Nat.zero_le _)
  rw [List.append_assoc] at h
  omega

def ftpSyslog : List Char := "Jan  2 03:04:05 ftp pure-ftpd: ".toList

theorem logPrefix_ftpSyslog : LogPrefix ftpSyslog := by
  refine ⟨by decide, fun ph hph => not_infix_of_countFrom ?_ ?_⟩
  · revert ph
    decide
  · revert ph
    decide

/-- A failed login of `root` is of the address that made it. -/
theorem parse_login_iff_root : (∀ ev ∈ (LoginLine.pureFtpd "root".toList).parse
      ⟨fun _ _ => none, fun _ _ => none, fun _ => none⟩ (fun _ => ⟨"", ""⟩) "ftp"
        (ftpSyslog ++ (LoginLine.pureFtpd "root".toList).text "192.0.2.7".toList),
      ev.ip = cleanIP (String.ofList "192.0.2.7".toList)) ↔
    ¬(LoginLine.pureFtpd "root".toList).Imitates (cleanIP (String.ofList "192.0.2.7".toList)) := by
  have hline : (ftpSyslog ++ (LoginLine.pureFtpd "root".toList).text "192.0.2.7".toList).all dot = true := by decide
  exact parse_login_iff ⟨fun _ _ => none, fun _ _ => none, fun _ => none⟩ (fun _ => ⟨"", ""⟩) "ftp" ftpSyslog
    "192.0.2.7".toList (.pureFtpd "root".toList) logPrefix_ftpSyslog trivial (by decide) (List.all_eq_true.mp hline)

/-- A user name that reads as a login of vsftpd. -/
def vsftpdUser : List Char := "pid 1] FAIL LOGIN: Client \"198.51.100.66\"".toList

theorem cleanIP_stranger : cleanIP (String.ofList "198.51.100.66".toList) = "198.51.100.66" := rfl

theorem cleanIP_client : cleanIP (String.ofList "192.0.2.7".toList) = "192.0.2.7" := rfl

theorem vsftpdAccuses_vsftpdUser : VsftpdAccuses (pureTail vsftpdUser) "192.0.2.7" := by
  have hstranger : AddressText "198.51.100.66".toList := addressText_of_parseAddr (by decide)
  have htext : VsftpdText (pureTail vsftpdUser) "198.51.100.66".toList := by
    have hpid : Digits ['1'] := ⟨by decide, List.all_eq_true.mp (by decide)⟩
    refine ⟨" ".toList, ['1'], [], "FAIL".toList, [']'], by decide, hpid, .inl rfl, ?_, hstranger⟩
    exact List.mem_cons_of_mem _ List.mem_cons_self
  refine ⟨by decide, "198.51.100.66".toList, htext, ?_⟩
  rw [cleanIP_stranger]
  decide

/-- The login of that user from one address is a failure of another. -/
theorem pureFtpd_accuses_stranger : ¬∀ ev ∈ (LoginLine.pureFtpd vsftpdUser).parse
    ⟨fun _ _ => none, fun _ _ => none, fun _ => none⟩ (fun _ => ⟨"", ""⟩) "ftp"
      (ftpSyslog ++ (LoginLine.pureFtpd vsftpdUser).text "192.0.2.7".toList),
    ev.ip = cleanIP (String.ofList "192.0.2.7".toList) := by
  have hA : AddressText "192.0.2.7".toList := addressText_of_parseAddr (by decide)
  have huser : vsftpdUser.all dot = true := by decide
  have hiff := parse_pureFtpd_iff ⟨fun _ _ => none, fun _ _ => none, fun _ => none⟩ (fun _ => ⟨"", ""⟩) "ftp"
    logPrefix_ftpSyslog hA rfl (List.all_eq_true.mp huser)
  rw [cleanIP_client] at hiff ⊢
  exact fun h => hiff.mp h vsftpdAccuses_vsftpdUser

end Obliguard.Agent
