import Obliguard.Agent.ServicePatterns

/-!
# Whom a line of RDP, MySQL, Apache or nginx accuses

The failure lines of these services through `RDPParser`, `MySQLParser` and `parseHTTPAuthLine`. The address stands
before every text of the client, or it is the last one of the line, or the line has the mark before it once: whatever
the client writes, the events are of its own address (`forall_parse_ip`).
-/

namespace Obliguard.Agent

open AddrText Numeral Rx Text

/-! ## Texts -/

/-- A text without blanks that is not empty. -/
def Word (x : List Char) : Prop := x ≠ [] ∧ ∀ c ∈ x, nonblank c = true

def Digits (n : List Char) : Prop := n ≠ [] ∧ ∀ c ∈ n, digit c = true

theorem nonblank_of_digit {c : Char} (h : digit c = true) : nonblank c = true := by
  rw [nonblank, Bool.not_eq_true', Bool.eq_false_iff]
  intro hblank
  rw [blank, Bool.or_eq_true, Bool.or_eq_true, Bool.or_eq_true, Bool.or_eq_true] at hblank
  simp only [beq_iff_eq] at hblank
  rcases hblank with (((rfl | rfl) | rfl) | rfl) | rfl <;> exact absurd h (by decide)

theorem Digits.word {n : List Char} (h : Digits n) : Word n := ⟨h.1, fun c hc => nonblank_of_digit (h.2 c hc)⟩

theorem Word.not_mem {x : List Char} (h : Word x) : ' ' ∉ x := fun hmem => absurd (h.2 ' ' hmem) (by decide)

section texts
variable {p : Char → Bool} {x y u v : List Char}

theorem eq_nil_of_append_blanks (hne : u ≠ []) (hu : ∀ c ∈ u, p c = false) (hv : ∀ c ∈ v, p c = true)
    (h : x ++ u = y ++ v) : v = [] := by
  rcases List.eq_nil_or_concat v with rfl | ⟨v', b, rfl⟩
  · rfl
  · obtain ⟨u', a, rfl⟩ := (List.eq_nil_or_concat u).resolve_left hne
    rw [List.concat_eq_append, List.concat_eq_append, ← List.append_assoc, ← List.append_assoc] at h
    obtain ⟨-, hab⟩ := List.append_inj' h rfl
    obtain rfl := List.singleton_inj.mp hab
    have ha := hu a (by simp)
    rw [hv a (by simp)] at ha
    contradiction

end texts

/-! ## `strings.Count` -/

section count
variable {sub s a b a' b' : List Char}

theorem countFrom_pos (hsub : sub ≠ []) {k : Nat} (hk : k ≤ a.length) : 0 < countFrom sub k (a ++ (sub ++ b)) := by
  induction a generalizing k with
  | nil =>
    obtain rfl : k = 0 := by simpa using hk
    obtain ⟨c, t, rfl⟩ := List.exists_cons_of_ne_nil hsub
    rw [List.nil_append, List.cons_append, countFrom, if_pos]
    · omega
    · exact List.isPrefixOf_iff_prefix.mpr (List.prefix_append (c :: t) b)
  | cons c a ih =>
    rw [List.cons_append]
    cases k with
    | zero =>
      rw [countFrom]
      split
      · omega
      · exact ih (Nat.zero_le _)
    | succ k =>
      rw [countFrom]
      exact ih (by simpa using hk)

theorem two_le_countFrom (hsub : sub ≠ []) {d : List Char} :
    2 ≤ countFrom sub 0 (a ++ (sub ++ (d ++ (sub ++ b)))) := by
  obtain ⟨c, t, rfl⟩ := List.exists_cons_of_ne_nil hsub
  induction a with
  | nil =>
    have hrest : 0 < countFrom (c :: t) t.length (t ++ d ++ (c :: t ++ b)) := countFrom_pos hsub (by simp)
    rw [List.append_assoc] at hrest
    rw [List.nil_append, List.cons_append, countFrom, if_pos, List.length_cons, Nat.add_sub_cancel]
    · omega
    · exact List.isPrefixOf_iff_prefix.mpr (List.prefix_append (c :: t) _)
  | cons x a ih =>
    rw [List.cons_append, countFrom]
    split
    · have hrest : 0 < countFrom (c :: t) ((c :: t).length - 1) (a ++ (c :: t) ++ d ++ (c :: t ++ b)) :=
        countFrom_pos hsub (by simp only [List.length_append, List.length_cons]; omega)
      simp only [List.append_assoc] at hrest
      omega
    · exact ih

/-- No end of the text is a start of it. -/
def unbordered (sub : List Char) : Bool :=
  (List.range sub.length).all fun k => k == 0 || !(sub.drop k).isPrefixOf sub

theorem disjoint_of_unbordered (hsub : unbordered sub = true) {d : List Char} (hd : d ≠ [])
    (h : sub ++ b = d ++ (sub ++ b')) : ∃ e, b = e ++ (sub ++ b') := by
  obtain ⟨e, -, hb⟩ | ⟨e, rfl, he⟩ := List.append_eq_append_iff.mp h
  · exact ⟨e, hb⟩
  · cases e with
    | nil => exact ⟨[], by simpa using he.symm⟩
    | cons c e =>
      have hlt : d.length < (d ++ c :: e).length := by simp
      have hk := List.all_eq_true.mp hsub d.length (List.mem_range.mpr hlt)
      have hpos : d.length ≠ 0 := fun h => hd (List.eq_nil_of_length_eq_zero h)
      have hsplit : c :: e <+: d ++ c :: e := by
        refine List.prefix_of_prefix_length_le (List.prefix_append (c :: e) b) ⟨b', ?_⟩ (by simp)
        exact he
      rw [List.drop_left, List.isPrefixOf_iff_prefix.mpr hsplit] at hk
      simp [hpos] at hk

theorem append_inj_of_count (sub : List Char) (hne : sub ≠ []) (hsub : unbordered sub = true)
    (hcount : countFrom sub 0 (a ++ (sub ++ b)) = 1) (h : a ++ (sub ++ b) = a' ++ (sub ++ b')) : a = a' ∧ b = b' := by
  obtain ⟨d, rfl, hd⟩ | ⟨d, rfl, hd⟩ := List.append_eq_append_iff.mp h
  · cases d with
    | nil => exact ⟨(List.append_nil a).symm, List.append_cancel_left hd⟩
    | cons c d =>
      obtain ⟨e, rfl⟩ := disjoint_of_unbordered hsub (List.cons_ne_nil c d) hd
      have htwo := two_le_countFrom (a := a) (b := b') (d := e) hne
      omega
  · cases d with
    | nil => exact ⟨List.append_nil a', (List.append_cancel_left hd).symm⟩
    | cons c d =>
      obtain ⟨e, rfl⟩ := disjoint_of_unbordered hsub (List.cons_ne_nil c d) hd
      have htwo := two_le_countFrom (a := a') (b := b) (d := e) hne
      rw [h] at hcount
      omega

end count

/-! ## Addresses -/

/-- A character of a zone. -/
def zoneChar (c : Char) : Bool := c.isAlphanum || c == '.' || c == '-' || c == '_'

/-- An address as a service writes it, perhaps with a zone. -/
structure ClientAddr (A : List Char) : Prop where
  split : ∃ host zone, A = host ++ zone ∧ (parseAddr host).isSome = true ∧
    (zone = [] ∨ ∃ z, zone = '%' :: z ∧ ∀ c ∈ z, zoneChar c = true)

/-- A character of an address or its zone. -/
def clientChar (c : Char) : Bool := zoneChar c || c == ':' || c == '%'

theorem clientChar_of_digit {c : Char} (h : digit c = true) : clientChar c = true := by
  have halphanum : c.isAlphanum = true := by
    simp only [digit, Bool.and_eq_true, decide_eq_true_eq] at h
    delta Char.isAlphanum Char.isAlpha Char.isUpper Char.isLower Char.isDigit
    simp only [Bool.or_eq_true, Bool.and_eq_true, decide_eq_true_eq, ge_iff_le]
    exact .inr h
  simp [clientChar, zoneChar, halphanum]

theorem isDigit_of_digit {c : Char} (h : digit c = true) : isDigit 10 c = true := by
  simp only [digit, Bool.and_eq_true, decide_eq_true_eq] at h
  have hle : c.toNat ≤ 57 := h.2
  rw [isDigit, digitVal, if_pos h, Option.any_some, decide_eq_true_eq]
  omega

theorem clientChar_of_isAddrChar {c : Char} (h : IsAddrChar c) : clientChar c = true := by
  rcases h with rfl | rfl | h
  · decide
  · decide
  · simp [clientChar, zoneChar, isAlphanum_of_isDigit h]

theorem clientChar_lt {c : Char} (h : clientChar c = true) : 0x20 < c.toNat ∧ c.toNat < 0x80 := by
  simp only [clientChar, zoneChar, Bool.or_eq_true, beq_iff_eq] at h
  rcases h with ((((h | rfl) | rfl) | rfl) | rfl) | rfl
  · delta Char.isAlphanum Char.isAlpha Char.isUpper Char.isLower Char.isDigit at h
    simp only [Bool.or_eq_true, Bool.and_eq_true, decide_eq_true_eq, ge_iff_le, UInt32.le_iff_toNat_le] at h
    have hc : c.val.toNat = c.toNat := rfl
    have hA : 'A'.val.toNat = 65 ∧ 'Z'.val.toNat = 90 := ⟨rfl, rfl⟩
    have ha : 'a'.val.toNat = 97 ∧ 'z'.val.toNat = 122 := ⟨rfl, rfl⟩
    have h0 : '0'.val.toNat = 48 ∧ '9'.val.toNat = 57 := ⟨rfl, rfl⟩
    omega
  all_goals decide

theorem space_of_clientChar {c : Char} (h : clientChar c = true) :
    isGoSpace c = false ∧ isJsSpace c = false ∧ nonblank c = true := by
  have hlt := clientChar_lt h
  have hshared : sharedSpace c.toNat = false := by
    simp only [sharedSpace, Bool.or_eq_false_iff, Bool.and_eq_false_iff, decide_eq_false_iff_not, beq_eq_false_iff_ne]
    omega
  have hne {d : Char} (hd : d.toNat ≤ 0x20) : c ≠ d := by
    rintro rfl
    omega
  refine ⟨?_, ?_, ?_⟩
  · rw [isGoSpace, hshared, Bool.false_or, beq_eq_false_iff_ne]
    omega
  · rw [isJsSpace, hshared, Bool.false_or, beq_eq_false_iff_ne]
    omega
  · simp only [nonblank, blank, Bool.not_eq_true', Bool.or_eq_false_iff, beq_eq_false_iff_ne]
    exact ⟨⟨⟨⟨hne (by decide), hne (by decide)⟩, hne (by decide)⟩, hne (by decide)⟩, hne (by decide)⟩

theorem parseV6_of_single_colon {x y : List Char} (hx : ':' ∉ x) (hy : ':' ∉ y) : parseV6 (x ++ ':' :: y) = none := by
  rw [parseV6]
  split
  · rw [Option.bind_eq_none_iff]
    intro gs hgs
    have hsplit : (x ++ ':' :: y).splitOn ':' = [x, y] := by
      rw [List.splitOn_append_cons_self_of_not_mem hx, List.splitOn_eq_singleton hy]
    rw [fields, if_neg (by simp), hsplit, fieldList, Option.bind_eq_some_iff] at hgs
    obtain ⟨g, -, hgs⟩ := hgs
    obtain ⟨gs', hgs', rfl⟩ := Option.map_eq_some_iff.mp hgs
    have hlength := (lastField_spec hgs').2.2
    rw [if_neg]
    rw [List.length_cons]
    omega
  · rename_i l r hdouble
    have htext := splitDouble_eq_some hdouble
    have hcount := congrArg (List.count ':') htext
    simp [List.count_append, List.count_eq_zero_of_not_mem hx, List.count_eq_zero_of_not_mem hy] at hcount
    omega

namespace ClientAddr
variable {A x n : List Char}

theorem client (hA : ClientAddr A) : ∀ c ∈ A, clientChar c = true := by
  obtain ⟨host, zone, rfl, hhost, hzone⟩ := hA.split
  obtain ⟨a, ha⟩ := Option.isSome_iff_exists.mp hhost
  rw [List.forall_mem_append]
  refine ⟨fun c hc => clientChar_of_isAddrChar ((parseAddr_spec ha).1 c hc), ?_⟩
  rcases hzone with rfl | ⟨z, rfl, hz⟩
  · exact fun c hc => absurd hc List.not_mem_nil
  · refine List.forall_mem_cons.mpr ⟨by decide, fun c hc => ?_⟩
    simp [clientChar, hz c hc]

theorem not_mem (hA : ClientAddr A) {c : Char} (hc : clientChar c = false) : c ∉ A := by
  intro hmem
  rw [hA.client c hmem] at hc
  contradiction

theorem ne_nil (hA : ClientAddr A) : A ≠ [] := by
  obtain ⟨host, zone, rfl, hhost, -⟩ := hA.split
  intro h
  rw [(List.append_eq_nil_iff.mp h).1, parseAddr_nil] at hhost
  contradiction

theorem not_single_colon (hA : ClientAddr A) (hx : ':' ∉ x) (hn : Digits n) : A ≠ x ++ ':' :: n := by
  rintro rfl
  obtain ⟨host, zone, htext, hhost, hzone⟩ := hA.split
  have hn' : ':' ∉ n := fun h => absurd (hn.2 ':' h) (by decide)
  rcases hzone with rfl | ⟨z, rfl, hz⟩
  · rw [List.append_nil] at htext
    obtain ⟨a, ha⟩ := Option.isSome_iff_exists.mp hhost
    rw [← htext, parseAddr_eq_some] at ha
    cases hf : a.family with
    | v4 =>
      rw [hf] at ha
      have hcolon := parseV4_chars ha ':' (List.mem_append_right x List.mem_cons_self)
      exact absurd hcolon (by decide)
    | v6 =>
      rw [hf, parseV6_of_single_colon hx hn'] at ha
      contradiction
  · -- the zone has no colon, and the number has no `%`
    have hz' : ':' ∉ z := fun h => absurd (hz ':' h) (by decide)
    have hpercent : '%' ∉ n := fun h => absurd (hn.2 '%' h) (by decide)
    obtain ⟨d, rfl, htail⟩ | ⟨d, rfl, htail⟩ := List.append_eq_append_iff.mp htext
    · cases d with
      | nil => exact absurd (List.cons.inj htail).1 (by decide)
      | cons c d => exact hpercent ((List.cons.inj htail).2 ▸ List.mem_append_right d List.mem_cons_self)
    · cases d with
      | nil => exact absurd (List.cons.inj htail).1 (by decide)
      | cons c d => exact hz' ((List.cons.inj htail).2 ▸ List.mem_append_right d List.mem_cons_self)

theorem word (hA : ClientAddr A) : Word A :=
  ⟨hA.ne_nil, fun c hc => (space_of_clientChar (hA.client c hc)).2.2⟩

theorem cleanIP_eq {host zone : List Char} {a : Addr} (ha : parseAddr host = some a)
    (hzone : zone = [] ∨ ∃ z, zone = '%' :: z ∧ ∀ c ∈ z, zoneChar c = true) :
    cleanIP (String.ofList (host ++ zone)) = String.ofList (unmap a).text := by
  have hA : ClientAddr (host ++ zone) := ⟨host, zone, rfl, by rw [ha]; rfl, hzone⟩
  have hhead : (host ++ zone).head? ≠ some '[' :=
    fun h => hA.not_mem (c := '[') (by decide) (List.mem_of_head? h)
  have hlast : (host ++ zone).getLast? ≠ some ']' :=
    fun h => hA.not_mem (c := ']') (by decide) (List.mem_of_getLast? h)
  have hpercent : ∀ c ∈ host, decide (c ≠ '%') = true := by
    intro c hc
    rw [decide_eq_true_eq]
    rintro rfl
    exact not_isAddrChar (.inr rfl) ((parseAddr_spec ha).1 '%' hc)
  have htake : (host ++ zone).takeWhile (fun c => decide (c ≠ '%')) = host := by
    rw [List.takeWhile_append_of_pos hpercent]
    rcases hzone with rfl | ⟨z, rfl, -⟩ <;> simp
  simp only [cleanIP, String.toList_ofList, goTrim,
    trimBy_eq_self fun c hc => (space_of_clientChar (hA.client c hc)).1, hhead, hlast, if_false, htake, ha]

theorem exists_cleanIP (hA : ClientAddr A) : ∃ a : Addr, cleanIP (String.ofList A) = String.ofList (unmap a).text := by
  obtain ⟨host, zone, rfl, hhost, hzone⟩ := hA.split
  obtain ⟨a, ha⟩ := Option.isSome_iff_exists.mp hhost
  exact ⟨a, cleanIP_eq ha hzone⟩

theorem cleanIP_ne (hA : ClientAddr A) : cleanIP (String.ofList A) ≠ "" := by
  obtain ⟨a, ha⟩ := hA.exists_cleanIP
  rw [ha]
  intro h
  have hnil : (unmap a).text = [] := by simpa using congrArg String.toList h
  have hparse := parseAddr_text (unmap a)
  rw [hnil, parseAddr_nil] at hparse
  contradiction

end ClientAddr

theorem unmap_unmap (a : Addr) : unmap (unmap a) = unmap a := by
  by_cases h : is4In6 a = true
  · have hv4 : is4In6 (unmap a) = false := by
      rw [unmap, if_pos h]
      rfl
    exact if_neg (by rw [hv4]; decide)
  · have hself : unmap a = a := if_neg h
    rw [hself, hself]

/-! ## Lines -/

/-- What Apache writes before the message, `2.4` with the port of the client and the number of the message. -/
inductive ApacheClient
  | v22
  | v24 (port number : List Char)

/-- A failure that a service logs. The texts of the client are any. -/
inductive ServiceLine
  /-- `EventID:4625 Account Name: USER Source Network Address: A`. -/
  | rdp (before user : List Char)
  /-- `Access denied for user 'USER'@'A' (using password: YES)`. -/
  | mysql (before user : List Char) (password : Bool)
  /-- `[TIME] [FIELD] ... [client A:PORT] AHNUMBER: user USERREASON...`. -/
  | apacheError (time : List Char) (fields : List (List Char)) (client : ApacheClient) (user reason rest : List Char)
  /-- `DATE ... user "USER"REASON, client: A, server: ...`. -/
  | nginxError (date head user reason rest : List Char)
  /-- `[VHOST:PORT ]A IDENT USER [TIME] "REQUEST" STATUS ...`. -/
  | access (vhost : Option (List Char × List Char)) (ident user time request rest : List Char)

/-- The field `client` without its brackets. -/
def ApacheClient.field (A : List Char) : ApacheClient → List Char
  | v22 => A
  | v24 port _ => A ++ ':' :: port

def ApacheClient.code : ApacheClient → List Char
  | v22 => []
  | v24 _ number => "AH".toList ++ (number ++ ": ".toList)

def bracketText (field : List Char) : List Char := '[' :: (field ++ "] ".toList)

def rdpText (before user A : List Char) : List Char :=
  before ++ ("EventID:4625 Account Name: ".toList ++ (user ++ (" Source Network Address: ".toList ++ A)))

def passwordWord (password : Bool) : List Char := if password then "YES".toList else "NO".toList

/-- `'@'A' (using password: YES)`. -/
def mysqlEnd (A w : List Char) : List Char :=
  "'@'".toList ++ (A ++ ("' (using password: ".toList ++ (w ++ [')'])))

def mysqlText (before user : List Char) (password : Bool) (A : List Char) : List Char :=
  before ++ ("Access denied for user '".toList ++ (user ++ mysqlEnd A (passwordWord password)))

def apacheText (time : List Char) (fields : List (List Char)) (client : ApacheClient) (user reason rest A : List Char) :
    List Char :=
  bracketText time ++ (fields.flatMap bracketText ++ ("[client ".toList ++ (client.field A ++ ("] ".toList ++
    (client.code ++ ("user ".toList ++ (user ++ (reason ++ rest))))))))

def nginxText (date head user reason rest A : List Char) : List Char :=
  date ++ ' ' :: (head ++ (" user \"".toList ++ (user ++ ('"' :: (reason ++ (", client: ".toList ++ (A ++
    (", server: ".toList ++ rest))))))))

def vhostText : Option (List Char × List Char) → List Char
  | none => []
  | some (host, port) => host ++ ':' :: (port ++ [' '])

def accessText (vhost : Option (List Char × List Char)) (ident user time request rest A : List Char) : List Char :=
  vhostText vhost ++ (A ++ ' ' :: (ident ++ ' ' :: (user ++ (" [".toList ++ (time ++ ("] \"".toList ++ (request ++
    ("\" ".toList ++ rest))))))))

def ServiceLine.text (A : List Char) : ServiceLine → List Char
  | rdp before user => rdpText before user A
  | mysql before user password => mysqlText before user password A
  | apacheError time fields client user reason rest => apacheText time fields client user reason rest A
  | nginxError date head user reason rest => nginxText date head user reason rest A
  | access vhost ident user time request rest => accessText vhost ident user time request rest A

/-- A date as `2024/01/15`. -/
def SlashDate (date : List Char) : Prop :=
  ∃ y m d, date = y ++ '/' :: (m ++ '/' :: d) ∧ Digits y ∧ Digits m ∧ Digits d

/-- A field that Apache writes before that of the client. -/
def HeaderField (field : List Char) : Prop := ']' ∉ field ∧ ¬"client ".toList <+: field

def ApacheClient.Logged : ApacheClient → Prop
  | v22 => True
  | v24 port number => Digits port ∧ port.length ≤ 5 ∧ Digits number

/-- What the service itself writes. -/
def ServiceLine.Logged : ServiceLine → Prop
  | rdp _ _ => True
  | mysql _ _ _ => True
  | apacheError time fields client _ reason _ =>
    ']' ∉ time ∧ (∀ field ∈ fields, HeaderField field) ∧ client.Logged ∧ reason ∈ apacheReasons
  | nginxError date _ _ _ _ => SlashDate date
  | access vhost _ _ _ _ _ =>
    ∀ h ∈ vhost, (h.1 ≠ [] ∧ ∀ c ∈ h.1, zoneChar c = true) ∧ Digits h.2

/-- The events that the parser of the service makes of a line. -/
def ServiceLine.parse (re : Regexp) (stamps : Nat → Stamp) (svcKey : String) (line : List Char) :
    ServiceLine → List AgentIpEvent
  | rdp _ _ => parseRDP (serviceRegexp re) stamps (String.ofList line) svcKey
  | mysql _ _ _ => parseMySQL (serviceRegexp re) stamps (String.ofList line) svcKey
  | apacheError _ _ _ _ _ _ => parseHTTPAuthLine (serviceRegexp re) stamps (String.ofList line) svcKey
  | nginxError _ _ _ _ _ => parseHTTPAuthLine (serviceRegexp re) stamps (String.ofList line) svcKey
  | access _ _ _ _ _ _ => parseHTTPAuthLine (serviceRegexp re) stamps (String.ofList line) svcKey

theorem ClientAddr.cleanIP_cleanIP {A : List Char} (hA : ClientAddr A) :
    cleanIP (cleanIP (String.ofList A)) = cleanIP (String.ofList A) := by
  obtain ⟨a, ha⟩ := hA.exists_cleanIP
  have htext := cleanIP_eq (parseAddr_text (unmap a)) (.inl rfl)
  rw [List.append_nil, unmap_unmap] at htext
  rw [ha, htext]

section parse
variable (re : Regexp) (stamps : Nat → Stamp) {svcKey : String} {A s t v line : List Char} {c : List (List Char)}
  {ev : AgentIpEvent}

theorem ip_of_mem_authEvents {n : Nat} {ip username eventType raw : String}
    (h : ev ∈ authEvents stamps n ip username svcKey eventType raw) : ev.ip = cleanIP ip := by
  rw [authEvents] at h
  split at h
  · exact absurd h List.not_mem_nil
  · obtain ⟨i, -, rfl⟩ := List.mem_map.mp h
    rfl

theorem forall_authEvents_iff {n : Nat} {ip username eventType raw address : String} :
    (∀ ev ∈ authEvents stamps n ip username svcKey eventType raw, ev.ip = address) ↔
      ¬(cleanIP ip ≠ "" ∧ cleanIP ip ≠ address) := by
  rw [authEvents]
  split
  next h => simp [h]
  next h =>
    have hlength : 0 < min (max n 1) maxRepeatEvents := by
      rw [maxRepeatEvents]
      omega
    constructor
    · rintro hall ⟨-, hne⟩
      exact hne (hall _ (List.mem_map_of_mem (List.mem_range.mpr hlength)))
    · intro hnot ev hev
      obtain ⟨i, -, rfl⟩ := List.mem_map.mp hev
      exact not_not.mp fun hne => hnot ⟨h, hne⟩

/-! ## RDP -/

theorem Word.blank {x : List Char} (hx : Word x) : ∀ c ∈ x, Rx.blank c = false := by
  simpa only [nonblank, Bool.not_eq_true'] using hx.2

theorem blank_of_spaceTab {c : Char} (h : spaceTab c = true) : Rx.blank c = true := by
  simp only [spaceTab, Bool.or_eq_true, beq_iff_eq] at h
  rcases h with rfl | rfl <;> decide

theorem rdp_last_word {X P r e : List Char} (hA : Word A) (hX : Word X) (hr : ∀ c ∈ r, spaceTab c = true)
    (he : ∀ c ∈ e, Rx.blank c = true)
    (h : s ++ (" Source Network Address: ".toList ++ A) = P ++ ("Source Network Address:".toList ++ (r ++ (X ++ e)))) :
    X = A := by
  obtain rfl : e = [] := by
    refine eq_nil_of_append_blanks (x := s ++ " Source Network Address: ".toList)
      (y := P ++ ("Source Network Address:".toList ++ (r ++ X))) hA.1 hA.blank he ?_
    simpa only [List.append_assoc] using h
  have htext : (s ++ " Source Network Address:".toList) ++ ' ' :: A =
      P ++ ("Source Network Address:".toList ++ (r ++ X)) := by
    rw [List.append_nil] at h
    rw [← h, List.append_assoc]
    rfl
  rcases List.eq_nil_or_concat r with rfl | ⟨r, b, rfl⟩
  · -- the mark would be a part of the last word
    have hmark : P ++ ("Source Network Address:".toList ++ ([] ++ X)) =
        (P ++ "Source Network".toList) ++ ' ' :: ("Address:".toList ++ X) := by
      rw [List.append_assoc]
      rfl
    have hword : Word "Address:".toList := ⟨by decide, List.all_eq_true.mp (by decide)⟩
    obtain ⟨hlast, -⟩ := append_last_inj (p := Rx.blank) hA.blank
      (List.forall_mem_append.mpr ⟨hword.blank, hX.blank⟩) (by decide) (by decide) (htext.trans hmark)
    exact absurd (congrArg List.getLast? hlast) (by simp)
  · obtain ⟨-, -, rfl⟩ := append_last_inj (p := Rx.blank) (z := P ++ ("Source Network Address:".toList ++ r)) (b := b)
      hA.blank hX.blank (by decide) (blank_of_spaceTab (hr b (by simp)))
      (htext.trans (by simp only [List.append_assoc, List.concat_eq_append, List.singleton_append]))
    rfl

theorem rdp_address (hA : Word A) (h : (c, v) ∈ run rdpEventRx t)
    (hline : s ++ (" Source Network Address: ".toList ++ A) = line ++ t) : ∃ id user, c = [id, user, A] := by
  simp only [rdpEventRx, rdpNames, rdpAddress, mem_run_lit_seq, mem_run_capture_anyOf_seq, mem_run_stop_seq,
    mem_run_lazy_seq, mem_run_many_seq, mem_run_capture_lazy_seq, mem_run_some1_seq, mem_run_capture_some1_seq,
    mem_run_ends] at h
  obtain ⟨_, rfl, id, _, _, rfl, -, ⟨-, w, _, rfl, -, _, rfl, t₁, _, rfl, -, user, _, _, rfl, -,
    ⟨t₂, _, rfl, -, _, rfl, t₃, _, rfl, ht₃, X, _, _, rfl, hX, ⟨e, _, rfl, he, rfl, rfl, rfl⟩, rfl⟩, rfl⟩, rfl⟩ := h
  refine ⟨id, user, ?_⟩
  rw [rdp_last_word hA hX ht₃ he
    (P := line ++ ("EventID:".toList ++ (id ++ (w ++ ("Account Name:".toList ++ (t₁ ++ (user ++ t₂)))))))
    (by simpa only [List.append_assoc, List.append_nil] using hline)]

theorem parseRDP_ip (s user : List Char) (hA : ClientAddr A)
    (hline : line = s ++ (user ++ (" Source Network Address: ".toList ++ A)))
    (h : ev ∈ parseRDP (serviceRegexp re) stamps (String.ofList line) svcKey) : ev.ip = cleanIP (String.ofList A) := by
  rw [parseRDP, find_of_mem re _ rdpEventRx.find (by simp [servicePatterns]), String.toList_ofList] at h
  cases hfind : rdpEventRx.find line with
  | none =>
    rw [hfind] at h
    exact absurd h List.not_mem_nil
  | some m =>
    obtain ⟨pre, t, c, v, whole, htext, hhead, rfl, -⟩ := find_eq_some hfind
    obtain ⟨id, name, rfl⟩ := rdp_address (s := s ++ user) hA.word (List.mem_of_head? hhead)
      (by rw [← htext, hline, List.append_assoc])
    rw [hfind] at h
    simp only [Option.map_some] at h
    split at h
    · exact absurd h List.not_mem_nil
    · exact ip_of_mem_authEvents stamps h

/-! ## MySQL -/

def passwordWords : List (List Char) := ["YES".toList, "NO".toList]

theorem mem_run_mysqlHost {m : List Char} : (c, v) ∈ run mysqlHost m ↔
    ∃ X w, m = mysqlEnd X w ++ v ∧ (∀ x ∈ X, (x != '\'') = true) ∧ w ∈ passwordWords ∧ c = [X] := by
  simp only [mysqlHost, mem_run_lit_seq, mem_run_capture_many_seq, mem_run_anyOf_seq, mem_run_lit]
  constructor
  · rintro ⟨_, rfl, X, _, _, rfl, hX, ⟨_, rfl, w, _, rfl, hw, rfl, rfl⟩, rfl⟩
    exact ⟨X, w, by simp only [mysqlEnd, List.append_assoc], hX, hw, rfl⟩
  · rintro ⟨X, w, rfl, hX, hw, rfl⟩
    refine ⟨X ++ ("' (using password: ".toList ++ (w ++ ([')'] ++ v))), ?_, X, _, [], rfl, hX, ?_, rfl⟩
    · simp only [mysqlEnd, List.append_assoc]
    · exact ⟨_, rfl, w, _, rfl, hw, rfl, rfl⟩

theorem mysql_host_unique {X w w' d : List Char} (hA : ClientAddr A) (hw : w ∈ passwordWords)
    (hX : ∀ x ∈ X, (x != '\'') = true) (h : mysqlEnd A w = d ++ (mysqlEnd X w' ++ v)) : X = A := by
  have hquote : '\'' ∉ A := hA.not_mem (by decide)
  have hquote' : '\'' ∉ X := fun hmem => absurd (hX _ hmem) (by decide)
  have htail : '\'' ∉ " (using password: ".toList ++ (w ++ [')']) := by
    simp only [passwordWords, List.mem_cons, List.not_mem_nil, or_false] at hw
    rcases hw with rfl | rfl <;> decide
  have hleft : mysqlEnd A w = '\'' :: '@' :: '\'' :: (A ++ '\'' :: (" (using password: ".toList ++ (w ++ [')']))) := rfl
  have hright : mysqlEnd X w' ++ v =
      '\'' :: '@' :: '\'' :: (X ++ '\'' :: (" (using password: ".toList ++ (w' ++ [')']) ++ v)) := by
    simp only [mysqlEnd, List.append_assoc]
    rfl
  rw [hleft, hright] at h
  cases d with
  | nil =>
    obtain ⟨-, h⟩ := List.cons.inj h
    obtain ⟨-, h⟩ := List.cons.inj h
    obtain ⟨-, h⟩ := List.cons.inj h
    exact (append_cons_inj hquote hquote' h).1.symm
  | cons c₁ d =>
    obtain ⟨-, h⟩ := List.cons.inj h
    cases d with
    | nil => exact absurd (List.cons.inj h).1 (by decide)
    | cons c₂ d =>
      obtain ⟨-, h⟩ := List.cons.inj h
      cases d with
      | nil =>
        -- the address would begin with `@`
        obtain ⟨-, h⟩ := List.cons.inj h
        obtain ⟨a, A', rfl⟩ := List.exists_cons_of_ne_nil hA.ne_nil
        obtain ⟨rfl, -⟩ := List.cons.inj h
        exact absurd List.mem_cons_self (hA.not_mem (by decide))
      | cons c₃ d =>
        obtain ⟨-, h⟩ := List.cons.inj h
        obtain ⟨-, h⟩ | ⟨z, -, h⟩ := append_cons_cases hquote h
        · exact absurd (List.cons.inj h).1 (by decide)
        · exact absurd (h ▸ List.mem_append_right z List.mem_cons_self) htail

theorem mysql_address {before user w : List Char} {m : List (List Char)} (hA : ClientAddr A) (hw : w ∈ passwordWords)
    (hline : line = before ++ ("Access denied for user '".toList ++ (user ++ mysqlEnd A w)))
    (hdot : ∀ c ∈ line, dot c = true) (h : mysqlFailRx.find line = some m) :
    ∃ whole name, m = [whole, name, A] := by
  obtain ⟨pre, _, c, v, whole, htext, hhead, rfl, hfirst⟩ := find_eq_some h
  obtain ⟨t, rfl, hrun⟩ := head?_run_lit_seq hhead
  obtain ⟨u, m, _, rfl, -, hmem, rfl, hlongest⟩ := head?_run_many hrun
  obtain ⟨X, w', rfl, hX, hw', rfl⟩ := mem_run_mysqlHost.mp hmem
  have hend : ([A], []) ∈ run mysqlHost (mysqlEnd A w) := by
    refine mem_run_mysqlHost.mpr ⟨A, w, (List.append_nil _).symm, ?_, hw, rfl⟩
    intro x hx
    rw [bne_iff_ne]
    rintro rfl
    exact hA.not_mem (by decide) hx
  have hdots : ∀ c ∈ user, dot c = true := by
    intro c hc
    refine hdot c ?_
    rw [hline]
    exact List.mem_append_right _ (List.mem_append_right _ (List.mem_append_left _ hc))
  -- the match begins with the message or before it
  have hle : pre.length ≤ before.length := by
    refine hfirst _ _ hline (List.ne_nil_of_mem (a := ([user, A], [])) ?_)
    rw [mysqlFailRx, mem_run_lit_seq]
    exact ⟨_, rfl, mem_run_capture_many_seq.mpr ⟨user, _, [A], rfl, hdots, hend, rfl⟩⟩
  obtain ⟨d, rfl⟩ : pre <+: before :=
    List.prefix_of_prefix_length_le ⟨_, htext.symm⟩ ⟨_, hline.symm⟩ hle
  have hsame : "Access denied for user '".toList ++ (u ++ (mysqlEnd X w' ++ v)) =
      (d ++ ("Access denied for user '".toList ++ user)) ++ mysqlEnd A w := by
    apply (List.append_right_inj pre).mp
    rw [← htext, hline]
    simp only [List.append_assoc]
  obtain ⟨u', hu'⟩ : "Access denied for user '".toList <+: d ++ ("Access denied for user '".toList ++ user) :=
    List.prefix_of_prefix_length_le ⟨_, rfl⟩ ⟨_, hsame.symm⟩ (by simp only [List.length_append]; omega)
  have hrest : u ++ (mysqlEnd X w' ++ v) = u' ++ mysqlEnd A w := by
    apply (List.append_right_inj "Access denied for user '".toList).mp
    rw [hsame, ← hu', List.append_assoc]
  have hdotu : ∀ c ∈ u', dot c = true := by
    intro c hc
    have hmem : c ∈ d ++ ("Access denied for user '".toList ++ user) := hu' ▸ List.mem_append_right _ hc
    refine hdot c ?_
    rw [hline, List.append_assoc pre]
    refine List.mem_append_right pre ?_
    rw [← List.append_assoc "Access denied for user '".toList, ← List.append_assoc d]
    exact List.mem_append_left _ hmem
  have hlength := hlongest u' _ hrest hdotu (List.ne_nil_of_mem hend)
  obtain ⟨d', rfl⟩ : u' <+: u := List.prefix_of_prefix_length_le ⟨_, hrest.symm⟩ ⟨_, rfl⟩ hlength
  have hinside : mysqlEnd A w = d' ++ (mysqlEnd X w' ++ v) := by
    apply (List.append_right_inj u').mp
    rw [← hrest, List.append_assoc]
  exact ⟨whole, _, by rw [mysql_host_unique hA hw hX hinside]⟩

theorem parseMySQL_ip {before user w : List Char} (hA : ClientAddr A) (hw : w ∈ passwordWords)
    (hline : line = before ++ ("Access denied for user '".toList ++ (user ++ mysqlEnd A w)))
    (hdot : ∀ c ∈ line, dot c = true) (h : ev ∈ parseMySQL (serviceRegexp re) stamps (String.ofList line) svcKey) :
    ev.ip = cleanIP (String.ofList A) := by
  rw [parseMySQL, find_of_mem re _ mysqlFailRx.find (by simp [servicePatterns]), String.toList_ofList] at h
  cases hfind : mysqlFailRx.find line with
  | none =>
    rw [hfind] at h
    exact absurd h List.not_mem_nil
  | some m =>
    obtain ⟨whole, name, rfl⟩ := mysql_address hA hw hline hdot hfind
    rw [hfind] at h
    simp only [Option.map_some] at h
    split at h
    · exact absurd h List.not_mem_nil
    · exact ip_of_mem_authEvents stamps h

/-! ## nginx -/

theorem mem_run_exactly {p : Char → Bool} {n : Nat} (h : (c, v) ∈ run (exactly n p) s) :
    ∃ u, s = u ++ v ∧ ∀ x ∈ u, p x = true := by
  induction n generalizing s with
  | zero =>
    obtain ⟨-, rfl⟩ := mem_run_lit.mp h
    exact ⟨[], rfl, fun _ h => absurd h List.not_mem_nil⟩
  | succ n ih =>
    rw [exactly, mem_run_set_seq] at h
    obtain ⟨x, m, hx, rfl, hm⟩ := h
    obtain ⟨u, rfl, hu⟩ := ih hm
    exact ⟨x :: u, rfl, List.forall_mem_cons.mpr ⟨hx, hu⟩⟩

theorem nginx_slash (h : (c, v) ∈ run nginxAuthErrRx s) : ∃ y r, s = y ++ '/' :: r ∧ ∀ x ∈ y, digit x = true := by
  rw [nginxAuthErrRx, mem_run_seq] at h
  obtain ⟨c₁, m, c₂, hm, -, -⟩ := h
  rw [nginxHead, mem_run_seq] at hm
  obtain ⟨_, r, _, hy, hr, -⟩ := hm
  obtain ⟨y, rfl, hdigits⟩ := mem_run_exactly hy
  obtain ⟨r', rfl, -⟩ := mem_run_lit_seq.mp hr
  exact ⟨y, r', rfl, hdigits⟩

theorem nginx_client (h : (c, v) ∈ run nginxAuthErrRx s) : ∃ a X name,
    s = a ++ (", client: ".toList ++ (X ++ (", server: ".toList ++ v))) ∧ (∀ x ∈ X, x ≠ ',') ∧ c = [name, X] := by
  rw [nginxAuthErrRx, mem_run_seq_of_groups rfl] at h
  obtain ⟨m, hhead, hrest⟩ := h
  obtain ⟨u, rfl⟩ := exists_append_of_mem_run hhead
  rw [mem_run_capture_many_seq] at hrest
  obtain ⟨name, _, _, rfl, -, hrest, rfl⟩ := hrest
  obtain ⟨_, rfl, hquoted⟩ := mem_run_lit_seq.mp hrest
  rw [mem_run_seq_of_groups rfl] at hquoted
  obtain ⟨r, hreason, hclient⟩ := hquoted
  obtain ⟨w, rfl⟩ := exists_append_of_mem_run hreason
  simp only [nginxClient, mem_run_lit_seq, mem_run_capture_some1_seq, mem_run_lit] at hclient
  obtain ⟨_, rfl, X, _, _, rfl, hX, ⟨rfl, rfl⟩, rfl⟩ := hclient
  refine ⟨u ++ (name ++ (['"'] ++ w)), X, name, by simp only [List.append_assoc], ?_, rfl⟩
  intro x hx
  exact bne_iff_ne.mp (Bool.and_eq_true_iff.mp (hX.2 x hx)).1

/-! ## Apache -/

theorem mem_run_bracket : (c, v) ∈ run bracket s ↔ c = [] ∧ ∃ f, ']' ∉ f ∧ s = bracketText f ++ v := by
  have hmem {f : List Char} : (∀ x ∈ f, (x != ']') = true) ↔ ']' ∉ f := by
    constructor
    · exact fun h hf => absurd (h _ hf) (by decide)
    · intro h x hx
      rw [bne_iff_ne]
      rintro rfl
      exact h hx
  simp only [bracket, mem_run_lit_seq, mem_run_many_seq, mem_run_lit, hmem]
  constructor
  · rintro ⟨_, rfl, f, _, rfl, hf, rfl, rfl⟩
    exact ⟨rfl, f, hf, by simp only [bracketText, List.append_assoc, List.cons_append, List.nil_append]⟩
  · rintro ⟨rfl, f, hf, rfl⟩
    refine ⟨f ++ ("] ".toList ++ v), ?_, f, _, rfl, hf, rfl, rfl⟩
    simp only [bracketText, List.append_assoc, List.cons_append, List.nil_append]

theorem bracketText_inj {f g s₁ s₂ : List Char} (hf : ']' ∉ f) (hg : ']' ∉ g)
    (h : bracketText f ++ s₁ = bracketText g ++ s₂) : f = g ∧ s₁ = s₂ := by
  have htext (f s : List Char) : bracketText f ++ s = '[' :: (f ++ ']' :: ' ' :: s) := by
    simp only [bracketText, List.append_assoc, List.cons_append]
    rfl
  rw [htext, htext] at h
  obtain ⟨rfl, hrest⟩ := append_cons_inj hf hg (List.cons.inj h).2
  exact ⟨rfl, (List.cons.inj hrest).2⟩

theorem mem_run_fields {fields : List (List Char)} (hfields : ∀ f ∈ fields, HeaderField f) :
    (c, v) ∈ run (seq (star false bracket) apacheClient) (fields.flatMap bracketText ++ s) ↔
      (c, v) ∈ run (seq (star false bracket) apacheClient) s := by
  induction fields with
  | nil => rfl
  | cons f fields ih =>
    obtain ⟨⟨hf, hclient⟩, hfields⟩ := List.forall_mem_cons.mp hfields
    rw [List.flatMap_cons, List.append_assoc, mem_run_star_seq, ← ih hfields]
    constructor
    · rintro (h | ⟨c', m, hm, -, hrest⟩)
      · -- the field would begin with `client `
        obtain ⟨m, hm, -⟩ := mem_run_lit_seq.mp h
        have hfield : f ++ ("] ".toList ++ (fields.flatMap bracketText ++ s)) = "client ".toList ++ m := by
          refine (List.cons.inj (?_ : '[' :: _ = '[' :: _)).2
          rw [← List.append_assoc f]
          exact hm
        refine absurd ?_ hclient
        obtain ⟨d, hd, hrest⟩ | ⟨d, rfl, -⟩ := List.append_eq_append_iff.mp hfield
        · cases d with
          | nil => exact ⟨[], by rw [hd, List.append_nil, List.append_nil]⟩
          | cons x d =>
            obtain ⟨rfl, -⟩ := List.cons.inj (hrest : ']' :: _ = x :: _)
            have hmem : ']' ∈ "client ".toList := hd ▸ List.mem_append_right f List.mem_cons_self
            exact absurd hmem (by decide)
        · exact List.prefix_append _ d
      · obtain ⟨-, g, hg, htext⟩ := mem_run_bracket.mp hm
        obtain ⟨-, rfl⟩ := bracketText_inj hf hg htext
        exact hrest
    · intro h
      refine .inr ⟨[], _, mem_run_bracket.mpr ⟨rfl, f, hf, rfl⟩, ?_, h⟩
      simp only [bracketText, List.length_append, List.length_cons]
      omega

/-- What follows the field `client`. -/
def apacheMessage : Rx :=
  seq (opt (capture (seq (lit "AH".toList) (seq (some1 digit) (lit ": ".toList))))) <| seq (lit "user ".toList) <|
    seq (capture (lazy dot)) (anyOf apacheReasons)

theorem mem_run_apacheMessage {client : ApacheClient} (hclient : client.Logged) {r : List Char} :
    (c, v) ∈ run apacheMessage (client.code ++ ("user ".toList ++ r)) ↔
      ∃ name reason, r = name ++ (reason ++ v) ∧ (∀ x ∈ name, dot x = true) ∧ reason ∈ apacheReasons ∧
        c = [client.code, name] := by
  have huser {r : List Char} {c : List (List Char)} : (c, v) ∈ run (seq (lit "user ".toList) <|
      seq (capture (lazy dot)) (anyOf apacheReasons)) ("user ".toList ++ r) ↔
      ∃ name reason, r = name ++ (reason ++ v) ∧ (∀ x ∈ name, dot x = true) ∧ reason ∈ apacheReasons ∧ c = [name] := by
    simp only [mem_run_lit_seq, mem_run_capture_lazy_seq, mem_run_anyOf]
    constructor
    · rintro ⟨m, hm, name, _, _, rfl, hname, ⟨rfl, reason, hreason, rfl⟩, rfl⟩
      exact ⟨name, reason, List.append_cancel_left hm, hname, hreason, rfl⟩
    · rintro ⟨name, reason, rfl, hname, hreason, rfl⟩
      exact ⟨_, rfl, name, _, [], rfl, hname, ⟨rfl, reason, hreason, rfl⟩, rfl⟩
  rw [apacheMessage, mem_run_seq]
  constructor
  · rintro ⟨c₁, m, c₂, hm, hrest, rfl⟩
    rcases mem_run_opt.mp hm with hm | ⟨rfl, rfl⟩
    · simp only [mem_run_capture, mem_run_lit_seq, mem_run_some1_seq, mem_run_lit] at hm
      obtain ⟨w, _, htext, ⟨n', hw, n, _, rfl, hn, rfl, rfl⟩, rfl⟩ := hm
      cases client with
      | v22 => exact absurd (List.cons.inj (hw : 'u' :: _ = 'A' :: _)).1 (by decide)
      | v24 port number =>
        have hcolon {x : List Char} (hx : ∀ c ∈ x, digit c = true) : ':' ∉ x :=
          fun h => absurd (hx ':' h) (by decide)
        rw [ApacheClient.code, List.append_assoc, List.append_assoc] at hw
        obtain ⟨rfl, hm⟩ := append_cons_inj (hcolon hclient.2.2.2) (hcolon hn.2) (List.append_cancel_left hw)
        obtain rfl : "user ".toList ++ r = m := (List.cons.inj hm).2
        obtain rfl : ApacheClient.code (.v24 port number) = w := List.append_cancel_right htext
        obtain ⟨name, reason, rfl, hname, hreason, rfl⟩ := huser.mp hrest
        exact ⟨name, reason, rfl, hname, hreason, rfl⟩
    · cases client with
      | v22 =>
        obtain ⟨name, reason, rfl, hname, hreason, rfl⟩ := huser.mp hrest
        exact ⟨name, reason, rfl, hname, hreason, rfl⟩
      | v24 port number =>
        obtain ⟨m, hm, -⟩ := mem_run_lit_seq.mp hrest
        exact absurd (List.cons.inj (hm : 'A' :: _ = 'u' :: _)).1 (by decide)
  · rintro ⟨name, reason, rfl, hname, hreason, rfl⟩
    have hrest := huser.mpr ⟨name, reason, rfl, hname, hreason, rfl⟩
    cases client with
    | v22 => exact ⟨[[]], _, [name], mem_run_opt.mpr (.inr ⟨rfl, rfl⟩), hrest, rfl⟩
    | v24 port number =>
      refine ⟨[ApacheClient.code (.v24 port number)], _, [name], mem_run_opt.mpr (.inl ?_), hrest, rfl⟩
      refine mem_run_capture.mpr ⟨_, [], rfl, ?_, rfl⟩
      rw [mem_run_lit_seq, ApacheClient.code, List.append_assoc, List.append_assoc]
      exact ⟨_, rfl, mem_run_some1_seq.mpr ⟨number, _, rfl, hclient.2.2, mem_run_lit.mpr ⟨rfl, rfl⟩⟩⟩

theorem apacheClient_eq : apacheClient = seq (lit "[client ".toList)
    (seq (capture (some1 fun c => c != ']' && nonblank c)) (seq (lit "] ".toList) apacheMessage)) := rfl

theorem nonblank_of_clientChar {x : Char} (h : clientChar x = true) : (x != ']' && nonblank x) = true := by
  rw [Bool.and_eq_true, bne_iff_ne]
  refine ⟨?_, (space_of_clientChar h).2.2⟩
  rintro rfl
  exact absurd h (by decide)

theorem clientChar_field {client : ApacheClient} (hA : ClientAddr A) (hclient : client.Logged) :
    client.field A ≠ [] ∧ ∀ x ∈ client.field A, clientChar x = true := by
  cases client with
  | v22 => exact ⟨hA.ne_nil, hA.client⟩
  | v24 port number =>
    refine ⟨List.append_ne_nil_of_left_ne_nil hA.ne_nil _, ?_⟩
    rw [ApacheClient.field, List.forall_mem_append, List.forall_mem_cons]
    exact ⟨hA.client, by decide, fun x hx => clientChar_of_digit (hclient.1.2 x hx)⟩

theorem mem_run_client {client : ApacheClient} (hA : ClientAddr A) (hclient : client.Logged) {r : List Char} :
    (c, v) ∈ run (seq (star false bracket) apacheClient)
      ("[client ".toList ++ (client.field A ++ ("] ".toList ++ (client.code ++ ("user ".toList ++ r))))) ↔
      ∃ name reason, r = name ++ (reason ++ v) ∧ (∀ x ∈ name, dot x = true) ∧ reason ∈ apacheReasons ∧
        c = [client.field A, client.code, name] := by
  obtain ⟨hne, hchars⟩ := clientChar_field hA hclient
  have hbracket : ']' ∉ client.field A := fun h => absurd (hchars ']' h) (by decide)
  -- the message begins with `AH` or `user`, no field does
  have hmessage (m : List Char) : client.code ++ ("user ".toList ++ r) ≠ '[' :: m := by
    cases client with
    | v22 => exact fun h => absurd (List.cons.inj (h : 'u' :: _ = '[' :: _)).1 (by decide)
    | v24 port number => exact fun h => absurd (List.cons.inj (h : 'A' :: _ = '[' :: _)).1 (by decide)
  have hstop (c : List (List Char)) : (c, v) ∉ run (seq (star false bracket) apacheClient)
      (client.code ++ ("user ".toList ++ r)) := by
    intro h
    rcases mem_run_star_seq.mp h with h | ⟨_, m, hm, -, -⟩
    · obtain ⟨m, hm, -⟩ := mem_run_lit_seq.mp h
      exact hmessage _ hm
    · obtain ⟨-, g, -, hm⟩ := mem_run_bracket.mp hm
      exact hmessage _ hm
  rw [mem_run_star_seq, apacheClient_eq]
  constructor
  · rintro (h | ⟨_, m, hm, -, hrest⟩)
    · simp only [mem_run_lit_seq, mem_run_capture_some1_seq] at h
      obtain ⟨m, hm, F, _, c', rfl, hF, ⟨m', rfl, hrest⟩, rfl⟩ := h
      have hF' : ']' ∉ F := fun h => absurd (hF.2 ']' h) (by decide)
      obtain ⟨rfl, htail⟩ := append_cons_inj hbracket hF' (List.append_cancel_left hm)
      obtain rfl := (List.cons.inj htail).2
      obtain ⟨name, reason, rfl, hname, hreason, rfl⟩ := (mem_run_apacheMessage hclient).mp hrest
      exact ⟨name, reason, rfl, hname, hreason, rfl⟩
    · obtain ⟨-, g, hg, htext⟩ := mem_run_bracket.mp hm
      have hfield : ']' ∉ "client ".toList ++ client.field A := by
        rw [List.mem_append, not_or]
        exact ⟨by decide, hbracket⟩
      have hboth : bracketText ("client ".toList ++ client.field A) ++ (client.code ++ ("user ".toList ++ r)) =
          bracketText g ++ m := by
        rw [← htext, bracketText]
        simp only [List.append_assoc, List.cons_append]
        rfl
      obtain ⟨-, rfl⟩ := bracketText_inj hfield hg hboth
      exact absurd hrest (hstop _)
  · rintro ⟨name, reason, rfl, hname, hreason, rfl⟩
    refine .inl (mem_run_lit_seq.mpr ⟨_, rfl, mem_run_capture_some1_seq.mpr ⟨client.field A, _, _, rfl, ?_, ?_, rfl⟩⟩)
    · exact ⟨hne, fun x hx => nonblank_of_clientChar (hchars x hx)⟩
    · exact mem_run_lit_seq.mpr
        ⟨_, rfl, (mem_run_apacheMessage hclient).mpr ⟨name, reason, rfl, hname, hreason, rfl⟩⟩

theorem mem_run_apacheText {time : List Char} (user reason rest : List Char) {fields : List (List Char)}
    {client : ApacheClient} (hA : ClientAddr A) (htime : ']' ∉ time) (hfields : ∀ f ∈ fields, HeaderField f)
    (hclient : client.Logged) :
    (c, v) ∈ run apacheAuthErrRx (apacheText time fields client user reason rest A) ↔
      ∃ name reason', user ++ (reason ++ rest) = name ++ (reason' ++ v) ∧ (∀ x ∈ name, dot x = true) ∧
        reason' ∈ apacheReasons ∧ c = [client.field A, client.code, name] := by
  rw [apacheAuthErrRx, mem_run_seq_of_groups rfl, apacheText, ← mem_run_client hA hclient, ← mem_run_fields hfields]
  constructor
  · rintro ⟨m, hm, hrest⟩
    obtain ⟨-, g, hg, htext⟩ := mem_run_bracket.mp hm
    obtain ⟨-, rfl⟩ := bracketText_inj htime hg htext
    exact hrest
  · exact fun h => ⟨_, mem_run_bracket.mpr ⟨rfl, time, htime, rfl⟩, h⟩

theorem atoi_port {n : List Char} (hn : Digits n) (hlength : n.length ≤ 5) : (atoi n).isSome = true := by
  rw [atoi_digits hn.1 (List.all_eq_true.mpr fun c hc => isDigit_of_digit (hn.2 c hc)) (by omega)]
  rfl

theorem cleanIP_apacheClientIP {client : ApacheClient} (hA : ClientAddr A) (hclient : client.Logged) :
    cleanIP (apacheClientIP (String.ofList (client.field A)) (String.ofList client.code ≠ "")) =
      cleanIP (String.ofList A) := by
  cases client with
  | v22 =>
    have hcode : ¬(decide (String.ofList (ApacheClient.code .v22) ≠ "") = true) := by decide
    rw [apacheClientIP, if_neg fun h => hcode h.1]
    rfl
  | v24 port number =>
    have hport : ∀ x ∈ port.reverse, decide (x ≠ ':') = true := by
      intro x hx
      rw [decide_eq_true_eq]
      rintro rfl
      exact absurd (hclient.1.2 ':' (List.mem_reverse.mp hx)) (by decide)
    have htake : ((A ++ ':' :: port).reverse.takeWhile fun x => decide (x ≠ ':')).reverse = port := by
      rw [List.reverse_append, List.reverse_cons, List.append_assoc, List.takeWhile_append_of_pos hport]
      simp
    have hhost : (A ++ ':' :: port).take ((A ++ ':' :: port).length - port.length - 1) = A := by
      have hlength : (A ++ ':' :: port).length - port.length - 1 = A.length := by
        rw [List.length_append, List.length_cons]
        omega
      rw [hlength, List.take_left]
    have hcode : decide (String.ofList (ApacheClient.code (.v24 port number)) ≠ "") = true := by
      rw [decide_eq_true_eq]
      intro h
      have hnil : ApacheClient.code (.v24 port number) = [] := by simpa using congrArg String.toList h
      exact absurd (hnil : 'A' :: _ = []) (List.cons_ne_nil _ _)
    rw [apacheClientIP, hcode]
    simp only [String.toList_ofList, ApacheClient.field, htake, hhost]
    rw [if_pos ⟨trivial, hA.ne_nil, atoi_port hclient.1 hclient.2.1, hA.cleanIP_ne⟩, hA.cleanIP_cleanIP]

theorem parse_apacheText {time user reason rest : List Char} {fields : List (List Char)} {client : ApacheClient}
    (hA : ClientAddr A) (htime : ']' ∉ time) (hfields : ∀ f ∈ fields, HeaderField f) (hclient : client.Logged)
    (hreason : reason ∈ apacheReasons) (hline : line = apacheText time fields client user reason rest A)
    (hdot : ∀ c ∈ line, dot c = true)
    (h : ev ∈ parseHTTPAuthLine (serviceRegexp re) stamps (String.ofList line) svcKey) :
    ev.ip = cleanIP (String.ofList A) := by
  have hspec {c : List (List Char)} {v : List Char} :=
    mem_run_apacheText (c := c) (v := v) user reason rest hA htime hfields hclient
  have huser : ∀ x ∈ user, dot x = true := by
    intro x hx
    refine hdot x ?_
    simp [hline, apacheText, hx]
  rw [parseHTTPAuthLine, find_of_mem re _ apacheAuthErrRx.matchHead (by simp [servicePatterns]),
    String.toList_ofList] at h
  cases hfind : apacheAuthErrRx.matchHead line with
  | none =>
    rw [matchHead_eq_none, hline] at hfind
    refine absurd hfind (List.ne_nil_of_mem (a := ([client.field A, client.code, user], rest)) ?_)
    exact hspec.mpr ⟨user, reason, rfl, huser, hreason, rfl⟩
  | some m =>
    rw [hfind] at h
    rw [matchHead, Option.map_eq_some_iff] at hfind
    obtain ⟨⟨c, v⟩, hhead, rfl⟩ := hfind
    rw [hline] at hhead
    obtain ⟨name, -, -, -, -, rfl⟩ := hspec.mp (List.mem_of_head? hhead)
    rw [ip_of_mem_authEvents stamps h]
    exact cleanIP_apacheClientIP hA hclient

/-! ## Access logs -/

theorem access_first {w r : List Char} (hw : ' ' ∉ w) (h : (c, v) ∈ run httpAccess401Rx (w ++ ' ' :: r)) :
    ∃ c', c = w :: c' := by
  rw [httpAccess401Rx, mem_run_capture_some1_seq] at h
  obtain ⟨X, m, c', htext, hX, hrest, rfl⟩ := h
  obtain ⟨m', rfl, -⟩ := mem_run_lit_seq.mp hrest
  obtain ⟨rfl, -⟩ := append_cons_inj hw (Word.not_mem hX) htext
  exact ⟨c', rfl⟩

theorem mem_run_vhost : (c, v) ∈ run httpVhostPrefixRx s ↔ c = [] ∧ ∃ x n, s = x ++ ':' :: (n ++ ' ' :: v) ∧
    (Word x ∧ ':' ∉ x) ∧ Digits n := by
  simp only [httpVhostPrefixRx, mem_run_some1_seq, mem_run_lit_seq, mem_run_lit]
  have hmem {x : List Char} : (x ≠ [] ∧ ∀ c ∈ x, (nonblank c && c != ':') = true) ↔ Word x ∧ ':' ∉ x := by
    simp only [Bool.and_eq_true, bne_iff_ne, Word]
    constructor
    · exact fun h => ⟨⟨h.1, fun c hc => (h.2 c hc).1⟩, fun hc => (h.2 ':' hc).2 rfl⟩
    · exact fun h => ⟨h.1.1, fun c hc => ⟨h.1.2 c hc, fun heq => h.2 (heq ▸ hc)⟩⟩
  constructor
  · rintro ⟨x, _, rfl, hx, _, rfl, n, _, rfl, hn, rfl, rfl⟩
    exact ⟨rfl, x, n, rfl, hmem.mp hx, hn⟩
  · rintro ⟨rfl, x, n, rfl, hx, hn⟩
    exact ⟨x, _, rfl, hmem.mpr hx, _, rfl, n, _, rfl, hn, rfl, rfl⟩

theorem matchHead_vhost_none {w r : List Char} (hw : ' ' ∉ w) (hcolon : ∀ x n, ':' ∉ x → Digits n → w ≠ x ++ ':' :: n) :
    httpVhostPrefixRx.matchHead (w ++ ' ' :: r) = none := by
  rw [matchHead_eq_none, List.eq_nil_iff_forall_not_mem]
  rintro ⟨c, v⟩ h
  obtain ⟨-, x, n, htext, ⟨hx, hx'⟩, hn⟩ := mem_run_vhost.mp h
  have hblank : ' ' ∉ x ++ ':' :: n := by
    simp only [List.mem_append, List.mem_cons, not_or]
    exact ⟨hx.not_mem, by decide, hn.word.not_mem⟩
  rw [← List.cons_append, ← List.append_assoc] at htext
  exact hcolon x n hx' hn (append_cons_inj hw hblank htext).1

theorem matchHead_vhost_some {x n r : List Char} (hx : Word x) (hcolon : ':' ∉ x) (hn : Digits n) :
    ∃ whole c, httpVhostPrefixRx.matchHead (x ++ ':' :: (n ++ ' ' :: r)) = some (whole :: c) ∧
      (x ++ ':' :: (n ++ ' ' :: r)).drop whole.length = r := by
  have hmem : ([], r) ∈ run httpVhostPrefixRx (x ++ ':' :: (n ++ ' ' :: r)) :=
    mem_run_vhost.mpr ⟨rfl, x, n, rfl, ⟨hx, hcolon⟩, hn⟩
  cases hfind : httpVhostPrefixRx.matchHead (x ++ ':' :: (n ++ ' ' :: r)) with
  | none => exact absurd (matchHead_eq_none.mp hfind) (List.ne_nil_of_mem hmem)
  | some m =>
    rw [matchHead, Option.map_eq_some_iff] at hfind
    obtain ⟨⟨c, v⟩, hhead, rfl⟩ := hfind
    obtain ⟨rfl, x', n', htext, ⟨hx', hcolon'⟩, hn'⟩ := mem_run_vhost.mp (List.mem_of_head? hhead)
    obtain ⟨-, hrest⟩ := append_cons_inj hcolon hcolon' htext
    obtain ⟨-, rfl⟩ := append_cons_inj hn.word.not_mem hn'.word.not_mem hrest
    refine ⟨_, _, rfl, ?_⟩
    have hsplit : x ++ ':' :: (n ++ ' ' :: r) = (x ++ ':' :: (n ++ [' '])) ++ r := by simp
    rw [hsplit, List.length_append, Nat.add_sub_cancel, List.take_left, List.drop_left]

theorem ip_of_mem_access {body w r : List Char} {raw : String} (hbody : body = w ++ ' ' :: r) (hw : ' ' ∉ w)
    (h : ev ∈ match (serviceRegexp re).findStringSubmatch httpAccess401Re (String.ofList body) with
      | some m => authEvents stamps 1 (group m 1) (dashUser (group m 2)) svcKey "auth_failure" raw
      | none => []) : ev.ip = cleanIP (String.ofList w) := by
  rw [hbody, find_of_mem re _ httpAccess401Rx.matchHead (by simp [servicePatterns]), String.toList_ofList] at h
  cases hfind : httpAccess401Rx.matchHead (w ++ ' ' :: r) with
  | none =>
    rw [hfind] at h
    exact absurd h List.not_mem_nil
  | some m =>
    rw [hfind] at h
    rw [matchHead, Option.map_eq_some_iff] at hfind
    obtain ⟨⟨c, v⟩, hhead, rfl⟩ := hfind
    obtain ⟨c', rfl⟩ := access_first hw (List.mem_of_head? hhead)
    exact ip_of_mem_authEvents stamps h

theorem apache_none (h : s.head? ≠ some '[') : apacheAuthErrRx.matchHead s = none := by
  rw [matchHead_eq_none, List.eq_nil_iff_forall_not_mem]
  rintro ⟨c, v⟩ hmem
  obtain ⟨_, m, _, hm, -, -⟩ := mem_run_seq.mp hmem
  obtain ⟨-, g, -, rfl⟩ := mem_run_bracket.mp hm
  exact h rfl

theorem nginx_none {w r : List Char} (hslash : '/' ∉ w) : nginxAuthErrRx.matchHead (w ++ ' ' :: r) = none := by
  rw [matchHead_eq_none, List.eq_nil_iff_forall_not_mem]
  rintro ⟨c, v⟩ hmem
  obtain ⟨y, r', htext, hy⟩ := nginx_slash hmem
  have hblank : ' ' ∉ y := fun h => absurd (hy ' ' h) (by decide)
  obtain ⟨d, rfl, htail⟩ | ⟨d, rfl, htail⟩ := List.append_eq_append_iff.mp htext
  · cases d with
    | nil => exact absurd (List.cons.inj htail).1 (by decide)
    | cons x d =>
      obtain ⟨rfl, -⟩ := List.cons.inj htail
      exact hblank (List.mem_append_right w List.mem_cons_self)
  · cases d with
    | nil => exact absurd (List.cons.inj htail).1 (by decide)
    | cons x d =>
      obtain ⟨rfl, -⟩ := List.cons.inj htail
      exact hslash (List.mem_append_right y List.mem_cons_self)

/-- A line that is not from an error log is read as an access log, its first word or that after the host being the
address. -/
theorem ip_of_mem_parse_access {body w r : List Char} (happache : apacheAuthErrRx.matchHead line = none)
    (hnginx : nginxAuthErrRx.matchHead line = none)
    (hbody : body = match httpVhostPrefixRx.matchHead line with
      | some m => line.drop (m.headD []).length
      | none => line) (htext : body = w ++ ' ' :: r) (hw : ' ' ∉ w)
    (h : ev ∈ parseHTTPAuthLine (serviceRegexp re) stamps (String.ofList line) svcKey) :
    ev.ip = cleanIP (String.ofList w) := by
  have hindex : (serviceRegexp re).findStringIndex httpVhostPrefixRe (String.ofList line) =
      (httpVhostPrefixRx.matchHead line).map fun m => (0, (m.headD []).length) := by
    simp only [serviceRegexp, if_true, String.toList_ofList]
  rw [parseHTTPAuthLine, find_of_mem re _ apacheAuthErrRx.matchHead (by simp [servicePatterns]),
    find_of_mem re _ nginxAuthErrRx.matchHead (by simp [servicePatterns]), String.toList_ofList, happache,
    hnginx, hindex] at h
  simp only [Option.map_none] at h
  cases hvhost : httpVhostPrefixRx.matchHead line with
  | none =>
    rw [hvhost] at h hbody
    exact ip_of_mem_access re stamps (hbody.symm.trans htext) hw h
  | some m =>
    rw [hvhost] at h hbody
    simp only [Option.map_some] at h
    exact ip_of_mem_access re stamps (hbody.symm.trans htext) hw h

theorem parse_accessText {vhost : Option (List Char × List Char)} {ident user time request rest : List Char}
    (hA : ClientAddr A) (hvhost : ∀ h ∈ vhost, (h.1 ≠ [] ∧ ∀ c ∈ h.1, zoneChar c = true) ∧ Digits h.2)
    (hline : line = accessText vhost ident user time request rest A)
    (h : ev ∈ parseHTTPAuthLine (serviceRegexp re) stamps (String.ofList line) svcKey) :
    ev.ip = cleanIP (String.ofList A) := by
  obtain ⟨r, hr⟩ : ∃ r, line = vhostText vhost ++ (A ++ ' ' :: r) := ⟨_, hline⟩
  have hblank : ' ' ∉ A := hA.not_mem (by decide)
  cases vhost with
  | none =>
    have hr : line = A ++ ' ' :: r := hr
    have hnone := matchHead_vhost_none (r := r) hblank fun x n hx hn => hA.not_single_colon hx hn
    refine ip_of_mem_parse_access re stamps (apache_none ?_) ?_ (by rw [hr, hnone]) rfl hblank h
    · rw [hr, List.head?_append_of_ne_nil _ hA.ne_nil]
      exact fun h => hA.not_mem (c := '[') (by decide) (List.mem_of_head? h)
    · rw [hr]
      exact nginx_none (hA.not_mem (by decide))
  | some p =>
    obtain ⟨host, port⟩ := p
    obtain ⟨⟨hne, hhost⟩, hport⟩ := hvhost _ rfl
    have hr : line = host ++ ':' :: (port ++ ' ' :: (A ++ ' ' :: r)) := by
      rw [hr]
      simp [vhostText]
    have hclient {c : Char} (hc : c ∈ host) : clientChar c = true := by simp [clientChar, hhost c hc]
    have hcolon : ':' ∉ host := fun hc => absurd (hhost ':' hc) (by decide)
    have hword : Word host := ⟨hne, fun c hc => (space_of_clientChar (hclient hc)).2.2⟩
    obtain ⟨whole, c, hsome, hdrop⟩ := matchHead_vhost_some (r := A ++ ' ' :: r) hword hcolon hport
    refine ip_of_mem_parse_access re stamps (apache_none ?_) ?_ (by rw [hr, hsome]; exact hdrop.symm) rfl hblank h
    · rw [hr, List.head?_append_of_ne_nil _ hne]
      exact fun h => absurd (hhost '[' (List.mem_of_head? h)) (by decide)
    · have hsplit : line = (host ++ ':' :: port) ++ ' ' :: (A ++ ' ' :: r) := by
        rw [hr]
        simp
      rw [hsplit]
      refine nginx_none ?_
      simp only [List.mem_append, List.mem_cons, not_or]
      exact ⟨fun hc => absurd (hhost '/' hc) (by decide), by decide, fun hc => absurd (hport.2 '/' hc) (by decide)⟩

/-! ## The error log of nginx -/

theorem not_mem_slashDate {date : List Char} (h : SlashDate date) :
    (∀ c ∈ date, c = '/' ∨ digit c = true) ∧ '/' ∈ date ∧ date.head? ≠ some '[' := by
  obtain ⟨y, m, d, rfl, hy, hm, hd⟩ := h
  have hall : ∀ c ∈ y ++ '/' :: (m ++ '/' :: d), c = '/' ∨ digit c = true := by
    simp only [List.mem_append, List.mem_cons]
    rintro c (hc | rfl | hc | rfl | hc)
    · exact .inr (hy.2 c hc)
    · exact .inl rfl
    · exact .inr (hm.2 c hc)
    · exact .inl rfl
    · exact .inr (hd.2 c hc)
  refine ⟨hall, List.mem_append_right y List.mem_cons_self, fun h => ?_⟩
  rcases hall '[' (List.mem_of_head? h) with h | h
  · exact absurd h (by decide)
  · exact absurd h (by decide)

theorem SlashDate.not_mem {date : List Char} (h : SlashDate date) {c : Char} (hc : c ≠ '/') (hc' : digit c = false) :
    c ∉ date := by
  intro hmem
  rcases (not_mem_slashDate h).1 c hmem with h | h
  · exact hc h
  · exact absurd (hc'.symm.trans h) (by decide)

theorem cleanIP_slashDate {date : List Char} (h : SlashDate date) : cleanIP (String.ofList date) = "" := by
  obtain ⟨hall, hslash, hhead⟩ := not_mem_slashDate h
  have hspace : ∀ c ∈ date, isGoSpace c = false := by
    intro c hc
    rcases hall c hc with rfl | hdigit
    · decide
    · exact (space_of_clientChar (clientChar_of_digit hdigit)).1
  have hlast : date.getLast? ≠ some ']' := fun hl =>
    h.not_mem (c := ']') (by decide) (by decide) (List.mem_of_getLast? hl)
  have hpercent : ∀ c ∈ date, decide (c ≠ '%') = true := by
    intro c hc
    rw [decide_eq_true_eq]
    rintro rfl
    exact h.not_mem (by decide) (by decide) hc
  have htake : (date.takeWhile fun c => decide (c ≠ '%')) = date := by
    have hall : (date ++ []).takeWhile (fun c => decide (c ≠ '%')) = date ++ [].takeWhile fun c => decide (c ≠ '%') :=
      List.takeWhile_append_of_pos hpercent
    simpa using hall
  simp only [cleanIP, String.toList_ofList, goTrim, trimBy_eq_self hspace, hhead, hlast, if_false, htake,
    parseAddr_of_mem (.inl rfl) hslash]

theorem ip_ne_of_isEvent (h : IsEvent svcKey ev) : ev.ip ≠ "" := by
  obtain ⟨a, ha⟩ := h.ip
  rw [ha]
  intro hnil
  have htext : (unmap a).text = [] := by simpa using congrArg String.toList hnil
  have hparse := parseAddr_text (unmap a)
  rw [htext, parseAddr_nil] at hparse
  contradiction

theorem parse_nginxText {date head user reason rest : List Char} (hA : ClientAddr A) (hdate : SlashDate date)
    (hline : line = nginxText date head user reason rest A)
    (h : ev ∈ parseHTTPAuthLine (serviceRegexp re) stamps (String.ofList line) svcKey) :
    ev.ip = cleanIP (String.ofList A) := by
  obtain ⟨hall, hslash, hbracket⟩ := not_mem_slashDate hdate
  have happache : apacheAuthErrRx.matchHead line = none := by
    obtain ⟨r, hr⟩ : ∃ r, line = date ++ ' ' :: r := ⟨_, hline⟩
    rw [hr]
    refine apache_none ?_
    rw [List.head?_append_of_ne_nil _ (List.ne_nil_of_mem hslash)]
    exact hbracket
  cases hfind : nginxAuthErrRx.matchHead line with
  | none =>
    -- the date would be the address
    have hvhost : httpVhostPrefixRx.matchHead line = none := by
      rw [hline]
      refine matchHead_vhost_none (hdate.not_mem (by decide) (by decide)) ?_
      rintro x n - - rfl
      exact hdate.not_mem (c := ':') (by decide) (by decide) (List.mem_append_right x List.mem_cons_self)
    have hip := ip_of_mem_parse_access re stamps happache hfind (by rw [hvhost]) hline
      (hdate.not_mem (by decide) (by decide)) h
    rw [cleanIP_slashDate hdate] at hip
    exact absurd hip (ip_ne_of_isEvent (isEvent_of_mem_parseHTTPAuthLine h))
  | some m =>
    rw [parseHTTPAuthLine, find_of_mem re _ apacheAuthErrRx.matchHead (by simp [servicePatterns]),
      find_of_mem re _ nginxAuthErrRx.matchHead (by simp [servicePatterns]), String.toList_ofList, happache,
      hfind] at h
    rw [matchHead, Option.map_eq_some_iff] at hfind
    obtain ⟨⟨c, v⟩, hhead, rfl⟩ := hfind
    obtain ⟨a, X, name, htext, hX, rfl⟩ := nginx_client (List.mem_of_head? hhead)
    simp only [Option.map_none, Option.map_some] at h
    split at h
    · exact absurd h List.not_mem_nil
    · rename_i hcount
      have hofList : (String.ofList line).toList = line := String.toList_ofList
      rw [not_not, count, hofList] at hcount
      have hreal : line = (date ++ ' ' :: (head ++ (" user \"".toList ++ (user ++ ('"' :: reason))))) ++
          (", client: ".toList ++ (A ++ (", server: ".toList ++ rest))) := by
        rw [hline, nginxText]
        simp only [List.append_assoc, List.cons_append]
      obtain ⟨-, hclient⟩ := append_inj_of_count ", client: ".toList (by decide) (by decide)
        (by rw [← hreal]; exact hcount) (hreal.symm.trans htext)
      obtain ⟨rfl, -⟩ := append_cons_inj (hA.not_mem (by decide)) (fun h => hX ',' h rfl) hclient
      exact ip_of_mem_authEvents stamps h

/-- Whatever the client writes, the events of a line are of its address. -/
theorem ServiceLine.ip_of_mem_parse (d : ServiceLine) (hd : d.Logged) (hA : ClientAddr A) (hline : line = d.text A)
    (hdot : ∀ c ∈ line, dot c = true) (h : ev ∈ d.parse re stamps svcKey line) : ev.ip = cleanIP (String.ofList A) := by
  cases d with
  | rdp before user =>
    rw [text] at hline
    rw [parse] at h
    refine parseRDP_ip re stamps (before ++ "EventID:4625 Account Name: ".toList) user hA ?_ h
    rw [hline, rdpText]
    simp only [List.append_assoc]
  | mysql before user password =>
    have hw : passwordWord password ∈ passwordWords := by cases password <;> simp [passwordWord, passwordWords]
    rw [text] at hline
    rw [parse] at h
    exact parseMySQL_ip re stamps hA hw hline hdot h
  | apacheError time fields client user reason rest =>
    obtain ⟨htime, hfields, hclient, hreason⟩ := hd
    rw [text] at hline
    rw [parse] at h
    exact parse_apacheText re stamps hA htime hfields hclient hreason hline hdot h
  | nginxError date head user reason rest =>
    rw [text] at hline
    rw [parse] at h
    exact parse_nginxText re stamps hA hd hline h
  | access vhost ident user time request rest =>
    rw [text] at hline
    rw [parse] at h
    exact parse_accessText re stamps hA hd hline h

end parse

end Obliguard.Agent
