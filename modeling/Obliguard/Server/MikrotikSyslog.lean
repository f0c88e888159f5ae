import Obliguard.Agent.ServiceLines
import Obliguard.Server.BanEngine
import Obliguard.Server.Converters

/-!
# The syslog messages of MikroTik routers

`parseMikroTikSyslog` reads a login or a denied connection from a line. The address of a login is the last word but
two of the line, behind every text of the client: whatever the header and the user name are, a failed login is of the
address that the router wrote (`ip_of_parseMikroTikSyslog`).
-/

namespace Obliguard.Server

open Agent IpValidation Rx Text

/-! ## The patterns -/

/-- A text in any case, `text` being in lower case. -/
def litI (text : List Char) : Rx := text.foldr (fun x r => seq (set fun c => c.toLower == x) r) (lit [])

/-- `\S` of JavaScript. -/
def jsNonblank (c : Char) : Bool := !isJsSpace c

/-- `.` of JavaScript. -/
def jsDot (c : Char) : Bool := c != '\n' && c != '\r' && c.toNat != 0x2028 && c.toNat != 0x2029

/-- `[\w-]`. -/
def methodChar (c : Char) : Bool := wordChar c || c == '-'

/-- ` via ([\w-]+)$`. -/
def viaMethod : Rx := seq (litI " via ".toList) (seq (capture (some1 methodChar)) ends)

def loginFailureRe : Rx :=
  seq (litI "login failure for user ".toList) <| seq (capture (many jsDot)) <| seq (litI " from ".toList) <|
    seq (capture (some1 jsNonblank)) viaMethod

/-- `(?:\/\S+)? connect from (\S+)$`. -/
def connectFrom : Rx :=
  seq (opt (seq (lit ['/']) (some1 jsNonblank))) <| seq (litI " connect from ".toList) <|
    seq (capture (some1 jsNonblank)) ends

def deniedConnectRe : Rx :=
  seq (litI "denied ".toList) <| seq (capture (seq (set jsNonblank) (lazy jsNonblank))) connectFrom

def loginSuccessRe : Rx :=
  seq (litI "user ".toList) <| seq (capture (many jsDot)) <| seq (litI " logged in from ".toList) <|
    seq (capture (some1 jsNonblank)) viaMethod

/-- `(?:\.\d+)?`. -/
def fraction : Rx := opt (seq (lit ['.']) (some1 digit))

/-- `\d\d:\d\d:\d\d`. -/
def clock : Rx :=
  seq (exactly 2 digit) <| seq (lit [':']) <| seq (exactly 2 digit) <| seq (lit [':']) (exactly 2 digit)

/-- `Jan 15 10:20:30`. -/
def rfc3164 : Rx :=
  seq (exactly 3 Char.isAlpha) <| seq (lit [' ']) <| seq (opt (lit [' '])) <| seq (set digit) <| seq (opt (set digit)) <|
    seq (lit [' ']) <| seq clock fraction

/-- `2024-01-15T10:20:30.000+01:00`. -/
def rfc3339 : Rx :=
  seq (exactly 4 digit) <| seq (lit ['-']) <| seq (exactly 2 digit) <| seq (lit ['-']) <| seq (exactly 2 digit) <|
    seq (set fun c => c == 'T' || c == 't' || c == ' ') <| seq clock <| seq fraction <|
    opt (alt (set fun c => c == 'Z' || c == 'z')
      (seq (set fun c => c == '+' || c == '-') <| seq (exactly 2 digit) <| seq (opt (lit [':'])) (exactly 2 digit)))

/-- `jan/15/2024 10:20:30`. -/
def routerOsDate : Rx :=
  seq (exactly 3 Char.isAlpha) <| seq (lit ['/']) <| seq (exactly 2 digit) <| seq (lit ['/']) <|
    seq (exactly 4 digit) <| seq (lit [' ']) clock

def timestampRe : Rx := seq (alt rfc3164 (alt rfc3339 routerOsDate)) (some1 (· == ' '))

/-- `headerTokenRe`. -/
def isHeaderToken (token : List Char) : Bool :=
  token ≠ [] && token.all fun c =>
    wordChar c || c == '.' || c == ':' || c == ',' || c == '-' || c == '[' || c == ']'

/-! ## Messages -/

/-- `MikroTikSyslogEvent`. -/
structure MikroTikSyslogEvent where
  ip : List Char
  username : List Char
  service : String
  eventType : String
  rawLog : List Char
deriving DecidableEq

/-- `MAX_HEADER_TOKENS`. -/
def maxHeaderTokens : Nat := 2

/-- `mapService`, with JavaScript's `toLowerCase`. -/
def mapService (toLowerCase : List Char → String) (method : List Char) : String :=
  let m := toLowerCase method
  if m = "ssh" ∨ m = "telnet" then "mikrotik_ssh"
  else if m = "winbox" ∨ "winbox".toList.isPrefixOf m.toList then "mikrotik_winbox"
  else if m = "web" ∨ m = "webfig" ∨ m = "www" ∨ m = "www-ssl" then "mikrotik_web"
  else if m = "api" ∨ m = "api-ssl" then "mikrotik_api"
  else if m = "ftp" then "mikrotik_ftp"
  else "mikrotik_" ++ m

/-- `/^::ffff:(\d+\.\d+\.\d+\.\d+)$/i`. -/
def mappedRe : Rx :=
  seq (litI "::ffff:".toList) <| seq (capture (seq (some1 digit) <| seq (lit ['.']) <| seq (some1 digit) <|
    seq (lit ['.']) <| seq (some1 digit) <| seq (lit ['.']) (some1 digit))) ends

/-- `cleanSyslogIp`. -/
def cleanSyslogIp (raw : List Char) : Option (List Char) :=
  let s := stripBrackets (jsTrim raw)
  let s := match mappedRe.matchHead s with
    | some m => m.getD 1 []
    | none => s
  match isIPZoned s with
  | some .v4 => some s
  | some .v6 => some (s.map Char.toLower)
  | none => none

/-- `hasInjectedFrom`: `/ from[\s:]/i`. -/
def hasInjectedUser (username : List Char) : Bool :=
  ((seq (litI " from".toList) (set fun c => isJsSpace c || c == ':')).find username).isSome

section parse
variable (toLowerCase : List Char → String) (raw : List Char)

/-- `matchMessage`: `some none` is a known event that is refused. -/
def matchMessage (msg : List Char) : Option (Option MikroTikSyslogEvent) :=
  match loginFailureRe.matchHead msg with
  | some m =>
    match cleanSyslogIp (m.getD 2 []) with
    | none => some none
    | some ip =>
      if hasInjectedUser (m.getD 1 []) then some none
      else some (some ⟨ip, m.getD 1 [], mapService toLowerCase (m.getD 3 []), "auth_failure", raw⟩)
  | none =>
    match deniedConnectRe.matchHead msg with
    | some m =>
      match cleanSyslogIp (m.getD 2 []) with
      | none => some none
      | some ip => some (some ⟨ip, [], mapService toLowerCase (m.getD 1 []), "auth_failure", raw⟩)
    | none =>
      match loginSuccessRe.matchHead msg with
      | some m =>
        match cleanSyslogIp (m.getD 2 []) with
        | none => some none
        | some ip =>
          if hasInjectedUser (m.getD 1 []) then some none
          else some (some ⟨ip, m.getD 1 [], mapService toLowerCase (m.getD 3 []), "auth_success", raw⟩)
      | none => none

/-- The message, behind at most `tokens` words of a header. -/
def matchBehind : Nat → List Char → Option MikroTikSyslogEvent
  | tokens, rest =>
    match matchMessage toLowerCase raw rest with
    | some ev => ev
    | none =>
      match tokens with
      | 0 => none
      | tokens + 1 =>
        let token := rest.takeWhile (· ≠ ' ')
        if token = [] ∨ token = rest ∨ isHeaderToken token = false then none
        else matchBehind tokens ((rest.drop (token.length + 1)).dropWhile isJsSpace)

/-- The line without its priority `<NNN>`. -/
def stripPriority (line : List Char) : List Char :=
  let head := line.takeWhile (· ≠ '>')
  if line.head? = some '<' ∧ head ≠ line ∧ 0 < utf16Length head ∧ utf16Length head < 6 then line.drop (head.length + 1)
  else line

/-- `line.replace(timestampRe, '')`. -/
def stripTimestamp (line : List Char) : List Char :=
  match timestampRe.matchHead line with
  | some m => line.drop (m.getD 0 []).length
  | none => line

/-- `parseMikroTikSyslog`. -/
def parseMikroTikSyslog : Option MikroTikSyslogEvent :=
  matchBehind toLowerCase raw maxHeaderTokens (stripTimestamp ((stripPriority (jsTrim raw)).dropWhile isJsSpace))

end parse

/-! ## The end of a message -/

section address
variable {toLowerCase : List Char → String} {raw s v m A M : List Char} {c : List (List Char)}

theorem mem_run_litI {text : List Char} : (c, v) ∈ run (litI text) s ↔
    c = [] ∧ ∃ u, s = u ++ v ∧ u.map Char.toLower = text := by
  induction text generalizing s c with
  | nil =>
    rw [litI, List.foldr_nil, mem_run_lit]
    simp
  | cons x text ih =>
    have hcons : litI (x :: text) = seq (set fun c => c.toLower == x) (litI text) := rfl
    rw [hcons, mem_run_set_seq]
    simp only [ih, beq_iff_eq, List.map_eq_cons_iff]
    constructor
    · rintro ⟨y, m, hy, rfl, rfl, u, rfl, hu⟩
      exact ⟨rfl, y :: u, rfl, y, u, rfl, hy, hu⟩
    · rintro ⟨rfl, _, rfl, y, u, rfl, hy, hu⟩
      exact ⟨y, u ++ v, hy, rfl, rfl, u, rfl, hu⟩

theorem mem_run_litI_seq {text : List Char} {b : Rx} : (c, v) ∈ run (seq (litI text) b) s ↔
    ∃ u m, s = u ++ m ∧ u.map Char.toLower = text ∧ (c, v) ∈ run b m := by
  rw [mem_run_seq]
  constructor
  · rintro ⟨c₁, m, c₂, hm, hv, rfl⟩
    obtain ⟨rfl, u, rfl, hu⟩ := mem_run_litI.mp hm
    exact ⟨u, m, rfl, hu, hv⟩
  · rintro ⟨u, m, rfl, hu, hv⟩
    exact ⟨[], m, c, mem_run_litI.mpr ⟨rfl, u, rfl, hu⟩, hv, rfl⟩

theorem isJsSpace_toLower (x : Char) : isJsSpace x.toLower = isJsSpace x := by
  rcases toLower_cases x with h | ⟨n, h1, h2, rfl⟩
  · rw [h]
  · interval_cases n <;> decide

theorem blanks_of_map_toLower {u w : List Char} (hw : ∀ x ∈ w, isJsSpace x = false)
    (h : u.map Char.toLower = ' ' :: (w ++ [' '])) : ∃ b x b', u = b :: (x ++ [b']) ∧ isJsSpace b = true ∧
      isJsSpace b' = true ∧ (∀ y ∈ x, isJsSpace y = false) ∧ x.map Char.toLower = w := by
  obtain ⟨b, u, rfl, hb, hu⟩ := List.map_eq_cons_iff.mp h
  obtain ⟨x, y, rfl, hx, hy⟩ := List.map_eq_append_iff.mp hu
  obtain ⟨b', rfl, hb'⟩ := List.map_eq_singleton_iff.mp hy
  refine ⟨b, x, b', rfl, ?_, ?_, ?_, hx⟩
  · rw [← isJsSpace_toLower, hb]
    decide
  · rw [← isJsSpace_toLower, hb']
    decide
  · intro y hy
    rw [← isJsSpace_toLower]
    exact hw _ (hx ▸ List.mem_map_of_mem hy)

/-- A word as the router writes it. -/
def JsWord (w : List Char) : Prop := w ≠ [] ∧ ∀ c ∈ w, isJsSpace c = false

/-- What follows the user name. -/
def loginEnd (A M : List Char) : List Char := " from ".toList ++ (A ++ (" via ".toList ++ M))

theorem login_end_unique {Q P X x M' : List Char} {b₀ b b' : Char} (hA : JsWord A) (hM : JsWord M)
    (hb₀ : isJsSpace b₀ = true) (hb : isJsSpace b = true) (hb' : isJsSpace b' = true)
    (hX : ∀ c ∈ X, isJsSpace c = false) (hx : ∀ c ∈ x, isJsSpace c = false) (hM' : ∀ c ∈ M', isJsSpace c = false)
    (h : Q ++ loginEnd A M = P ++ b₀ :: (X ++ b :: (x ++ b' :: M'))) : X = A := by
  have hvia : ∀ c ∈ "via".toList, isJsSpace c = false := by
    simp only [← Bool.not_eq_true']
    exact List.all_eq_true.mp (by decide)
  have hleft : Q ++ loginEnd A M = ((Q ++ " from".toList ++ ' ' :: A) ++ ' ' :: "via".toList) ++ ' ' :: M := by
    rw [loginEnd]
    simp only [List.append_assoc]
    rfl
  have hright : P ++ b₀ :: (X ++ b :: (x ++ b' :: M')) = ((P ++ b₀ :: X) ++ b :: x) ++ b' :: M' := by
    simp only [List.append_assoc, List.cons_append]
  rw [hleft, hright] at h
  obtain ⟨h₁, -, -⟩ := append_last_inj hM.2 hM' (by decide) hb' h
  obtain ⟨h₂, -, -⟩ := append_last_inj hvia hx (by decide) hb h₁
  obtain ⟨-, -, rfl⟩ := append_last_inj hA.2 hX (by decide) hb₀ h₂
  rfl

theorem isJsSpace_of_methodChar {x : Char} (h : methodChar x = true) : isJsSpace x = false := by
  refine (space_of_clientChar ?_).2.1
  simp only [methodChar, wordChar, Bool.or_eq_true, beq_iff_eq] at h
  rcases h with (h | rfl) | rfl
  · simp [clientChar, zoneChar, h]
  · decide
  · decide

theorem mem_run_viaMethod (h : (c, v) ∈ run viaMethod s) : ∃ b x b' M', s = b :: (x ++ b' :: M') ∧
    isJsSpace b = true ∧ isJsSpace b' = true ∧ (∀ y ∈ x, isJsSpace y = false) ∧ (∀ y ∈ M', isJsSpace y = false) := by
  simp only [viaMethod, mem_run_litI_seq, mem_run_capture_some1_seq, mem_run_ends] at h
  obtain ⟨u, _, rfl, hu, M', _, _, rfl, hM', ⟨rfl, rfl, rfl⟩, rfl⟩ := h
  have hvia : ∀ c ∈ "via".toList, isJsSpace c = false := by
    simp only [← Bool.not_eq_true']
    exact List.all_eq_true.mp (by decide)
  obtain ⟨b, x, b', rfl, hb, hb', hx, -⟩ := blanks_of_map_toLower (w := "via".toList) hvia hu
  refine ⟨b, x, b', M', by simp, hb, hb', hx, ?_⟩
  exact fun y hy => isJsSpace_of_methodChar (hM'.2 y hy)

/-- `NAME from ADDRESS via METHOD` to the end of the message, behind `start`. -/
def loginRx (start mark : List Char) : Rx :=
  seq (litI start) <| seq (capture (many jsDot)) <| seq (litI (mark ++ [' '])) <|
    seq (capture (some1 jsNonblank)) viaMethod

theorem login_address {start mark Q : List Char} (hA : JsWord A) (hM : JsWord M) (htext : Q ++ loginEnd A M = s ++ m)
    (h : (c, v) ∈ run (loginRx start mark) m) : ∃ name method, c = name :: A :: method := by
  simp only [loginRx, mem_run_litI_seq, mem_run_capture_many_seq, mem_run_capture_some1_seq] at h
  obtain ⟨u, _, rfl, -, name, _, _, rfl, -, ⟨w, _, rfl, hw, X, _, c', rfl, hX, hvia, rfl⟩, rfl⟩ := h
  obtain ⟨y, t, rfl, -, ht⟩ := List.map_eq_append_iff.mp hw
  obtain ⟨b₀, rfl, hb₀⟩ := List.map_eq_singleton_iff.mp ht
  obtain ⟨b, x, b', M', rfl, hb, hb', hx, hM'⟩ := mem_run_viaMethod hvia
  have hb₀' : isJsSpace b₀ = true := by
    rw [← isJsSpace_toLower, hb₀]
    decide
  have hX' : ∀ y ∈ X, isJsSpace y = false := by
    simpa only [jsNonblank, Bool.not_eq_true'] using hX.2
  obtain rfl := login_end_unique (P := s ++ (u ++ (name ++ y))) hA hM hb₀' hb hb' hX' hx hM'
    (by simpa only [List.append_assoc, List.cons_append, List.nil_append] using htext)
  exact ⟨name, c', rfl⟩

theorem denied_none {Q : List Char} (hM : JsWord M) (htext : Q ++ loginEnd A M = s ++ m) :
    deniedConnectRe.matchHead m = none := by
  rw [matchHead_eq_none, List.eq_nil_iff_forall_not_mem]
  rintro ⟨c, v⟩ h
  rw [deniedConnectRe, mem_run_litI_seq] at h
  obtain ⟨u, _, rfl, -, h⟩ := h
  obtain ⟨_, t, _, hservice, hfrom, -⟩ := mem_run_seq.mp h
  obtain ⟨service, rfl⟩ := exists_append_of_mem_run hservice
  obtain ⟨_, t', _, hdude, hconnect, -⟩ := mem_run_seq.mp hfrom
  obtain ⟨dude, rfl⟩ := exists_append_of_mem_run hdude
  simp only [mem_run_litI_seq, mem_run_capture_some1_seq, mem_run_ends] at hconnect
  obtain ⟨w, _, rfl, hw, X, _, _, rfl, hX, ⟨-, rfl, -⟩, -⟩ := hconnect
  -- ` connect from ` is ` connect`, a blank, `from` and a blank
  have hmark : " connect from ".toList = " connect".toList ++ (' ' :: ("from".toList ++ [' '])) := rfl
  rw [hmark] at hw
  obtain ⟨y, t, rfl, -, ht⟩ := List.map_eq_append_iff.mp hw
  have hword : ∀ x ∈ "from".toList, isJsSpace x = false := by
    simp only [← Bool.not_eq_true']
    exact List.all_eq_true.mp (by decide)
  have hvia : ∀ x ∈ "via".toList, isJsSpace x = false := by
    simp only [← Bool.not_eq_true']
    exact List.all_eq_true.mp (by decide)
  obtain ⟨b, x, b', rfl, hb, hb', hx, hfrom⟩ := blanks_of_map_toLower hword ht
  have hX' : ∀ y ∈ X, isJsSpace y = false := by
    simpa only [jsNonblank, Bool.not_eq_true'] using hX.2
  have hleft : Q ++ loginEnd A M = ((Q ++ (" from ".toList ++ A)) ++ ' ' :: "via".toList) ++ ' ' :: M := by
    rw [loginEnd]
    simp only [List.append_assoc]
    rfl
  have hright : Q ++ loginEnd A M = ((s ++ (u ++ (service ++ (dude ++ y)))) ++ b :: x) ++ b' :: X := by
    rw [htext]
    simp only [List.append_assoc, List.cons_append, List.nil_append, List.append_nil]
  obtain ⟨h₁, -, -⟩ := append_last_inj hM.2 hX' (by decide) hb' (hleft.symm.trans hright)
  obtain ⟨-, -, rfl⟩ := append_last_inj hvia hx (by decide) hb h₁
  exact absurd hfrom (by decide)

theorem loginFailureRe_eq : loginFailureRe = loginRx "login failure for user ".toList " from".toList := rfl

theorem loginSuccessRe_eq : loginSuccessRe = loginRx "user ".toList " logged in from".toList := rfl

theorem matchHead_login {start mark Q : List Char} {g : List (List Char)} (hA : JsWord A) (hM : JsWord M)
    (htext : Q ++ loginEnd A M = s ++ m) (h : (loginRx start mark).matchHead m = some g) : g.getD 2 [] = A := by
  rw [matchHead, Option.map_eq_some_iff] at h
  obtain ⟨⟨c, v⟩, hhead, rfl⟩ := h
  obtain ⟨name, method, rfl⟩ := login_address hA hM htext (List.mem_of_head? hhead)
  rfl

theorem ip_of_matchMessage {Q : List Char} {ev : MikroTikSyslogEvent} (hA : JsWord A) (hM : JsWord M)
    (htext : Q ++ loginEnd A M = s ++ m) (h : matchMessage toLowerCase raw m = some (some ev)) :
    some ev.ip = cleanSyslogIp A := by
  rw [matchMessage, denied_none hM htext, loginFailureRe_eq, loginSuccessRe_eq] at h
  split at h
  · rename_i g hg
    rw [matchHead_login hA hM htext hg] at h
    split at h
    · exact absurd h (by simp)
    · rename_i ip hip
      split at h
      · exact absurd h (by simp)
      · obtain rfl := Option.some.inj (Option.some.inj h)
        exact hip.symm
  · dsimp only at h
    split at h
    · rename_i g hg
      rw [matchHead_login hA hM htext hg] at h
      split at h
      · exact absurd h (by simp)
      · rename_i ip hip
        split at h
        · exact absurd h (by simp)
        · obtain rfl := Option.some.inj (Option.some.inj h)
          exact hip.symm
    · contradiction

theorem ip_of_matchBehind {Q : List Char} {ev : MikroTikSyslogEvent} {tokens : Nat} (hA : JsWord A) (hM : JsWord M)
    (htext : Q ++ loginEnd A M = s ++ m) (h : matchBehind toLowerCase raw tokens m = some ev) :
    some ev.ip = cleanSyslogIp A := by
  induction tokens generalizing s m with
  | zero =>
    rw [matchBehind] at h
    split at h
    · rename_i ev' hev
      subst h
      exact ip_of_matchMessage hA hM htext hev
    · contradiction
  | succ tokens ih =>
    rw [matchBehind] at h
    split at h
    · rename_i ev' hev
      subst h
      exact ip_of_matchMessage hA hM htext hev
    · dsimp only at h
      split at h
      · contradiction
      · -- the search goes on in an end of the line
        obtain ⟨t, ht⟩ := (List.dropWhile_suffix isJsSpace (l := m.drop ((m.takeWhile (· ≠ ' ')).length + 1))).trans
          (List.drop_suffix _ m)
        refine ih (s := s ++ t) ?_ h
        rw [List.append_assoc, ht]
        exact htext

/-! ## The line -/

theorem jsTrim_append (x : List Char) (hM : JsWord M) : jsTrim (x ++ M) <:+ x ++ M := by
  obtain ⟨M', b, rfl⟩ := (List.eq_nil_or_concat M).resolve_left hM.1
  have hb : isJsSpace b = false := hM.2 b (by simp)
  have hdrop : (x ++ M'.concat b).dropWhile isJsSpace = (x ++ M').dropWhile isJsSpace ++ [b] := by
    rw [List.concat_eq_append, ← List.append_assoc, List.dropWhile_append]
    split
    · rename_i hnil
      rw [List.isEmpty_iff.mp hnil, List.dropWhile_cons_of_neg (by simp [hb]), List.nil_append]
    · rfl
  have htrim : jsTrim (x ++ M'.concat b) = (x ++ M'.concat b).dropWhile isJsSpace := by
    rw [jsTrim, trimBy, hdrop, List.reverse_append, List.reverse_singleton, List.singleton_append,
      List.dropWhile_cons_of_neg (by simp [hb]), List.reverse_cons, List.reverse_reverse]
  rw [htrim]
  exact List.dropWhile_suffix _

theorem stripPriority_suffix (line : List Char) : stripPriority line <:+ line := by
  rw [stripPriority]
  split
  · exact List.drop_suffix _ _
  · exact List.suffix_refl _

theorem stripTimestamp_suffix (line : List Char) : stripTimestamp line <:+ line := by
  rw [stripTimestamp]
  split
  · exact List.drop_suffix _ _
  · exact List.suffix_refl _

/-- Behind any header, a login is of the address that the router wrote. -/
theorem ip_of_parseMikroTikSyslog {Q : List Char} {ev : MikroTikSyslogEvent} (hA : JsWord A) (hM : JsWord M)
    (h : parseMikroTikSyslog toLowerCase (Q ++ loginEnd A M) = some ev) : some ev.ip = cleanSyslogIp A := by
  have htrim : jsTrim (Q ++ loginEnd A M) <:+ Q ++ loginEnd A M := by
    simpa only [loginEnd, List.append_assoc] using
      jsTrim_append (Q ++ (" from ".toList ++ (A ++ " via ".toList))) hM
  obtain ⟨s, hs⟩ := (stripTimestamp_suffix _).trans
    ((List.dropWhile_suffix isJsSpace).trans ((stripPriority_suffix _).trans htrim))
  rw [parseMikroTikSyslog] at h
  exact ip_of_matchBehind hA hM hs.symm h

end address

/-- The failure lines of RDP, MySQL, Apache, nginx and RouterOS yield events of the client's address only. -/
theorem service_lines_accuse_client (re : Regexp) (stamps : Nat → Stamp) (svcKey : String)
    (toLowerCase : List Char → String) (A : List Char) (hA : ClientAddr A) :
    (∀ d : ServiceLine, d.Logged → (∀ c ∈ d.text A, dot c = true) →
      ∀ ev ∈ d.parse re stamps svcKey (d.text A), ev.ip = cleanIP (String.ofList A)) ∧
    ∀ header user method : List Char, JsWord method → ∀ ev,
      parseMikroTikSyslog toLowerCase
        (header ++ ("login failure for user ".toList ++ (user ++ loginEnd A method))) = some ev →
      some ev.ip = cleanSyslogIp A := by
  refine ⟨?_, ?_⟩
  · intro d hd hdot ev hev
    exact d.ip_of_mem_parse re stamps hd hA rfl hdot hev
  · intro header user method hmethod ev hev
    have hword : JsWord A := ⟨hA.ne_nil, fun c hc => (space_of_clientChar (hA.client c hc)).2.1⟩
    have hline : parseMikroTikSyslog toLowerCase
        ((header ++ ("login failure for user ".toList ++ user)) ++ loginEnd A method) = some ev := by
      simpa only [List.append_assoc] using hev
    exact ip_of_parseMikroTikSyslog hword hmethod hline

def forgingMysqlLine : ServiceLine :=
  .mysql [] "x'@'198.51.100.66' (using password: YES)".toList true

def forgingRouterOsLine : List Char :=
  "<134>gw system,error ".toList ++ ("login failure for user ".toList ++
    ("x from 198.51.100.66 via ssh".toList ++ loginEnd "192.0.2.7".toList "ssh".toList))

theorem service_lines_accuse_client_forging :
    (∀ ev ∈ forgingMysqlLine.parse ⟨fun _ _ => none, fun _ _ => none, fun _ => none⟩ (fun _ => ⟨"", ""⟩) "mysql"
      (forgingMysqlLine.text "192.0.2.7".toList), ev.ip = cleanIP (String.ofList "192.0.2.7".toList)) ∧
    ∀ ev, parseMikroTikSyslog (fun m => String.ofList (m.map Char.toLower)) forgingRouterOsLine = some ev →
      some ev.ip = cleanSyslogIp "192.0.2.7".toList := by
  have haddress : ClientAddr "192.0.2.7".toList := ⟨"192.0.2.7".toList, [], rfl, by decide, .inl rfl⟩
  have hssh : JsWord "ssh".toList := by
    refine ⟨by decide, ?_⟩
    simp only [← Bool.not_eq_true']
    exact List.all_eq_true.mp (by decide)
  have hlines := service_lines_accuse_client ⟨fun _ _ => none, fun _ _ => none, fun _ => none⟩ (fun _ => ⟨"", ""⟩)
    "mysql" (fun m => String.ofList (m.map Char.toLower)) "192.0.2.7".toList haddress
  exact ⟨hlines.1 forgingMysqlLine trivial (List.all_eq_true.mp (by decide)), hlines.2 _ _ _ hssh⟩

end Obliguard.Server
