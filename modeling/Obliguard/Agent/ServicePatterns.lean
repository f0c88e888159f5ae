import Obliguard.Agent.LogParsers
import Obliguard.Lib.Regex
import Obliguard.Lib.Separators
import Mathlib.Data.List.Nodup

/-!
# The patterns of the service parsers

What the patterns of the RDP, HTTP, MySQL, FTP and mail parsers find, under the rules of Go's `regexp`: the leftmost
match, and there the one that a backtracking matcher would have tried first. A pattern that begins with `^` matches at
the head of a text only.
-/

namespace Obliguard.Agent

open Rx

/-! ## Parts -/

/-- `\S`. -/
def nonblank (c : Char) : Bool := !blank c

/-- `\w`. -/
def wordChar (c : Char) : Bool := c.isAlphanum || c == '_'

/-- `[0-9A-Fa-f:.]`. -/
def addressChar (c : Char) : Bool :=
  digit c || ('A' ≤ c && c ≤ 'F') || ('a' ≤ c && c ≤ 'f') || c == ':' || c == '.'

/-- `[ \t]`. -/
def spaceTab (c : Char) : Bool := c == ' ' || c == '\t'

def exactly : Nat → (Char → Bool) → Rx
  | 0, _ => lit []
  | n + 1, p => seq (set p) (exactly n p)

/-- `\[[^\]]*\] `. -/
def bracket : Rx := seq (lit ['[']) (seq (many (· != ']')) (lit "] ".toList))

/-! ## RDP -/

/-- `[ \t]*(\S+)\s*$`. -/
def rdpAddress : Rx := seq (many spaceTab) <| seq (capture (some1 nonblank)) <| seq (many blank) ends

/-- `.*?Account Name:[ \t]*(.*?)[ \t]+Source Network Address:` and the address. -/
def rdpNames : Rx :=
  seq (lazy dot) <| seq (lit "Account Name:".toList) <| seq (many spaceTab) <| seq (capture (lazy dot)) <|
    seq (some1 spaceTab) <| seq (lit "Source Network Address:".toList) rdpAddress

def rdpEventRx : Rx :=
  seq (lit "EventID:".toList) <| seq (capture (anyOf ["4625".toList, "4624".toList])) <| seq (stop wordChar) rdpNames

/-! ## HTTP -/

/-- `(?:[^"\\]|\\.)*`. -/
def quotedText : Rx := star true (alt (set fun c => c != '"' && c != '\\') (seq (lit ['\\']) (set dot)))

/-- What follows the address in an access log: ` \S+ (.*?) \[[^\]]*\] "[A-Z]+ (?:[^"\\]|\\.)*" 401(?: |$)`. -/
def accessRest : Rx :=
  seq (lit [' ']) <| seq (some1 nonblank) <| seq (lit [' ']) <| seq (capture (lazy dot)) <| seq (lit [' ']) <|
    seq (seq (lit ['[']) (seq (many (· != ']')) (lit "] \"".toList))) <| seq (some1 Char.isUpper) <| seq (lit [' ']) <|
      seq quotedText <| seq (lit "\" 401".toList) (alt (lit [' ']) ends)

def httpAccess401Rx : Rx := seq (capture (some1 nonblank)) accessRest

def httpVhostPrefixRx : Rx :=
  seq (some1 fun c => nonblank c && c != ':') <| seq (lit [':']) <| seq (some1 digit) (lit [' '])

/-- `(?:: authentication failure for |: password mismatch| not found)`. -/
def apacheReasons : List (List Char) :=
  [": authentication failure for ".toList, ": password mismatch".toList, " not found".toList]

/-- `\[client ([^\]\s]+)\] (AH\d+: )?user (.*?)` and the reason. -/
def apacheClient : Rx :=
  seq (lit "[client ".toList) <| seq (capture (some1 fun c => c != ']' && nonblank c)) <| seq (lit "] ".toList) <|
    seq (opt (capture (seq (lit "AH".toList) (seq (some1 digit) (lit ": ".toList))))) <| seq (lit "user ".toList) <|
      seq (capture (lazy dot)) (anyOf apacheReasons)

def apacheAuthErrRx : Rx := seq bracket (seq (star false bracket) apacheClient)

/-- `\d{4}/\d\d/\d\d \d\d:\d\d:\d\d \[\w+\] \d+#\d+: \*\d+ user "`. -/
def nginxHead : Rx :=
  seq (exactly 4 digit) <| seq (lit ['/']) <| seq (exactly 2 digit) <| seq (lit ['/']) <| seq (exactly 2 digit) <|
    seq (lit [' ']) <| seq (exactly 2 digit) <| seq (lit [':']) <| seq (exactly 2 digit) <| seq (lit [':']) <|
    seq (exactly 2 digit) <| seq (lit " [".toList) <| seq (some1 wordChar) <| seq (lit "] ".toList) <|
    seq (some1 digit) <| seq (lit ['#']) <| seq (some1 digit) <| seq (lit ": *".toList) <| seq (some1 digit) <|
    lit " user \"".toList

/-- `(?:: password mismatch| was not found in "[^"]*")`. -/
def nginxReason : Rx :=
  alt (lit ": password mismatch".toList)
    (seq (lit " was not found in \"".toList) (seq (many (· != '"')) (lit ['"'])))

/-- `, client: ([^,\s]+), server: `. -/
def nginxClient : Rx :=
  seq (lit ", client: ".toList) <| seq (capture (some1 fun c => c != ',' && nonblank c)) (lit ", server: ".toList)

def nginxAuthErrRx : Rx :=
  seq nginxHead <| seq (capture (many dot)) <| seq (lit ['"']) <| seq nginxReason nginxClient

/-! ## MySQL -/

/-- `'@'([^']*)' \(using password: (?:YES|NO)\)`. -/
def mysqlHost : Rx :=
  seq (lit "'@'".toList) <| seq (capture (many (· != '\''))) <| seq (lit "' (using password: ".toList) <|
    seq (anyOf ["YES".toList, "NO".toList]) (lit [')'])

def mysqlFailRx : Rx := seq (lit "Access denied for user '".toList) (seq (capture (many dot)) mysqlHost)

/-! ## FTP -/

/-- `(OK|FAIL) LOGIN: Client "([0-9A-Fa-f:.]+)"`. -/
def vsftpdResult : Rx :=
  seq (capture (anyOf ["OK".toList, "FAIL".toList])) <| seq (lit " LOGIN: Client \"".toList) <|
    seq (capture (some1 addressChar)) (lit ['"'])

def vsftpdLoginRx : Rx :=
  seq (lit "[pid ".toList) <| seq (some1 digit) <| seq (lit "] ".toList) <|
    seq (opt (seq (lit ['[']) (seq (capture (lazy dot)) (lit "] ".toList)))) vsftpdResult

def pureFtpdFailRx : Rx :=
  seq (lit "(?@".toList) <| seq (capture (some1 addressChar)) <|
    seq (lit ") [WARNING] Authentication failed for user [".toList) <| seq (capture (many dot)) (lit [']'])

/-- `[^\s()\[\]]`. -/
def hostChar (c : Char) : Bool := nonblank c && c != '(' && c != ')' && c != '[' && c != ']'

/-- ` \(Login failed\)` and `: no such user found`. -/
def proftpdReasons : List (List Char) := [" (Login failed)".toList, ": no such user found".toList]

def proftpdFailRx : Rx :=
  seq (lit ['(']) <| seq (many hostChar) <| seq (lit ['[']) <| seq (capture (some1 addressChar)) <|
    seq (lit "]) - USER ".toList) <| seq (capture (lazy dot)) (anyOf proftpdReasons)

def pamServices : List (List Char) := ["vsftpd".toList, "proftpd".toList, "pure-ftpd".toList, "ftp".toList]

/-- ` ruser=(.*?) rhost=(\S*)`. -/
def pamHosts : Rx :=
  seq (lit " ruser=".toList) <| seq (capture (lazy dot)) <| seq (lit " rhost=".toList) (capture (many nonblank))

def pamFailRx : Rx :=
  seq (lit "pam_unix(".toList) <| seq (anyOf pamServices) <| seq (stop wordChar) <| seq (many (· != ')')) <|
    seq (lit "): authentication failure;".toList) <| seq (lazy dot) pamHosts

/-! ## Mail -/

/-- `, rip=([0-9A-Fa-f:.]+)(?:,|\s*$)`. -/
def dovecotAddress : Rx :=
  seq (lit ", rip=".toList) <| seq (capture (some1 addressChar)) (alt (lit [',']) (seq (many blank) ends))

def dovecotFailRx : Rx :=
  seq (lit "auth failed, ".toList) <| seq (capture (some1 digit)) <| seq (lit " attempt".toList) <|
    seq (opt (lit ['s'])) <| seq (stop wordChar) <| seq (many dot) dovecotAddress

def dovecotUserRx : Rx := seq (lit ": user=<".toList) (seq (capture (lazy dot)) (lit ['>']))

/-- `\]: SASL [\w-]+ authentication failed\b(?:: (Connection lost to authentication server))?`. -/
def postfixSasl : Rx :=
  seq (lit "]: SASL ".toList) <| seq (some1 fun c => wordChar c || c == '-') <|
    seq (lit " authentication failed".toList) <| seq (stop wordChar) <|
      opt (seq (lit ": ".toList) (capture (lit "Connection lost to authentication server".toList)))

def postfixFailRx : Rx :=
  seq (lit "warning: ".toList) <| seq (some1 fun c => nonblank c && c != '[' && c != ']') <| seq (lit ['[']) <|
    seq (capture (some1 addressChar)) postfixSasl

def postfixUserRx : Rx := seq (lit ", sasl_username=".toList) (seq (capture (many dot)) ends)

/-! ## Lookup -/

/-- The patterns of the parsers, and what finds them in a text. -/
def servicePatterns : List (String × (List Char → Option (List (List Char)))) :=
  [(rdpEventRe, rdpEventRx.find), (httpAccess401Re, httpAccess401Rx.matchHead),
    (apacheAuthErrRe, apacheAuthErrRx.matchHead), (nginxAuthErrRe, nginxAuthErrRx.matchHead),
    (vsftpdLoginRe, vsftpdLoginRx.find), (pureFtpdFailRe, pureFtpdFailRx.find), (proftpdFailRe, proftpdFailRx.find),
    (pamFailRe, pamFailRx.find), (dovecotFailRe, dovecotFailRx.find), (dovecotUserRe, dovecotUserRx.find),
    (postfixFailRe, postfixFailRx.find), (postfixUserRe, postfixUserRx.find), (mysqlFailRe, mysqlFailRx.find)]

/-- What Go's `regexp` finds: the patterns of these parsers as above, the others as `re` finds them. -/
def serviceRegexp (re : Regexp) : Regexp :=
  { re with
    findStringSubmatch := fun pattern s =>
      match servicePatterns.lookup pattern with
      | some find => (find s.toList).map (·.map String.ofList)
      | none => re.findStringSubmatch pattern s
    findStringIndex := fun pattern s =>
      if pattern = httpVhostPrefixRe then
        (httpVhostPrefixRx.matchHead s.toList).map fun m => (0, (m.headD []).length)
      else re.findStringIndex pattern s }

theorem lookup_of_mem {α β : Type} [BEq α] [LawfulBEq α] {a : α} {b : β} {l : List (α × β)}
    (hl : (l.map Prod.fst).Nodup) (h : (a, b) ∈ l) : l.lookup a = some b := by
  induction l with
  | nil => exact absurd h List.not_mem_nil
  | cons p l ih =>
    obtain ⟨hp, hl⟩ := List.nodup_cons.mp hl
    rcases List.mem_cons.mp h with rfl | h
    · exact List.lookup_cons_self
    · have hne : a ≠ p.1 := by
        rintro rfl
        exact hp (List.mem_map.mpr ⟨_, h, rfl⟩)
      rw [List.lookup_cons, beq_false_of_ne hne]
      exact ih hl h

theorem nodup_servicePatterns : (servicePatterns.map Prod.fst).Nodup := by
  rw [servicePatterns]
  simp only [List.map_cons, List.map_nil]
  decide

theorem find_of_mem (re : Regexp) (s : String) {pattern : String} (find : List Char → Option (List (List Char)))
    (h : (pattern, find) ∈ servicePatterns) :
    (serviceRegexp re).findStringSubmatch pattern s = (find s.toList).map (·.map String.ofList) := by
  simp only [serviceRegexp, lookup_of_mem nodup_servicePatterns h]

end Obliguard.Agent
