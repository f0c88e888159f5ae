import Obliguard.Lib.Aead
import Obliguard.Lib.Bytes
import Obliguard.Lib.Runs

/-!
# Stored credentials

`encryptSecret` and `decryptSecret` of `server/src/utils/crypto.ts`, over any authenticated cipher and any
key derivation, and a store that they write while the secrets of the configuration change.

A value is tried with the current key, then with the session secret's and the previous one's, so it stays
readable as long as its key is configured. The empty plaintext is the exception: its ciphertext has no bytes,
and `decryptSecret` refuses a text whose third part is empty. `stored_readable_iff` is the whole condition.
-/

namespace Obliguard.Server

open Bytes Numeral Runs

structure CryptoKeyConfig where
  sessionSecret : String
  credentialEncryptionKey : Option String
  previousSessionSecret : Option String
  /-- `config.ts` has a default for it. -/
  sessionSecret_ne : sessionSecret ≠ ""

namespace CryptoKeyConfig

/-- The secret that new values are encrypted with: the dedicated one, unless it is missing or empty. -/
def encryptionSecret (c : CryptoKeyConfig) : String :=
  match c.credentialEncryptionKey with
  | some s => if s = "" then c.sessionSecret else s
  | none => c.sessionSecret

/-- The secrets that are not empty, current first, without duplicates. -/
def secrets (c : CryptoKeyConfig) : List String :=
  ([c.credentialEncryptionKey, some c.sessionSecret, c.previousSessionSecret].filterMap fun s =>
    s.filter (· ≠ "")).eraseDups

theorem encryptionSecret_mem (c : CryptoKeyConfig) : c.encryptionSecret ∈ c.secrets := by
  rw [secrets, List.mem_eraseDups, List.mem_filterMap]
  have hsession : ∃ s ∈ [c.credentialEncryptionKey, some c.sessionSecret, c.previousSessionSecret],
      s.filter (· ≠ "") = some c.sessionSecret :=
    ⟨some c.sessionSecret, by simp, by simp [Option.filter, c.sessionSecret_ne]⟩
  rw [encryptionSecret]
  split
  · rename_i s hs
    split
    · exact hsession
    · rename_i hne
      exact ⟨some s, by simp [hs], by simp [Option.filter, hne]⟩
  · exact hsession

end CryptoKeyConfig

inductive DecryptError
  | invalidFormat
  | noKey
  /-- The cipher threw. -/
  | refused
deriving DecidableEq

section cipher
variable {Key : Type} (aead : Aead Key) (sha256 : String → Key)

/-- Key used for new ciphertexts. -/
def encryptionKey (c : CryptoKeyConfig) : Key := sha256 c.encryptionSecret

/-- Keys accepted for decryption. -/
def decryptionKeys (c : CryptoKeyConfig) : List Key := c.secrets.map sha256

/-- "iv:tag:ciphertext". -/
def sealedText (iv : List UInt8) (s : Sealed) : String :=
  String.ofList (hexText iv ++ ':' :: (hexText s.tag ++ ':' :: hexText s.enc))

/-- `encryptSecret`, with the bytes that `randomBytes` gives it. -/
def encryptSecret (c : CryptoKeyConfig) (iv : List UInt8) (plaintext : String) : String :=
  sealedText iv (aead.encrypt (encryptionKey sha256 c) iv (utf8Bytes plaintext))

/-- The keys in turn; the error of the last one. -/
def decryptLoop (illFormed : List UInt8 → String) (iv : List UInt8) (s : Sealed) :
    DecryptError → List Key → Except DecryptError String
  | lastError, [] => .error lastError
  | _, key :: keys =>
    match aead.decrypt key iv s with
    | some p => .ok (utf8Text illFormed p)
    | none => decryptLoop illFormed iv s .refused keys

def decryptSecret (illFormed : List UInt8 → String) (c : CryptoKeyConfig) (encrypted : String) :
    Except DecryptError String :=
  match encrypted.toList.splitOn ':' with
  | ivHex :: tagHex :: encHex :: _ =>
    if ivHex = [] ∨ tagHex = [] ∨ encHex = [] then .error .invalidFormat
    else decryptLoop aead illFormed (hexBytes ivHex) ⟨hexBytes encHex, hexBytes tagHex⟩ .noKey
      (decryptionKeys sha256 c)
  | _ => .error .invalidFormat

end cipher

/-! ## One value -/

section value
variable {Key : Type} {aead : Aead Key} {sha256 : String → Key} {illFormed : List UInt8 → String}

theorem splitOn_sealedText (iv : List UInt8) (s : Sealed) :
    (sealedText iv s).toList.splitOn ':' = [hexText iv, hexText s.tag, hexText s.enc] := by
  have hcolon : ∀ bs, ':' ∉ hexText bs := not_mem_hexText (by decide)
  rw [sealedText, String.toList_ofList, List.splitOn_append_cons_self_of_not_mem (hcolon _),
    List.splitOn_append_cons_self_of_not_mem (hcolon _), List.splitOn_eq_singleton (hcolon _)]

theorem decryptLoop_encrypt {key : Key} {keys : List Key} (hmem : key ∈ keys)
    (hother : ∀ key' ∈ keys, key' ≠ key → aead.Rejects key key') (iv : List UInt8) (p : String)
    (lastError : DecryptError) :
    decryptLoop aead illFormed iv (aead.encrypt key iv (utf8Bytes p)) lastError keys = .ok p := by
  induction keys generalizing lastError with
  | nil => contradiction
  | cons key' keys ih =>
    rw [decryptLoop]
    by_cases hkey : key' = key
    · rw [hkey, aead.decrypt_encrypt]
      exact congrArg _ (utf8Text_utf8Bytes illFormed p)
    · rw [hother key' List.mem_cons_self hkey iv]
      exact ih ((List.mem_cons.mp hmem).resolve_left (Ne.symm hkey))
        (fun key'' h => hother key'' (List.mem_cons_of_mem _ h)) _

theorem decryptSecret_sealedText (c : CryptoKeyConfig) {key : Key} {iv : List UInt8} (hiv : iv ≠ [])
    (p : String) :
    decryptSecret aead sha256 illFormed c (sealedText iv (aead.encrypt key iv (utf8Bytes p))) =
      if p = "" then .error .invalidFormat
      else decryptLoop aead illFormed iv (aead.encrypt key iv (utf8Bytes p)) .noKey
        (decryptionKeys sha256 c) := by
  have hempty : hexText iv = [] ∨ hexText (aead.encrypt key iv (utf8Bytes p)).tag = [] ∨
      hexText (aead.encrypt key iv (utf8Bytes p)).enc = [] ↔ p = "" := by
    rw [hexText_eq_nil, hexText_eq_nil, hexText_eq_nil, aead.enc_eq_nil, utf8Bytes_eq_nil]
    simp only [hiv, aead.tag_ne_nil, false_or]
  rw [decryptSecret, splitOn_sealedText]
  dsimp only
  simp only [hempty, hexBytes_hexText]

end value

/-! ## A store and its configuration -/

/-- A value in the store, with what it was made from. -/
structure StoredSecret where
  plaintext : String
  secret : String
  value : String

structure SecretStore where
  config : CryptoKeyConfig
  stored : List StoredSecret

inductive SecretAction
  /-- `CREDENTIAL_ENCRYPTION_KEY` is set. -/
  | introduceKey (key : String)
  /-- `SESSION_SECRET` is changed and the old one kept as `PREVIOUS_SESSION_SECRET`. -/
  | rotateSession (secret : String)
  | write (iv : List UInt8) (plaintext : String)

section store
variable {Key : Type} (aead : Aead Key) (sha256 : String → Key)

def secretStep (s : SecretStore) : SecretAction → Option SecretStore
  | .introduceKey key => some { s with config := { s.config with credentialEncryptionKey := some key } }
  | .rotateSession secret =>
    if h : secret ≠ "" then some { s with config := { s.config with
      sessionSecret := secret
      previousSessionSecret := some s.config.sessionSecret
      sessionSecret_ne := h } }
    else none
  | .write iv plaintext =>
    if iv.length = 12 then some { s with
      stored := ⟨plaintext, s.config.encryptionSecret, encryptSecret aead sha256 s.config iv plaintext⟩ ::
        s.stored }
    else none

/-- The value was encrypted under its secret. -/
def StoredSecret.Sound (v : StoredSecret) : Prop :=
  ∃ iv ≠ [], v.value = sealedText iv (aead.encrypt (sha256 v.secret) iv (utf8Bytes v.plaintext))

variable {aead sha256} {s s' : SecretStore} {a : SecretAction}

theorem secretStep_sound (h : ∀ v ∈ s.stored, v.Sound aead sha256) (hs : secretStep aead sha256 s a = some s') :
    ∀ v ∈ s'.stored, v.Sound aead sha256 := by
  cases a with
  | introduceKey key =>
    rw [← Option.some.inj hs]
    exact h
  | rotateSession secret =>
    rw [secretStep] at hs
    split at hs
    · rw [← Option.some.inj hs]
      exact h
    · contradiction
  | write iv plaintext =>
    rw [secretStep] at hs
    split at hs
    · rename_i hiv
      rw [← Option.some.inj hs]
      intro v hv
      rcases List.mem_cons.mp hv with rfl | hv
      · refine ⟨iv, ?_, rfl⟩
        rw [← List.length_pos_iff, hiv]
        exact Nat.succ_pos 11
      · exact h v hv
    · contradiction

theorem write_configured {iv : List UInt8} {plaintext : String}
    (h : secretStep aead sha256 s (.write iv plaintext) = some s') :
    ∃ v rest, s'.stored = v :: rest ∧ v.plaintext = plaintext ∧ v.secret ∈ s'.config.secrets := by
  rw [secretStep] at h
  split at h
  · rw [← Option.some.inj h]
    exact ⟨_, _, rfl, rfl, s.config.encryptionSecret_mem⟩
  · contradiction

end store

/-- After every history of key introductions, rotations and writes: a stored value whose secret is still
configured reads back as its plaintext exactly if that is not empty. -/
theorem stored_readable_iff {Key : Type} (aead : Aead Key) (sha256 : String → Key)
    (illFormed : List UInt8 → String) (c : CryptoKeyConfig) (as : List SecretAction) (s : SecretStore)
    (h : run (secretStep aead sha256) ⟨c, []⟩ as = some s)
    (hreject : ∀ v ∈ s.stored, ∀ key ∈ decryptionKeys sha256 s.config, key ≠ sha256 v.secret →
      aead.Rejects (sha256 v.secret) key) :
    ∀ v ∈ s.stored, v.secret ∈ s.config.secrets →
      (decryptSecret aead sha256 illFormed s.config v.value = .ok v.plaintext ↔ v.plaintext ≠ "") := by
  intro v hv hconfigured
  have hsound : ∀ v ∈ s.stored, v.Sound aead sha256 :=
    run_preserves (fun _ _ _ hs ht => secretStep_sound hs ht) (fun _ hv => absurd hv List.not_mem_nil) h
  obtain ⟨iv, hiv, hvalue⟩ := hsound v hv
  rw [hvalue, decryptSecret_sealedText s.config hiv]
  split
  · rename_i hempty
    exact iff_of_false nofun (not_not_intro hempty)
  · rename_i hne
    have hkey : sha256 v.secret ∈ decryptionKeys sha256 s.config := List.mem_map_of_mem hconfigured
    rw [decryptLoop_encrypt hkey (hreject v hv)]
    exact iff_of_true rfl hne

/-! ## AES-256-GCM on three messages -/

/-- SHA-256 of "old". -/
def oldKey : List UInt8 :=
  [203, 160, 107, 87, 54, 250, 246, 126, 84, 176, 123, 86, 30, 174, 148, 57,
    94, 119, 76, 81, 122, 125, 145, 10, 84, 54, 158, 18, 99, 204, 251, 212]

/-- SHA-256 of "new". -/
def newKey : List UInt8 :=
  [17, 80, 122, 14, 47, 94, 105, 213, 223, 164, 10, 98, 161, 189, 123, 110,
    229, 126, 107, 205, 133, 198, 124, 155, 132, 49, 179, 111, 255, 33, 196, 55]

def sampleSha256 (s : String) : List UInt8 := if s = "old" then oldKey else if s = "new" then newKey else []

def sampleIv : List UInt8 := [0, 1, 2, 3, 4, 5, 6, 7, 8, 9, 10, 11]

/-- The first bytes of the key stream of the old key. -/
def sampleStream (key iv : List UInt8) (i : Nat) : UInt8 :=
  if key = oldKey ∧ iv = sampleIv then [177, 236].getD i 0 else 0

/-- The tags of "pw" under either key and of the empty message; elsewhere the start of the key. -/
def sampleMac (key iv c : List UInt8) : List UInt8 :=
  if key = oldKey ∧ iv = sampleIv ∧ c = [193, 155] then
    [92, 189, 223, 251, 201, 81, 166, 170, 0, 136, 235, 198, 193, 77, 129, 68]
  else if key = oldKey ∧ iv = sampleIv ∧ c = [] then
    [86, 115, 41, 5, 252, 56, 162, 219, 137, 84, 164, 85, 164, 164, 237, 6]
  else if key = newKey ∧ iv = sampleIv ∧ c = [193, 155] then
    [44, 169, 143, 244, 246, 21, 18, 251, 121, 66, 63, 167, 14, 105, 235, 198]
  else (key ++ List.replicate 16 0).take 16

theorem length_sampleMac (key iv c : List UInt8) : (sampleMac key iv c).length = 16 := by
  unfold sampleMac
  split
  · rfl
  split
  · rfl
  split
  · rfl
  · rw [List.length_take, List.length_append, List.length_replicate]
    exact Nat.min_eq_left (Nat.le_add_left 16 _)

def sampleAead : Aead (List UInt8) := Aead.counterMode sampleStream sampleMac length_sampleMac

theorem sampleAead_rejects : sampleAead.Rejects oldKey newKey := by
  refine Aead.counterMode_rejects length_sampleMac fun iv c => ?_
  have hkey : newKey ≠ oldKey := by decide
  have hnew : sampleMac newKey iv c = [44, 169, 143, 244, 246, 21, 18, 251, 121, 66, 63, 167, 14, 105, 235, 198] ∨
      sampleMac newKey iv c = newKey.take 16 := by
    rw [sampleMac, if_neg fun h => hkey h.1, if_neg fun h => hkey h.1]
    split
    · exact .inl rfl
    · exact .inr (by decide)
  rw [sampleMac]
  split
  · rcases hnew with h | h <;> rw [h] <;> decide
  split
  · rcases hnew with h | h <;> rw [h] <;> decide
  rw [if_neg fun h => hkey h.1.symm]
  rcases hnew with h | h <;> rw [h] <;> decide

/-- A value from before the introduction of a key. -/
def introductionRun : Option SecretStore :=
  run (secretStep sampleAead sampleSha256) ⟨⟨"old", none, none, by decide⟩, []⟩
    [.write sampleIv "pw", .introduceKey "new"]

example : introductionRun.map (fun s => s.stored.map (·.value)) =
    some ["000102030405060708090a0b:5cbddffbc951a6aa0088ebc6c14d8144:c19b"] := by decide +kernel

theorem stored_readable_introduction : ∃ s, introductionRun = some s ∧ ∃ v ∈ s.stored,
    (decryptSecret sampleAead sampleSha256 (fun _ => "") s.config v.value = .ok v.plaintext ↔
      v.plaintext ≠ "") := by
  refine ⟨⟨⟨"old", some "new", none, by decide⟩, [⟨"pw", "old",
    encryptSecret sampleAead sampleSha256 ⟨"old", none, none, by decide⟩ sampleIv "pw"⟩]⟩, rfl, _,
    List.mem_singleton_self _, ?_⟩
  refine stored_readable_iff sampleAead sampleSha256 (fun _ => "") ⟨"old", none, none, by decide⟩
    [.write sampleIv "pw", .introduceKey "new"] _ rfl ?_ _ (List.mem_singleton_self _) (by decide)
  intro v hv key hkey hne
  rw [List.mem_singleton.mp hv] at hne ⊢
  have hkeys : key = newKey ∨ key = oldKey := by simpa using (show key ∈ [newKey, oldKey] from hkey)
  rcases hkeys with rfl | rfl
  · exact sampleAead_rejects
  · exact absurd rfl hne

/-- An empty credential, with no change of configuration at all. -/
theorem empty_secret_unreadable :
    let c : CryptoKeyConfig := ⟨"old", none, none, by decide⟩
    ∃ s, run (secretStep sampleAead sampleSha256) ⟨c, []⟩ [.write sampleIv ""] = some s ∧ ∃ v ∈ s.stored,
      v.plaintext = "" ∧ v.secret ∈ s.config.secrets ∧
      decryptSecret sampleAead sampleSha256 (fun _ => "") s.config v.value = .error .invalidFormat := by
  intro c
  refine ⟨⟨c, [⟨"", "old", encryptSecret sampleAead sampleSha256 c sampleIv ""⟩]⟩, rfl, _,
    List.mem_singleton_self _, rfl, by decide, ?_⟩
  exact (decryptSecret_sealedText c (by decide) "").trans (if_pos rfl)

end Obliguard.Server
