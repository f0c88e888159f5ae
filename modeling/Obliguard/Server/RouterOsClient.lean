import Mathlib.Data.List.GetD
import Obliguard.Lib.Bytes
import Obliguard.Lib.Framing

/-!
# The RouterOS client: sentences

`encodeLength` to `readSentence` and the data handler of `services/mikrotik/routerosClient.ts`. A
sentence is a row of words and an empty word; a word is its length, in one to four bytes, and its text.

`readSentence` is a framing, so how the router's bytes are cut into chunks does not matter to what
the handler takes out of them (`onData_foldl`): it is what the router wrote (`sentences_roundTrip`).
-/

namespace Obliguard.Server

open Bytes Framing

/-! ## Words and sentences -/

def encodeLength (len : Nat) : List UInt8 :=
  if len < 0x80 then [UInt8.ofNat len]
  else if len < 0x4000 then
    [UInt8.ofNat (0x80 ||| ((len >>> 8) &&& 0x3f)), UInt8.ofNat (len &&& 0xff)]
  else if len < 0x200000 then
    [UInt8.ofNat (0xc0 ||| ((len >>> 16) &&& 0x1f)), UInt8.ofNat ((len >>> 8) &&& 0xff),
      UInt8.ofNat (len &&& 0xff)]
  else
    [UInt8.ofNat (0xe0 ||| ((len >>> 24) &&& 0x0f)), UInt8.ofNat ((len >>> 16) &&& 0xff),
      UInt8.ofNat ((len >>> 8) &&& 0xff), UInt8.ofNat (len &&& 0xff)]

def encodeWord (word : String) : List UInt8 := encodeLength (utf8Bytes word).length ++ utf8Bytes word

def encodeSentence (words : List String) : List UInt8 := words.flatMap encodeWord ++ [0]

/-- `readLength`: the length in front of a buffer and the rest, `none` without all of its bytes. -/
def readLength (buffer : List UInt8) : Option (Nat × List UInt8) :=
  let b := fun i => (buffer.getD i 0).toNat
  if buffer.length = 0 then none
  else if b 0 &&& 0x80 = 0 then some (b 0, buffer.drop 1)
  else if b 0 &&& 0xc0 = 0x80 then
    if buffer.length < 2 then none
    else some (((b 0 &&& 0x3f) <<< 8) ||| b 1, buffer.drop 2)
  else if b 0 &&& 0xe0 = 0xc0 then
    if buffer.length < 3 then none
    else some (((b 0 &&& 0x1f) <<< 16) ||| (b 1 <<< 8) ||| b 2, buffer.drop 3)
  else if b 0 &&& 0xf0 = 0xe0 then
    if buffer.length < 4 then none
    else some (((b 0 &&& 0x0f) <<< 24) ||| (b 1 <<< 16) ||| (b 2 <<< 8) ||| b 3, buffer.drop 4)
  else none

-- what `toString` makes of bytes that are not UTF-8 is left open
variable (illFormed : List UInt8 → String)

/-- The loop of `readSentence`; each turn takes a byte at least. -/
def readWords : Nat → List UInt8 → Option (List String × List UInt8)
  | 0, _ => none
  | fuel + 1, buffer =>
    (readLength buffer).bind fun (len, buffer) =>
      if len = 0 then some ([], buffer)
      else if buffer.length < len then none
      else (readWords fuel (buffer.drop len)).map fun (words, r) =>
        (utf8Text illFormed (buffer.take len) :: words, r)

/-- `readSentence`: the first sentence of a buffer and the rest, `none` when more data is needed: the
buffer then stays as it was. -/
def readSentence (buffer : List UInt8) : Option (List String × List UInt8) :=
  readWords illFormed buffer.length buffer

/-! ## The client -/

/-- A command whose promise is resolved. -/
structure Execution where
  command : Nat
  sentences : List (List String)
  /-- How many sentences the handler had read by then. -/
  upTo : Nat
deriving DecidableEq

/-- The fields of `RouterOSClient` that the data handler and `sendAndWait` use. Commands are numbered in
the order in which they are sent. -/
structure RouterOSClient where
  buffer : List UInt8
  /-- The command whose `pendingResolve` is set. -/
  pendingResolve : Option Nat
  sentences : List (List String)
  resolved : List Execution
  sent : Nat
  /-- How many sentences the handler has read. -/
  read : Nat

def RouterOSClient.new : RouterOSClient := ⟨[], none, [], [], 0, 0⟩

def RouterOSClient.withBuffer (c : RouterOSClient) (buffer : List UInt8) : RouterOSClient :=
  { c with buffer := buffer }

/-- A terminal sentence. -/
def isTerminal (sentence : List String) : Bool :=
  match sentence with
  | [] => false
  | word :: _ => word == "!done" || word == "!trap" || word == "!fatal"

/-- One turn of the handler's loop, with a sentence. -/
def RouterOSClient.onSentence (c : RouterOSClient) (sentence : List String) : RouterOSClient :=
  let c := { c with sentences := c.sentences ++ [sentence], read := c.read + 1 }
  if isTerminal sentence then
    match c.pendingResolve with
    | some command => { c with
        pendingResolve := none
        resolved := c.resolved ++ [⟨command, c.sentences, c.read⟩]
        sentences := [] }
    | none => c
  else c

/-- The loop of the data handler. -/
def RouterOSClient.readAll : Nat → RouterOSClient → RouterOSClient
  | 0, c => c
  | fuel + 1, c =>
    match readSentence illFormed c.buffer with
    | none => c
    | some (sentence, rest) => ((c.withBuffer rest).onSentence sentence).readAll fuel

/-- The data handler. -/
def RouterOSClient.onData (c : RouterOSClient) (chunk : List UInt8) : RouterOSClient :=
  let c := c.withBuffer (c.buffer ++ chunk)
  c.readAll illFormed c.buffer.length

/-- `sendAndWait` up to its promise, with the bytes written. -/
def RouterOSClient.send (c : RouterOSClient) (words : List String) : RouterOSClient × List UInt8 :=
  ({ c with sentences := [], pendingResolve := some c.sent, sent := c.sent + 1 }, encodeSentence words)

/-- The sentences that the handler has taken out of the stream and not dropped. -/
def RouterOSClient.extracted (c : RouterOSClient) : List (List String) :=
  c.resolved.flatMap (·.sentences) ++ c.sentences

/-! ## Lengths -/

theorem toNat_lowByte (n : Nat) : (UInt8.ofNat (n &&& 0xff)).toNat = n % 2 ^ 8 := by
  rw [UInt8.toNat_ofNat', show 0xff = 2 ^ 8 - 1 from rfl, Nat.and_two_pow_sub_one_eq_mod, Nat.mod_mod]

theorem shiftLeft_or_shiftLeft {b : Nat} (x k : Nat) (hb : b < 2 ^ 8) :
    (x <<< (8 + k)) ||| (b <<< k) = (x * 2 ^ 8 + b) <<< k := by
  rw [← Numeral.shiftLeft_or_eq x hb, Nat.shiftLeft_or_distrib, Nat.shiftLeft_add]

theorem oneByte {h : Nat} (hh : h < 0x80) : (UInt8.ofNat h).toNat &&& 0x80 = 0 ∧
    (UInt8.ofNat h).toNat = h := by
  have hall : ∀ h < 0x80, (UInt8.ofNat h).toNat &&& 0x80 = 0 ∧ (UInt8.ofNat h).toNat = h := by decide
  exact hall h hh

theorem firstOfTwo {h : Nat} (hh : h < 0x40) :
    ¬ (UInt8.ofNat (0x80 ||| (h &&& 0x3f))).toNat &&& 0x80 = 0 ∧
      (UInt8.ofNat (0x80 ||| (h &&& 0x3f))).toNat &&& 0xc0 = 0x80 ∧
      (UInt8.ofNat (0x80 ||| (h &&& 0x3f))).toNat &&& 0x3f = h := by
  have hall : ∀ h < 0x40, ¬ (UInt8.ofNat (0x80 ||| (h &&& 0x3f))).toNat &&& 0x80 = 0 ∧
      (UInt8.ofNat (0x80 ||| (h &&& 0x3f))).toNat &&& 0xc0 = 0x80 ∧
      (UInt8.ofNat (0x80 ||| (h &&& 0x3f))).toNat &&& 0x3f = h := by decide
  exact hall h hh

theorem firstOfThree {h : Nat} (hh : h < 0x20) :
    ¬ (UInt8.ofNat (0xc0 ||| (h &&& 0x1f))).toNat &&& 0x80 = 0 ∧
      ¬ (UInt8.ofNat (0xc0 ||| (h &&& 0x1f))).toNat &&& 0xc0 = 0x80 ∧
      (UInt8.ofNat (0xc0 ||| (h &&& 0x1f))).toNat &&& 0xe0 = 0xc0 ∧
      (UInt8.ofNat (0xc0 ||| (h &&& 0x1f))).toNat &&& 0x1f = h := by
  have hall : ∀ h < 0x20, ¬ (UInt8.ofNat (0xc0 ||| (h &&& 0x1f))).toNat &&& 0x80 = 0 ∧
      ¬ (UInt8.ofNat (0xc0 ||| (h &&& 0x1f))).toNat &&& 0xc0 = 0x80 ∧
      (UInt8.ofNat (0xc0 ||| (h &&& 0x1f))).toNat &&& 0xe0 = 0xc0 ∧
      (UInt8.ofNat (0xc0 ||| (h &&& 0x1f))).toNat &&& 0x1f = h := by decide
  exact hall h hh

theorem firstOfFour {h : Nat} (hh : h < 0x10) :
    ¬ (UInt8.ofNat (0xe0 ||| (h &&& 0x0f))).toNat &&& 0x80 = 0 ∧
      ¬ (UInt8.ofNat (0xe0 ||| (h &&& 0x0f))).toNat &&& 0xc0 = 0x80 ∧
      ¬ (UInt8.ofNat (0xe0 ||| (h &&& 0x0f))).toNat &&& 0xe0 = 0xc0 ∧
      (UInt8.ofNat (0xe0 ||| (h &&& 0x0f))).toNat &&& 0xf0 = 0xe0 ∧
      (UInt8.ofNat (0xe0 ||| (h &&& 0x0f))).toNat &&& 0x0f = h := by
  have hall : ∀ h < 0x10, ¬ (UInt8.ofNat (0xe0 ||| (h &&& 0x0f))).toNat &&& 0x80 = 0 ∧
      ¬ (UInt8.ofNat (0xe0 ||| (h &&& 0x0f))).toNat &&& 0xc0 = 0x80 ∧
      ¬ (UInt8.ofNat (0xe0 ||| (h &&& 0x0f))).toNat &&& 0xe0 = 0xc0 ∧
      (UInt8.ofNat (0xe0 ||| (h &&& 0x0f))).toNat &&& 0xf0 = 0xe0 ∧
      (UInt8.ofNat (0xe0 ||| (h &&& 0x0f))).toNat &&& 0x0f = h := by decide
  exact hall h hh

theorem readLength_encodeLength {n : Nat} (hn : n < 2 ^ 28) (t : List UInt8) :
    readLength (encodeLength n ++ t) = some (n, t) := by
  have hdiv : ∀ k, n >>> k = n / 2 ^ k := fun k => Nat.shiftRight_eq_div_pow n k
  have hlow : ∀ m, (UInt8.ofNat (m &&& 0xff)).toNat < 2 ^ 8 := fun m => UInt8.toNat_lt _
  unfold encodeLength
  by_cases h1 : n < 0x80
  · obtain ⟨hform, hval⟩ := oneByte h1
    rw [if_pos h1, List.singleton_append]
    unfold readLength
    simp only [List.getD_cons_zero, List.length_cons, List.drop_one, List.tail_cons]
    rw [if_neg (by omega), if_pos hform, hval]
  · rw [if_neg h1]
    by_cases h2 : n < 0x4000
    · obtain ⟨hn1, hform, hval⟩ := firstOfTwo (h := n >>> 8) (by rw [hdiv]; omega)
      rw [if_pos h2, List.cons_append, List.singleton_append]
      unfold readLength
      simp only [List.getD_cons_zero, List.getD_cons_succ, List.length_cons, List.drop_succ_cons,
        List.drop_zero]
      rw [if_neg (by omega), if_neg hn1, if_pos hform, if_neg (by omega), hval,
        Numeral.shiftLeft_or_eq _ (hlow _), toNat_lowByte, hdiv, Nat.div_add_mod' n (2 ^ 8)]
    · rw [if_neg h2]
      by_cases h3 : n < 0x200000
      · obtain ⟨hn1, hn2, hform, hval⟩ := firstOfThree (h := n >>> 16) (by rw [hdiv]; omega)
        rw [if_pos h3, List.cons_append, List.cons_append, List.singleton_append]
        unfold readLength
        simp only [List.getD_cons_zero, List.getD_cons_succ, List.length_cons, List.drop_succ_cons,
          List.drop_zero]
        rw [if_neg (by omega), if_neg hn1, if_neg hn2, if_pos hform, if_neg (by omega), hval,
          shiftLeft_or_shiftLeft _ 8 (hlow _), Numeral.shiftLeft_or_eq _ (hlow _), toNat_lowByte,
          toNat_lowByte, hdiv, hdiv]
        have hsum : (n / 2 ^ 16 * 2 ^ 8 + n / 2 ^ 8 % 2 ^ 8) * 2 ^ 8 + n % 2 ^ 8 = n := by omega
        rw [hsum]
      · obtain ⟨hn1, hn2, hn3, hform, hval⟩ := firstOfFour (h := n >>> 24) (by rw [hdiv]; omega)
        rw [if_neg h3, List.cons_append, List.cons_append, List.cons_append, List.singleton_append]
        unfold readLength
        simp only [List.getD_cons_zero, List.getD_cons_succ, List.length_cons, List.drop_succ_cons,
          List.drop_zero]
        rw [if_neg (by omega), if_neg hn1, if_neg hn2, if_neg hn3, if_pos hform, if_neg (by omega), hval,
          shiftLeft_or_shiftLeft _ 16 (hlow _), shiftLeft_or_shiftLeft _ 8 (hlow _),
          Numeral.shiftLeft_or_eq _ (hlow _), toNat_lowByte, toNat_lowByte, toNat_lowByte, hdiv, hdiv,
          hdiv]
        have hsum : ((n / 2 ^ 24 * 2 ^ 8 + n / 2 ^ 16 % 2 ^ 8) * 2 ^ 8 + n / 2 ^ 8 % 2 ^ 8) * 2 ^ 8 +
            n % 2 ^ 8 = n := by omega
        rw [hsum]

theorem readLength_spec {s r : List UInt8} {n : Nat} (h : readLength s = some (n, r)) :
    r.length < s.length ∧ ∀ t, readLength (s ++ t) = some (n, r ++ t) := by
  have hget : ∀ t i, i < s.length → (s ++ t).getD i 0 = s.getD i 0 :=
    fun t i hi => List.getD_append s t 0 i hi
  have htake : ∀ k, k ≤ s.length → 0 < k → (s.drop k).length < s.length ∧
      ∀ t, (s ++ t).drop k = s.drop k ++ t := by
    intro k hk hpos
    refine ⟨by rw [List.length_drop]; omega, fun t => List.drop_append_of_le_length hk⟩
  unfold readLength at h ⊢
  dsimp only at h ⊢
  split at h
  · contradiction
  · rename_i hne
    have hlen : ∀ t, (s ++ t).length ≠ 0 := by
      intro t
      rw [List.length_append]
      omega
    split at h
    · rename_i hform
      cases h
      refine ⟨(htake 1 (by omega) (by omega)).1, fun t => ?_⟩
      simp only [hget t 0 (by omega)]
      rw [if_neg (hlen t), if_pos hform, (htake 1 (by omega) (by omega)).2]
    · rename_i h1
      split at h
      · rename_i hform
        split at h
        · contradiction
        · cases h
          refine ⟨(htake 2 (by omega) (by omega)).1, fun t => ?_⟩
          simp only [hget t 0 (by omega), hget t 1 (by omega)]
          rw [if_neg (hlen t), if_neg h1, if_pos hform, if_neg (by rw [List.length_append]; omega),
            (htake 2 (by omega) (by omega)).2]
      · rename_i h2
        split at h
        · rename_i hform
          split at h
          · contradiction
          · cases h
            refine ⟨(htake 3 (by omega) (by omega)).1, fun t => ?_⟩
            simp only [hget t 0 (by omega), hget t 1 (by omega), hget t 2 (by omega)]
            rw [if_neg (hlen t), if_neg h1, if_neg h2, if_pos hform,
              if_neg (by rw [List.length_append]; omega), (htake 3 (by omega) (by omega)).2]
        · rename_i h3
          split at h
          · rename_i hform
            split at h
            · contradiction
            · cases h
              refine ⟨(htake 4 (by omega) (by omega)).1, fun t => ?_⟩
              simp only [hget t 0 (by omega), hget t 1 (by omega), hget t 2 (by omega),
                hget t 3 (by omega)]
              rw [if_neg (hlen t), if_neg h1, if_neg h2, if_neg h3, if_pos hform,
                if_neg (by rw [List.length_append]; omega), (htake 4 (by omega) (by omega)).2]
          · contradiction

/-! ## Sentences in a stream -/

section sentences
variable {illFormed : List UInt8 → String} {words : List String} {s r t : List UInt8}

theorem readWords_shorter {fuel : Nat} (h : readWords illFormed fuel s = some (words, r)) :
    r.length < s.length := by
  induction fuel generalizing s words with
  | zero => contradiction
  | succ fuel ih =>
    obtain ⟨⟨len, buffer⟩, hlen, h⟩ := Option.bind_eq_some_iff.mp h
    have hlt := (readLength_spec hlen).1
    dsimp only at h
    split at h
    · cases h
      exact hlt
    · split at h
      · contradiction
      · obtain ⟨⟨rest, r'⟩, hrest, heq⟩ := Option.map_eq_some_iff.mp h
        cases heq
        have hdrop := ih hrest
        rw [List.length_drop] at hdrop
        omega

theorem readWords_append {fuel fuel' : Nat} (hle : fuel ≤ fuel')
    (h : readWords illFormed fuel s = some (words, r)) (t : List UInt8) :
    readWords illFormed fuel' (s ++ t) = some (words, r ++ t) := by
  induction fuel generalizing fuel' s words with
  | zero => contradiction
  | succ fuel ih =>
    obtain ⟨k, rfl⟩ : ∃ k, fuel' = k + 1 := ⟨fuel' - 1, by omega⟩
    obtain ⟨⟨len, buffer⟩, hlen, h⟩ := Option.bind_eq_some_iff.mp h
    dsimp only at h
    rw [readWords, (readLength_spec hlen).2 t, Option.bind_some]
    dsimp only
    split at h
    · rename_i hzero
      cases h
      rw [if_pos hzero]
    · rename_i hzero
      split at h
      · contradiction
      · rename_i hlong
        obtain ⟨⟨rest, r'⟩, hrest, heq⟩ := Option.map_eq_some_iff.mp h
        cases heq
        have hlong' : ¬ (buffer ++ t).length < len := by
          rw [List.length_append]
          omega
        rw [if_neg hzero, if_neg hlong', List.drop_append_of_le_length (by omega),
          List.take_append_of_le_length (by omega), ih (by omega) hrest]
        rfl

theorem isFraming_readSentence (illFormed : List UInt8 → String) :
    IsFraming (readSentence illFormed) where
  shorter := readWords_shorter
  append := by
    intro s r words t h
    exact readWords_append (by rw [List.length_append]; omega) h t

/-- The word has a byte at least, and its length fits four bytes. -/
def IsWord (w : String) : Prop := w ≠ "" ∧ w.utf8ByteSize < 2 ^ 28

instance (w : String) : Decidable (IsWord w) := inferInstanceAs (Decidable (_ ∧ _))

theorem one_le_length_encodeLength (n : Nat) : 1 ≤ (encodeLength n).length := by
  unfold encodeLength
  split_ifs <;> simp

theorem readWords_encode (hwords : ∀ w ∈ words, IsWord w) {fuel : Nat} (hfuel : words.length < fuel)
    (t : List UInt8) : readWords illFormed fuel (encodeSentence words ++ t) = some (words, t) := by
  induction words generalizing fuel with
  | nil =>
    obtain ⟨k, rfl⟩ : ∃ k, fuel = k + 1 := ⟨fuel - 1, by omega⟩
    have hzero : readLength (encodeSentence [] ++ t) = some (0, t) :=
      readLength_encodeLength (n := 0) (by omega) t
    rw [readWords, hzero]
    rfl
  | cons w words ih =>
    obtain ⟨k, rfl⟩ : ∃ k, fuel = k + 1 := ⟨fuel - 1, by omega⟩
    obtain ⟨⟨hne, hsize⟩, hwords⟩ := List.forall_mem_cons.mp hwords
    have hstream : encodeSentence (w :: words) ++ t = encodeLength (utf8Bytes w).length ++
        (utf8Bytes w ++ (encodeSentence words ++ t)) := by
      simp only [encodeSentence, encodeWord, List.flatMap_cons, List.append_assoc]
    have hlen : (utf8Bytes w).length ≠ 0 := by
      rw [length_utf8Bytes, Ne, String.utf8ByteSize_eq_zero_iff]
      exact hne
    have hlong : ¬ (utf8Bytes w ++ (encodeSentence words ++ t)).length < (utf8Bytes w).length := by
      rw [List.length_append]
      omega
    rw [hstream, readWords, readLength_encodeLength (by rw [length_utf8Bytes]; exact hsize),
      Option.bind_some]
    dsimp only
    rw [if_neg hlen, if_neg hlong, List.drop_left, List.take_left,
      ih hwords (by rw [List.length_cons] at hfuel; omega), utf8Text_utf8Bytes]
    rfl

theorem length_lt_encodeSentence (words : List String) :
    words.length < (encodeSentence words).length := by
  induction words with
  | nil => simp [encodeSentence]
  | cons w words ih =>
    have hone := one_le_length_encodeLength (utf8Bytes w).length
    simp only [encodeSentence, encodeWord, List.flatMap_cons, List.length_append,
      List.length_cons] at ih ⊢
    omega

theorem readSentence_encodeSentence (illFormed : List UInt8 → String) (hwords : ∀ w ∈ words, IsWord w)
    (t : List UInt8) : readSentence illFormed (encodeSentence words ++ t) = some (words, t) := by
  apply readWords_encode hwords
  have hlt := length_lt_encodeSentence words
  rw [List.length_append]
  omega

end sentences

/-! ## The handler -/

section handler
variable {illFormed : List UInt8 → String} {c : RouterOSClient}

@[simp] theorem withBuffer_buffer (b : List UInt8) : (c.withBuffer b).buffer = b := rfl

@[simp] theorem withBuffer_withBuffer (b b' : List UInt8) :
    (c.withBuffer b).withBuffer b' = c.withBuffer b' := rfl

theorem onSentence_withBuffer (c : RouterOSClient) (b : List UInt8) (s : List String) :
    (c.withBuffer b).onSentence s = (c.onSentence s).withBuffer b := by
  unfold RouterOSClient.onSentence RouterOSClient.withBuffer
  dsimp only
  cases isTerminal s with
  | false => rfl
  | true =>
    cases c.pendingResolve with
    | none => rfl
    | some command => rfl

theorem foldl_withBuffer (c : RouterOSClient) (b : List UInt8) (ss : List (List String)) :
    ss.foldl RouterOSClient.onSentence (c.withBuffer b) =
      (ss.foldl RouterOSClient.onSentence c).withBuffer b := by
  induction ss generalizing c with
  | nil => rfl
  | cons s ss ih => rw [List.foldl_cons, List.foldl_cons, onSentence_withBuffer, ih]

theorem readAll_eq (fuel : Nat) (c : RouterOSClient) : c.readAll illFormed fuel =
    ((drainWith (readSentence illFormed) fuel c.buffer).1.foldl RouterOSClient.onSentence c).withBuffer
      (drainWith (readSentence illFormed) fuel c.buffer).2 := by
  induction fuel generalizing c with
  | zero => rfl
  | succ fuel ih =>
    rw [RouterOSClient.readAll, drainWith]
    cases readSentence illFormed c.buffer with
    | none => rfl
    | some p =>
      obtain ⟨s, rest⟩ := p
      dsimp only
      rw [ih, onSentence_withBuffer, withBuffer_buffer, foldl_withBuffer, withBuffer_withBuffer,
        List.foldl_cons]

theorem onData_eq (c : RouterOSClient) (chunk : List UInt8) : c.onData illFormed chunk =
    ((drain (readSentence illFormed) (c.buffer ++ chunk)).1.foldl RouterOSClient.onSentence c).withBuffer
      (drain (readSentence illFormed) (c.buffer ++ chunk)).2 := by
  rw [RouterOSClient.onData, readAll_eq, foldl_withBuffer, withBuffer_withBuffer, withBuffer_buffer,
    ← drain]

/-- The handler after some chunks is the handler after the sentences of their concatenation. -/
theorem onData_foldl (hc : readSentence illFormed c.buffer = none) (chunks : List (List UInt8)) :
    chunks.foldl (RouterOSClient.onData illFormed) c =
      ((drain (readSentence illFormed) (c.buffer ++ chunks.flatten)).1.foldl
        RouterOSClient.onSentence c).withBuffer
          (drain (readSentence illFormed) (c.buffer ++ chunks.flatten)).2 := by
  have hfold : ∀ (chunks : List (List UInt8)) (ss : List (List String)) (b : List UInt8),
      chunks.foldl (RouterOSClient.onData illFormed)
          ((ss.foldl RouterOSClient.onSentence c).withBuffer b) =
        ((chunks.foldl (feed (readSentence illFormed)) (ss, b)).1.foldl
          RouterOSClient.onSentence c).withBuffer
            (chunks.foldl (feed (readSentence illFormed)) (ss, b)).2 := by
    intro chunks
    induction chunks with
    | nil => intro ss b; rfl
    | cons chunk chunks ih =>
      intro ss b
      rw [List.foldl_cons, List.foldl_cons, onData_eq, foldl_withBuffer, withBuffer_withBuffer,
        withBuffer_buffer, ← List.foldl_append, ih]
      rfl
  have h := hfold chunks [] c.buffer
  rw [foldl_feed (isFraming_readSentence illFormed) [] hc chunks, List.nil_append] at h
  exact h

theorem extracted_onSentence (c : RouterOSClient) (s : List String) :
    (c.onSentence s).extracted = c.extracted ++ [s] := by
  unfold RouterOSClient.onSentence RouterOSClient.extracted
  dsimp only
  split
  · split
    · simp [List.flatMap_append]
    · simp
  · simp

theorem extracted_foldl (ss : List (List String)) (c : RouterOSClient) :
    (ss.foldl RouterOSClient.onSentence c).extracted = c.extracted ++ ss := by
  induction ss generalizing c with
  | nil => rw [List.foldl_nil, List.append_nil]
  | cons s ss ih => rw [List.foldl_cons, ih, extracted_onSentence, List.append_assoc]; rfl

end handler

/-- Sentences cut into chunks anyhow come out of the data handler as they were, and nothing is left. -/
theorem sentences_roundTrip (illFormed : List UInt8 → String) (sentences : List (List String))
    (hwords : ∀ s ∈ sentences, ∀ w ∈ s, w ≠ "" ∧ w.utf8ByteSize < 2 ^ 28)
    (chunks : List (List UInt8)) (hchunks : chunks.flatten = sentences.flatMap encodeSentence)
    (c : RouterOSClient) (hc : c.buffer = []) :
    (chunks.foldl (RouterOSClient.onData illFormed) c).extracted = c.extracted ++ sentences ∧
      (chunks.foldl (RouterOSClient.onData illFormed) c).buffer = [] := by
  have hdrain : drain (readSentence illFormed) (c.buffer ++ chunks.flatten) = (sentences, []) := by
    have h := drain_flatMap (isFraming_readSentence illFormed) (f := id)
      (fun s hs t => readSentence_encodeSentence illFormed (hwords s hs) t) []
    rw [hc, List.nil_append, hchunks]
    rw [List.append_nil, List.map_id] at h
    rw [h]
    simp [drain, drainWith]
  have hnone : readSentence illFormed c.buffer = none := by
    rw [hc]
    rfl
  rw [onData_foldl hnone, hdrain]
  exact ⟨extracted_foldl sentences c, rfl⟩

/-- A reply of two sentences, cut inside a length and inside a word. -/
theorem sentences_roundTrip_reply : ([[3, 33, 114], [101, 8, 61, 110, 97, 109, 101, 61, 195],
    [169, 0, 5, 33, 100, 111, 110, 101, 0]].foldl (RouterOSClient.onData fun _ => "")
      RouterOSClient.new).extracted = [["!re", "=name=é"], ["!done"]] := by
  exact (sentences_roundTrip (fun _ => "") [["!re", "=name=é"], ["!done"]] (by decide +kernel) _
    (by decide +kernel) RouterOSClient.new rfl).1

end Obliguard.Server
