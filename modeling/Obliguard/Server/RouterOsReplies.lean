import Obliguard.Lib.Runs
import Obliguard.Server.RouterOsClient

/-!
# Which answer a command gets

Commands sent one after the other through `sendAndWait`, and a router that answers each of them in
order. The handler resolves the pending command at the first terminal sentence, which for an answer
with a `!trap` is not its last one: the `!done` after it may reach the next command
(`replies_misattributed`). Where no command is sent before the answer to the one before has arrived
whole, every result is a part of its own answer (`replies_attributed`).
-/

namespace Obliguard.Server

open Bytes Framing Runs

/-! ## The router -/

/-- The router's answer to a command: the words after `!re`, `!trap` and `!done`. -/
structure Answer where
  replies : List (List String)
  trap : Option (List String)
  done : List String
  words : (∀ ws ∈ replies, ∀ w ∈ ws, IsWord w) ∧ (∀ ws ∈ trap, ∀ w ∈ ws, IsWord w) ∧
    ∀ w ∈ done, IsWord w

def Answer.sentences (a : Answer) : List (List String) :=
  a.replies.map ("!re" :: ·) ++ (a.trap.toList.map ("!trap" :: ·) ++ ["!done" :: a.done])

/-- The answers one after the other. -/
def stream (answers : List Answer) : List (List String) := answers.flatMap Answer.sentences

/-- A connection: the client, the answers that the commands sent have or will have, and their bytes
that have not reached the client. -/
structure Session where
  client : RouterOSClient
  answers : List Answer
  inFlight : List UInt8

def Session.new : Session := ⟨RouterOSClient.new, [], []⟩

inductive SessionAct
  | send (words : List String) (answer : Answer)
  /-- The next bytes arrive in one chunk. -/
  | deliver (size : Nat)

variable (illFormed : List UInt8 → String)

/-- A command is sent once the one before is resolved. -/
def sessionStep (s : Session) : SessionAct → Option Session
  | .send words answer =>
    if s.client.pendingResolve = none then some {
      client := (s.client.send words).1
      answers := s.answers ++ [answer]
      inFlight := s.inFlight ++ answer.sentences.flatMap encodeSentence }
    else none
  | .deliver size =>
    if 0 < size ∧ size ≤ s.inFlight.length then some { s with
      client := s.client.onData illFormed (s.inFlight.take size)
      inFlight := s.inFlight.drop size }
    else none

/-- The result has only sentences of the answer to its command: those it has stand in the stream where
the handler read them, after the answers to the commands before and not after its own. -/
structure FromOwnAnswer (answers : List Answer) (e : Execution) : Prop where
  eq : e.sentences = ((stream answers).take e.upTo).drop (e.upTo - e.sentences.length)
  first : (stream (answers.take e.command)).length + e.sentences.length ≤ e.upTo
  last : e.upTo ≤ (stream (answers.take (e.command + 1))).length

instance (answers : List Answer) (e : Execution) : Decidable (FromOwnAnswer answers e) :=
  decidable_of_iff (_ ∧ _ ∧ _) ⟨fun h => ⟨h.1, h.2.1, h.2.2⟩, fun h => ⟨h.eq, h.first, h.last⟩⟩

/-- A command is sent only when nothing of the earlier answers is under way. -/
def SendsWhenQuiet (s : Session) : SessionAct → Prop
  | .send _ _ => s.inFlight = []
  | .deliver _ => True

instance (s : Session) (a : SessionAct) : Decidable (SendsWhenQuiet s a) := by
  unfold SendsWhenQuiet
  cases a <;> infer_instance

/-! ## The handler over the stream -/

section handler
variable {answers : List Answer} {c : RouterOSClient} {got rest : List (List String)}

theorem stream_append (as bs : List Answer) : stream (as ++ bs) = stream as ++ stream bs :=
  List.flatMap_append

/-- What holds of the client once it has read `got`, when every command was sent after the answers to
those before it. -/
structure Replies (answers : List Answer) (got : List (List String)) (c : RouterOSClient) : Prop where
  read_eq : c.read = got.length
  sent_eq : c.sent = answers.length
  own : ∀ e ∈ c.resolved, e.command < answers.length ∧ FromOwnAnswer answers e
  /-- The pending command is the last one, and has what was read after the answers before. -/
  pending : ∀ k, c.pendingResolve = some k → ∃ earlier a, answers = earlier ++ [a] ∧
    k = earlier.length ∧ got = stream earlier ++ c.sentences

theorem take_succ_length (earlier : List Answer) (a : Answer) :
    (earlier ++ [a]).take (earlier.length + 1) = earlier ++ [a] := by
  have hlen : earlier.length + 1 = (earlier ++ [a]).length := by
    rw [List.length_append]
    rfl
  rw [hlen, List.take_length]

theorem fromOwnAnswer_pending {earlier : List Answer} {a : Answer} {sentences : List (List String)}
    (h : stream (earlier ++ [a]) = stream earlier ++ sentences ++ rest) : FromOwnAnswer (earlier ++ [a])
      ⟨earlier.length, sentences, (stream earlier ++ sentences).length⟩ where
  eq := by
    dsimp only
    rw [h, List.take_left, List.length_append, Nat.add_sub_cancel, List.drop_left]
  first := by
    dsimp only
    rw [List.take_left, List.length_append]
  last := by
    dsimp only
    rw [take_succ_length, h, @List.length_append _ _ rest]
    omega

theorem replies_onSentence {s : List String} (hc : Replies answers got c)
    (hstream : stream answers = got ++ s :: rest) :
    Replies answers (got ++ [s]) (c.onSentence s) := by
  have hread : c.read + 1 = (got ++ [s]).length := by
    rw [List.length_append, hc.read_eq]
    rfl
  unfold RouterOSClient.onSentence
  dsimp only
  split
  · cases hpending : c.pendingResolve with
    | none =>
      refine ⟨hread, hc.sent_eq, hc.own, ?_⟩
      intro k hk
      contradiction
    | some k =>
      obtain ⟨earlier, a, rfl, rfl, hgot⟩ := hc.pending k hpending
      refine ⟨hread, hc.sent_eq, ?_, fun k hk => by contradiction⟩
      intro e he
      rcases List.mem_append.mp he with he | he
      · exact hc.own e he
      · rw [List.mem_singleton.mp he]
        have hsplit : got ++ [s] = stream earlier ++ (c.sentences ++ [s]) := by
          rw [hgot, List.append_assoc]
        have hown := @fromOwnAnswer_pending rest earlier a (c.sentences ++ [s]) (by
          rw [hstream, ← hsplit, List.append_assoc]
          rfl)
        rw [← hsplit, ← hread] at hown
        refine ⟨?_, hown⟩
        show earlier.length < (earlier ++ [a]).length
        rw [List.length_append]
        exact Nat.lt_add_one _
  · refine ⟨hread, hc.sent_eq, hc.own, ?_⟩
    intro k hk
    obtain ⟨earlier, a, hanswers, hk, hgot⟩ := hc.pending k hk
    exact ⟨earlier, a, hanswers, hk, by rw [hgot, List.append_assoc]⟩

theorem replies_foldl (ss : List (List String)) (hc : Replies answers got c)
    (hstream : stream answers = got ++ (ss ++ rest)) :
    Replies answers (got ++ ss) (ss.foldl RouterOSClient.onSentence c) := by
  induction ss generalizing got c with
  | nil => rwa [List.append_nil]
  | cons s ss ih =>
    have hnext := replies_onSentence hc hstream
    have hfold := ih hnext (by rw [hstream, List.append_assoc]; rfl)
    rwa [List.append_assoc] at hfold

theorem Replies.buffer (hc : Replies answers got c) (b : List UInt8) :
    Replies answers got { c with buffer := b } := ⟨hc.read_eq, hc.sent_eq, hc.own, hc.pending⟩

/-- A further command, once all has been read. -/
theorem replies_send (hc : Replies answers got c) (hall : got = stream answers) (words : List String)
    (a : Answer) : Replies (answers ++ [a]) got (c.send words).1 where
  read_eq := hc.read_eq
  sent_eq := by
    rw [List.length_append, ← hc.sent_eq]
    rfl
  own := by
    intro e he
    obtain ⟨hlt, hown⟩ := hc.own e he
    have htake : (answers ++ [a]).take e.command = answers.take e.command :=
      List.take_append_of_le_length (by omega)
    have htake' : (answers ++ [a]).take (e.command + 1) = answers.take (e.command + 1) :=
      List.take_append_of_le_length (by omega)
    have hupTo : e.upTo ≤ (stream answers).length := by
      have hle : (stream (answers.take (e.command + 1))).length ≤ (stream answers).length := by
        conv_rhs => rw [← List.take_append_drop (e.command + 1) answers, stream_append,
          List.length_append]
        omega
      exact le_trans hown.last hle
    refine ⟨by rw [List.length_append]; omega, ?_, htake ▸ hown.first, htake' ▸ hown.last⟩
    rw [stream_append, List.take_append_of_le_length hupTo]
    exact hown.eq
  pending := by
    intro k hk
    obtain rfl := Option.some.inj hk
    exact ⟨answers, a, rfl, hc.sent_eq, by rw [hall]; exact (List.append_nil _).symm⟩

end handler

/-! ## Sessions -/

theorem isWord_marks : IsWord "!re" ∧ IsWord "!trap" ∧ IsWord "!done" := by decide

theorem Answer.isWord {a : Answer} : ∀ s ∈ a.sentences, ∀ w ∈ s, IsWord w := by
  obtain ⟨hre, htrap, hdone⟩ := isWord_marks
  intro s hs
  simp only [Answer.sentences, List.mem_append, List.mem_map, List.mem_singleton] at hs
  rcases hs with ⟨ws, hws, rfl⟩ | ⟨ws, hws, rfl⟩ | rfl
  · exact List.forall_mem_cons.mpr ⟨hre, a.words.1 ws hws⟩
  · exact List.forall_mem_cons.mpr ⟨htrap, a.words.2.1 ws (Option.mem_toList.mp hws)⟩
  · exact List.forall_mem_cons.mpr ⟨hdone, a.words.2.2⟩

theorem isWord_stream {answers : List Answer} : ∀ s ∈ stream answers, ∀ w ∈ s, IsWord w := by
  intro s hs
  obtain ⟨a, -, hs⟩ := List.mem_flatMap.mp hs
  exact a.isWord s hs

/-- The invariant of a session: the bytes not read yet are those of the sentences after the ones read. -/
structure SessionInv (s : Session) : Prop where
  idle : readSentence illFormed s.client.buffer = none
  replies : ∃ got rest, stream s.answers = got ++ rest ∧
    s.client.buffer ++ s.inFlight = rest.flatMap encodeSentence ∧ Replies s.answers got s.client

section session
variable {illFormed : List UInt8 → String} {s s' : Session} {a : SessionAct}

theorem sessionInv_send {words : List String} {answer : Answer} (hs : SessionInv illFormed s)
    (hquiet : s.inFlight = []) (h : sessionStep illFormed s (.send words answer) = some s') :
    SessionInv illFormed s' := by
  obtain ⟨hidle, got, rest, hstream, hbytes, hreplies⟩ := hs
  dsimp only [sessionStep] at h
  split at h
  · obtain rfl := Option.some.inj h
    -- a sentence left to read would stand whole in the buffer
    have hrest : rest = [] := by
      cases rest with
      | nil => rfl
      | cons x rest =>
        have hword := isWord_stream x (by rw [hstream]; simp)
        rw [hquiet, List.append_nil, List.flatMap_cons] at hbytes
        rw [hbytes, readSentence_encodeSentence illFormed hword] at hidle
        contradiction
    rw [hrest, List.append_nil] at hstream
    have hbuffer : s.client.buffer = [] := by
      rw [hquiet, hrest, List.append_nil] at hbytes
      exact hbytes
    refine ⟨hidle, got, answer.sentences, ?_, ?_, replies_send hreplies hstream.symm words answer⟩
    · rw [stream_append, hstream]
      exact congrArg _ (List.flatMap_singleton _ _)
    · show s.client.buffer ++ (s.inFlight ++ _) = _
      rw [hbuffer, hquiet]
      rfl
  · contradiction

theorem sessionInv_deliver {size : Nat} (hs : SessionInv illFormed s)
    (h : sessionStep illFormed s (.deliver size) = some s') : SessionInv illFormed s' := by
  obtain ⟨hidle, got, rest, hstream, hbytes, hreplies⟩ := hs
  dsimp only [sessionStep] at h
  split at h
  · obtain rfl := Option.some.inj h
    have hcut : (s.client.buffer ++ s.inFlight.take size) ++ s.inFlight.drop size =
        rest.flatMap encodeSentence := by
      rw [List.append_assoc, List.take_append_drop, hbytes]
    have hword : ∀ x ∈ rest, ∀ t, readSentence illFormed (encodeSentence x ++ t) = some (x, t) :=
      fun x hx t => readSentence_encodeSentence illFormed (isWord_stream x (by rw [hstream]; simp [hx])) t
    obtain ⟨ss, rest', hsplit, hread, hleft⟩ := drain_of_append (isFraming_readSentence illFormed) hword hcut
    refine ⟨?_, got ++ ss, rest', ?_, ?_, ?_⟩
    · show readSentence illFormed (s.client.onData illFormed _).buffer = none
      rw [onData_eq]
      exact drain_rest (isFraming_readSentence illFormed) _
    · rw [hstream, hsplit, List.append_assoc]
    · show (s.client.onData illFormed _).buffer ++ _ = _
      rw [onData_eq]
      exact hleft
    · show Replies s.answers _ (s.client.onData illFormed _)
      rw [onData_eq, hread]
      exact (replies_foldl ss hreplies (by rw [hstream, hsplit])).buffer _
  · contradiction

theorem sessionInv_step (hs : SessionInv illFormed s) (hquiet : SendsWhenQuiet s a)
    (h : sessionStep illFormed s a = some s') : SessionInv illFormed s' := by
  cases a with
  | send words answer => exact sessionInv_send hs hquiet h
  | deliver size => exact sessionInv_deliver hs h

theorem sessionInv_new : SessionInv illFormed Session.new where
  idle := rfl
  replies := by
    refine ⟨[], [], rfl, rfl, rfl, rfl, fun e he => absurd he List.not_mem_nil, ?_⟩
    intro k hk
    contradiction

end session

/-- Where every command is sent after the whole answer to the one before has arrived, each result has
only sentences of the answer to its own command. -/
theorem replies_attributed (illFormed : List UInt8 → String) (acts : List SessionAct) (s : Session)
    (hquiet : StepsMeet (sessionStep illFormed) SendsWhenQuiet Session.new acts)
    (h : run (sessionStep illFormed) Session.new acts = some s) :
    ∀ e ∈ s.client.resolved, FromOwnAnswer s.answers e := by
  have hinv : SessionInv illFormed s :=
    run_invariant (fun _ _ _ hs hq hstep => sessionInv_step hs hq hstep) sessionInv_new hquiet h
  obtain ⟨-, got, rest, -, -, hreplies⟩ := hinv
  exact fun e he => (hreplies.own e he).2

/-- A command that fails: `!trap` and `!done`. -/
def failure : Answer := ⟨[], some ["=message=no"], [], by decide⟩

/-- A command that succeeds with one reply. -/
def success : Answer := ⟨[["=.id=*1"]], none, [], by decide⟩

/-- The second command waits for the end of the failure, and gets its own reply. -/
theorem replies_attributed_waiting : ∃ s, run (sessionStep fun _ => "") Session.new
    [.send ["/login"] failure, .deliver 19, .deliver 7, .send ["/print"] success, .deliver 13,
      .deliver 7] = some s ∧
    s.client.resolved = [⟨0, [["!trap", "=message=no"]], 1⟩, ⟨1, [["!re", "=.id=*1"], ["!done"]], 4⟩] ∧
    ∀ e ∈ s.client.resolved, FromOwnAnswer s.answers e := by
  have hrun : (run (sessionStep fun _ => "") Session.new [.send ["/login"] failure, .deliver 19,
      .deliver 7, .send ["/print"] success, .deliver 13, .deliver 7]).map (·.client.resolved) =
        some [⟨0, [["!trap", "=message=no"]], 1⟩, ⟨1, [["!re", "=.id=*1"], ["!done"]], 4⟩] := by
    decide
  obtain ⟨s, hs, hresolved⟩ := Option.map_eq_some_iff.mp hrun
  exact ⟨s, hs, hresolved, replies_attributed (fun _ => "") _ s (by decide) hs⟩

/-- The second command is sent before the end of the failure, which becomes its result. -/
theorem replies_misattributed : ∃ acts s, run (sessionStep fun _ => "") Session.new acts = some s ∧
    ∃ e ∈ s.client.resolved, ¬ FromOwnAnswer s.answers e := by
  have hrun : (run (sessionStep fun _ => "") Session.new [.send ["/login"] failure, .deliver 19,
      .send ["/print"] success, .deliver 7]).map
        (fun s => s.client.resolved.any fun e => decide (¬ FromOwnAnswer s.answers e)) =
        some true := by decide
  obtain ⟨s, hs, hany⟩ := Option.map_eq_some_iff.mp hrun
  obtain ⟨e, he, hnot⟩ := List.any_eq_true.mp hany
  exact ⟨_, s, hs, e, he, of_decide_eq_true hnot⟩

end Obliguard.Server
