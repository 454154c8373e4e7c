import StoreTrial.Proofs.Session.Expectation
import StoreTrial.Proofs.Session.Writing
import StoreTrial.Session.Replay

/-!
# What a session has to expect

The replies among the frames that a connection has to expect belong to the requests that follow, one
to each, and the first request that finds none left fails as reading does.  So what a request comes
to is known from its place alone, as long as none before it has met a failure of the connection.

## Main results

* `Connection.readReply_reply` — a request takes the reply in its place.
* `Client.run_answerTo` — what a command comes to, and what it leaves to those behind it.
* `Client.wrote_runAll`, `Client.written_runAll` — what commands write.
-/

namespace StoreTrial

open Resp (Value Version encode parse)

namespace Connection

/-! ## Replies -/

/-- What the `i`-th of the requests that follow is answered with, if it is written. -/
def reply (c : Connection) (i : Nat) : Except ClientError Value :=
  (replies c.prospect)[i]?.elim (.error c.failure) .ok

theorem reply_of_eq {c c' : Connection} (hprospect : c'.prospect = (nextReply c.prospect).2)
    (hfailure : c'.failure = c.failure) (i : Nat) : c'.reply i = c.reply (i + 1) := by
  unfold reply
  rw [hprospect, hfailure, getElem?_replies_succ]

/-- Each frame in front of an unfinished one that is no push is the reply to one request. -/
theorem reply_of_takes {c : Connection} {vs : List Value} {rest : Bytes} (h : Takes c.heard vs rest)
    (hrest : parse rest = .incomplete) (i : Nat) :
    c.reply i = (replies vs)[i]?.elim (.error c.obstacle) .ok := by
  obtain ⟨hprospect, hfailure⟩ := prospect_of_takes h hrest
  rw [reply, hprospect, hfailure]

theorem ofConnection_of_reply {c : Connection} {i : Nat} {e : ClientError}
    (h : c.reply i = .error e) : e.OfConnection := by
  unfold reply at h
  cases hreply : (replies c.prospect)[i]? with
  | none =>
    rw [hreply] at h
    cases h
    exact c.ofConnection_failure
  | some v =>
    rw [hreply] at h
    cases h

/-- A request takes the reply in its place, and leaves those of the requests behind it. -/
theorem readReply_reply (c : Connection) :
    c.readReply.1 = c.reply 0 ∧
      ∀ v, c.reply 0 = .ok v → ∀ i, c.readReply.2.reply i = c.reply (i + 1) := by
  induction hframes : c.prospect generalizing c with
  | nil =>
    have hread := c.readFrame_prospect
    rw [hframes] at hread
    have hreply : c.reply 0 = .error c.failure := by simp [reply, hframes, replies]
    rw [readReply_of_not_push (by simp [hread]), hreply]
    exact ⟨hread, by simp⟩
  | cons v vs ih =>
    have hread := c.readFrame_prospect
    rw [hframes] at hread
    obtain ⟨hframe, hprospect, hfailure⟩ := hread
    by_cases hpush : v.isPush
    · rw [readReply_of_push hframe hpush]
      have hreply : ∀ i, c.readFrame.2.reply i = c.reply i := by
        intro i
        simp [reply, hprospect, hfailure, hframes, replies, hpush]
      simpa only [hreply] using ih c.readFrame.2 hprospect
    · rw [readReply_of_not_push (by simp [hframe, hpush])]
      have hreply : c.reply 0 = .ok v := by simp [reply, hframes, replies, hpush]
      refine ⟨hframe.trans hreply.symm, fun _ _ i => reply_of_eq ?_ hfailure i⟩
      rw [hprospect, hframes, nextReply, if_neg hpush]

/-! ## Requests -/

theorem reply_send (c : Connection) (v : Value) (i : Nat) : (c.send v).2.reply i = c.reply i := by
  obtain ⟨hprospect, hfailure⟩ := c.prospect_send v
  unfold reply
  rw [hprospect, hfailure]

/-- A request that can be written is answered with the reply in its place. -/
theorem request_reply {c : Connection} {v : Value}
    (h : c.transport.Admits (encode c.version v).length) :
    (c.request v).1 = c.reply 0 ∧
      ∀ w, c.reply 0 = .ok w → ∀ i, (c.request v).2.reply i = c.reply (i + 1) := by
  obtain ⟨hwrite, -⟩ := Transport.write_of_admits (n := 0) h
  have hrequest : c.request v = (c.send v).2.readReply := by simp only [request, send, hwrite]
  rw [hrequest]
  simpa only [reply_send] using (c.send v).2.readReply_reply

/-- A request for which there is room is written whole. -/
theorem outgoing_request_of_admits {c : Connection} {v : Value}
    (h : c.transport.Admits (encode c.version v).length) :
    (c.request v).2.outgoing =
      (c.version, c.transport.written ++ encode c.version v, c.transport.limit) := by
  obtain ⟨hwrite, -⟩ := Transport.write_of_admits (n := 0) h
  rw [outgoing_request]
  simp only [send, hwrite, outgoing]

/-- A request that was written leaves room for as many bytes as there was behind it. -/
theorem admits_request {c : Connection} {v : Value}
    (h : c.transport.Admits (encode c.version v).length) (n : Nat) :
    (c.request v).2.transport.Admits n ↔
      c.transport.Admits ((encode c.version v).length + n) := by
  have houtgoing := outgoing_request_of_admits h
  simp only [outgoing, Prod.mk.injEq] at houtgoing
  unfold Transport.Admits Transport.room at h ⊢
  rw [houtgoing.2.1, houtgoing.2.2]
  cases hlimit : c.transport.limit with
  | none => simp
  | some limit =>
    simp only [hlimit, Option.map_some, Option.some.injEq, forall_eq', List.length_append] at h ⊢
    omega

end Connection

/-! ## Commands -/

/-- Whether a transport takes this many more bytes can be seen from it. -/
instance (t : Transport) (n : Nat) : Decidable (t.Admits n) :=
  decidable_of_iff (t.room.all (n ≤ ·) = true) (by cases h : t.room <;> simp [Transport.Admits, h])

namespace Client

open Connection (Wrote)

/-- A command is its request, and what the command makes of the answer. -/
theorem run_eq (client : Client) (c : Command) :
    client.run c = ((client.connection.request c.toFrame).1.bind c.result,
      { client with connection := (client.connection.request c.toFrame).2 }) := by
  unfold run
  split <;> next heq => rw [heq]; rfl

theorem version_run (client : Client) (c : Command) :
    (client.run c).2.connection.version = client.connection.version :=
  congrArg Prod.fst (client.outgoing_run c)

/--
What the last of the first `i + 1` of some commands is answered with, if those before it are
answered: the reply in its place, unless the transport does not take their requests.
-/
def answerTo (client : Client) (cs : List Command) (i : Nat) : Except ClientError Value :=
  if client.connection.transport.Admits
      (requestBytes client.connection.version (cs.take (i + 1))) then
    client.connection.reply i
  else .error Transport.full

/-- Whether the first of some commands are all answered, so that the session goes on. -/
def Answered (client : Client) (cs : List Command) (n : Nat) : Prop :=
  ∀ i < n, ∃ v, client.answerTo cs i = .ok v

/-- A command comes to its answer, and leaves those of the commands behind it. -/
theorem run_answerTo (client : Client) (c : Command) (cs : List Command) :
    (client.run c).1 = (client.answerTo (c :: cs) 0).bind c.result ∧
      ∀ v, client.answerTo (c :: cs) 0 = .ok v →
        ∀ i, (client.run c).2.answerTo cs i = client.answerTo (c :: cs) (i + 1) := by
  have hbytes : ∀ i, requestBytes client.connection.version ((c :: cs).take (i + 1)) =
      (encode client.connection.version c.toFrame).length +
        requestBytes client.connection.version (cs.take i) := fun i => rfl
  unfold answerTo
  simp only [hbytes, List.take_zero, requestBytes, Nat.add_zero]
  by_cases hroom : client.connection.transport.Admits
      (encode client.connection.version c.toFrame).length
  · obtain ⟨hresult, hlater⟩ := Connection.request_reply hroom
    have hadmits := Connection.admits_request hroom
    rw [if_pos hroom]
    refine ⟨?_, fun v hv i => ?_⟩
    · rw [run_eq, hresult]
    · rw [version_run, run_eq, hlater v hv i]
      simp only [hadmits]
  · rw [if_neg hroom]
    obtain ⟨written, hsend⟩ := Connection.send_of_not_admits hroom
    rw [run_of_send hsend]
    exact ⟨rfl, fun v hv => by cases hv⟩

theorem answerTo_of_unlimited {client : Client} (h : client.connection.transport.limit = none)
    (cs : List Command) (i : Nat) : client.answerTo cs i = client.connection.reply i := by
  have hroom : client.connection.transport.Admits
      (requestBytes client.connection.version (cs.take (i + 1))) := by
    simp [Transport.Admits, Transport.room, h]
  exact if_pos hroom

/-- A command that is not answered has met a failure of the connection. -/
theorem ofConnection_of_answerTo {client : Client} {cs : List Command} {i : Nat} {e : ClientError}
    (h : client.answerTo cs i = .error e) : e.OfConnection := by
  unfold answerTo at h
  split at h
  · exact Connection.ofConnection_of_reply h
  · cases h
    trivial

theorem answered_zero (client : Client) (cs : List Command) : client.Answered cs 0 :=
  fun _ h => absurd h (Nat.not_lt_zero _)

/-- Commands are all answered if the first is, and then those behind it. -/
theorem answered_succ {client : Client} {c : Command} {cs : List Command} {n : Nat} :
    client.Answered (c :: cs) (n + 1) ↔
      (∃ v, client.answerTo (c :: cs) 0 = .ok v) ∧ (client.run c).2.Answered cs n := by
  constructor
  · intro h
    obtain ⟨v, hv⟩ := h 0 (by omega)
    refine ⟨⟨v, hv⟩, fun i hi => ?_⟩
    rw [(client.run_answerTo c cs).2 v hv]
    exact h (i + 1) (by omega)
  · rintro ⟨⟨v, hv⟩, h⟩ i hi
    cases i with
    | zero => exact ⟨v, hv⟩
    | succ i =>
      rw [← (client.run_answerTo c cs).2 v hv]
      exact h i (by omega)

/-- The requests of some commands, one after another. -/
def requests (version : Version) (cs : List Command) : Bytes :=
  cs.flatMap fun c => encode version c.toFrame

/-- Commands write their requests behind all that came before, as far as the transport takes
them. -/
theorem wrote_runAll {client : Client} {limit : Option Nat} {before : Bytes}
    (h : client.connection.Wrote limit before) (cs : List Command) :
    (client.runAll cs).2.connection.Wrote limit
      (before ++ requests client.connection.version cs) := by
  induction cs generalizing client before with
  | nil => simpa [runAll, requests] using h
  | cons c cs ih =>
    have hsent := (h.send c.toFrame).of_eq (congrArg Prod.snd (client.outgoing_run c))
    have hrest := ih hsent
    rw [version_run, List.append_assoc] at hrest
    exact hrest

/-- A command that is answered has been written. -/
theorem admits_of_answerTo {client : Client} {cs : List Command} {i : Nat} {v : Value}
    (h : client.answerTo cs i = .ok v) : client.connection.transport.Admits
      (requestBytes client.connection.version (cs.take (i + 1))) := by
  unfold answerTo at h
  split at h
  · assumption
  · cases h

/-- Commands that are all answered have been written to the last byte. -/
theorem written_runAll {client : Client} {cs : List Command} (h : client.Answered cs cs.length) :
    (client.runAll cs).2.connection.transport.written =
      client.connection.transport.written ++ requests client.connection.version cs := by
  induction cs generalizing client with
  | nil => simp [runAll, requests]
  | cons c cs ih =>
    obtain ⟨⟨v, hv⟩, hrest⟩ := answered_succ.1 h
    have hroom := admits_of_answerTo hv
    simp only [List.take_succ_cons, List.take_zero, requestBytes, Nat.add_zero] at hroom
    have houtgoing := Connection.outgoing_request_of_admits hroom
    simp only [Connection.outgoing, Prod.mk.injEq] at houtgoing
    have hlast := ih hrest
    rw [version_run] at hlast
    rw [show (client.runAll (c :: cs)).2 = ((client.run c).2.runAll cs).2 from rfl, hlast, run_eq,
      houtgoing.2.1, List.append_assoc]
    rfl

end Client

/-! ## Surroundings -/

/-- Whether a session of some surroundings is held by a client, whatever the clock shows. -/
structure Hosts {σ : Type} (answer : (r : Request) → σ → r.Answer × σ) (session : Nat)
    (client : σ → Client) : Prop where
  result : ∀ (c : Command) (s : σ), (answer (.run session c) s).1 = ((client s).run c).1
  ran : ∀ (c : Command) (s : σ), client (answer (.run session c) s).2 = ((client s).run c).2
  clock : ∀ s : σ, client (answer .clock s).2 = client s

/-- A look at the clock comes between no command and its answer. -/
theorem Hosts.after_clock {σ : Type} {answer : (r : Request) → σ → r.Answer × σ} {session : Nat}
    {client : σ → Client} (h : Hosts answer session client) {c : Command}
    {result : Except ClientError c.Output} {s s' : σ}
    (hrun : answer (.run session c) (answer .clock s).2 = (result, s')) :
    result = ((client s).run c).1 ∧ client s' = ((client s).run c).2 := by
  have hresult := h.result c (answer .clock s).2
  have hran := h.ran c (answer .clock s).2
  rw [hrun, h.clock] at hresult hran
  exact ⟨hresult, hran⟩

/-- A replay holds every session by its one client. -/
theorem hosts_answer (session : Nat) : Hosts Client.answer session id :=
  ⟨fun _ _ => rfl, fun _ _ => rfl, fun _ => rfl⟩

end StoreTrial
