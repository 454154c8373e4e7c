import Mathlib
import StoreTrial.Proofs.Session.Delivery
import StoreTrial.Proofs.Session.Reading

/-!
# What a session still holds when a listener hands it back

Asking for the next message over and over again yields, sooner or later, every message that a
session keeps or will receive.  A listener that is cancelled, or whose connection closes, hands back
a session that holds exactly what was not forwarded.  A listener whose receiver is gone does not: it
learns of that with a message in hand, and this one message is neither forwarded nor kept.

## Main results

* `Subscriber.exists_messages_next` — asking often enough yields all messages.
* `Subscriber.delivered_listenFor_some`, `Subscriber.exists_accounts_listenFor_some` — listening for
  a receiver that takes only so many messages, compared with one that takes all.
* `Subscriber.listenFor_some_loses_message_in_hand` — what is lost when a receiver goes away.
* `Subscriber.not_forall_listen_keeps_messages` — so messages can be lost.
-/

namespace StoreTrial

open Resp (Value drain)

/-! ## Reads that cannot go on -/

namespace Connection

/-- A read that fails leaves less to be read, or fails in the same way for ever. -/
theorem backlog_or_stuck_of_readFrame {c c' : Connection} {e : ClientError}
    (h : c.readFrame = (.error e, c')) : c'.backlog < c.backlog ∨ c' = c ∧ c.Stuck e := by
  fun_induction readFrame c with
  | case1 => cases h
  | case2 c e' c'' hpoll =>
    cases h
    cases polls_of_poll hpoll with
    | malformed hparse => exact .inr ⟨rfl, .malformed hparse⟩
    | fault hparse harrival =>
      left
      simp only [backlog, skipArrival, harrival, List.drop_succ_cons, List.drop_zero, List.map_cons,
        List.sum_cons]
      omega
    | closed hparse harrival =>
      cases hinbound : c.transport.inbound with
      | nil =>
        have hskip : c.skipArrival = c := by
          obtain ⟨⟨inbound, written, limit⟩, buffer, version⟩ := c
          subst hinbound
          rfl
        exact .inr ⟨hskip, .closed hparse hinbound⟩
      | cons a inbound =>
        obtain rfl : a = .data [] := by simpa [hinbound] using harrival
        left
        simp only [backlog, skipArrival, hinbound, List.drop_succ_cons, List.drop_zero,
          List.map_cons, List.sum_cons]
        omega
  | case3 c c'' hpoll ih =>
    have hless : c''.backlog < c.backlog := backlog_of_poll hpoll
    obtain hlater | ⟨rfl, -⟩ := ih h
    · exact .inl (Nat.lt_trans hlater hless)
    · exact .inl hless

end Connection

namespace Subscriber

/-- Reading for a message leaves less to be read, or fails in the same way for ever. -/
theorem backlog_or_stuck_of_readMessage (c : Connection) :
    (readMessage c).2.backlog < c.backlog ∨
      ∃ e, readMessage c = (.error e, c) ∧ c.Stuck e := by
  fun_induction readMessage c with
  | case1 c e c' hframe =>
    obtain hless | ⟨rfl, hstuck⟩ := Connection.backlog_or_stuck_of_readFrame hframe
    · exact .inl hless
    · exact .inr ⟨e, rfl, hstuck⟩
  | case2 c v c' hframe message hmessage =>
    have hless := Connection.backlog_of_readFrame hframe
    exact .inl (by dsimp only; omega)
  | case3 c v c' hframe hnone ih =>
    have hless := Connection.backlog_of_readFrame hframe
    obtain hlater | ⟨e, hread, -⟩ := ih
    · exact .inl (by omega)
    · rw [hread]
      exact .inl (by dsimp only; omega)

/-! ## Asking for all messages -/

/-- How many messages are kept, and how much is still to be read. -/
def remaining (s : Subscriber) : Nat := s.pending.length + s.connection.backlog

theorem performAll_next_cons (s : Subscriber) (calls : List Call) :
    (s.performAll (.next :: calls)).1 =
      s.nextMessage.1.toOption.toList ++ (s.nextMessage.2.performAll calls).1 := rfl

/-- Asking for a message leaves less behind, or fails in the same way for ever. -/
theorem remaining_or_stuck_of_nextMessage (s : Subscriber) :
    s.nextMessage.2.remaining < s.remaining ∨
      ∃ e, s.nextMessage = (.error e, s) ∧ s.pending = [] ∧ s.connection.Stuck e := by
  obtain ⟨connection, pending⟩ := s
  cases pending with
  | cons message pending =>
    left
    simp only [nextMessage, remaining, List.length_cons]
    omega
  | nil =>
    obtain hless | ⟨e, hread, hstuck⟩ := backlog_or_stuck_of_readMessage connection
    · left
      simpa [nextMessage, remaining] using hless
    · exact .inr ⟨e, by simp only [nextMessage, hread], rfl, hstuck⟩

theorem performAll_next_of_stuck {s : Subscriber} {e : ClientError}
    (h : s.nextMessage = (.error e, s)) (n : Nat) :
    (s.performAll (List.replicate n .next)).1 = [] := by
  induction n with
  | zero => rfl
  | succ n ih =>
    rw [List.replicate_succ, performAll_next_cons, h, ih]
    rfl

/-- **Asking often enough yields all messages**: those kept, and those among what will arrive. -/
theorem exists_messages_next (s : Subscriber) :
    ∃ N, ∀ n, N ≤ n → (s.performAll (List.replicate n .next)).1 =
      s.pending ++ messagesOf (drain s.connection.stream).frames := by
  induction hrank : s.remaining using Nat.strongRecOn generalizing s with
  | ind rank ih =>
    subst hrank
    obtain hless | ⟨e, hnext, hpending, hstuck⟩ := remaining_or_stuck_of_nextMessage s
    · obtain ⟨frames, haccounts⟩ := exists_accounts_nextMessage s
      obtain ⟨N, hlater⟩ := ih _ hless _ rfl
      have hdrain := haccounts.takes.drain_eq
      refine ⟨N + 1, fun n hn => ?_⟩
      obtain ⟨m, rfl⟩ := Nat.exists_eq_add_of_lt hn
      rw [List.replicate_succ, performAll_next_cons, hlater _ (by omega), ← List.append_assoc,
        haccounts.conserved, hdrain, List.append_assoc]
      simp only [messagesOf, List.filterMap_append]
    · refine ⟨0, fun n _ => ?_⟩
      rw [performAll_next_of_stuck hnext, hpending, hstuck.drain_stream.1]
      rfl

/-! ## A receiver that goes away -/

theorem forward_zero (looks : Nat) (message : Message) (s : Subscriber) :
    listenFor.forward looks (some 0) message s = ⟨[], .ok s⟩ := by
  rw [listenFor.forward]

theorem forward_succ (looks room : Nat) (message : Message) (s : Subscriber) :
    listenFor.forward looks (some (room + 1)) message s =
      (s.listenFor looks (some room)).after message := by
  rw [listenFor.forward]
  · rfl
  · simp

/-- A receiver that takes only so many messages gets the first ones of those that all take. -/
theorem delivered_listenFor_some (looks room : Nat) (s : Subscriber) :
    (s.listenFor looks (some room)).delivered =
      (s.listenFor looks none).delivered.take room := by
  induction looks generalizing room s with
  | zero =>
    simp only [listenFor, List.take_nil]
  | succ looks ih =>
    have hforward : ∀ (message : Message) (s : Subscriber),
        (listenFor.forward looks (some room) message s).delivered =
          (listenFor.forward looks none message s).delivered.take room := by
      intro message s
      rw [forward_none]
      cases room with
      | zero => rw [forward_zero, List.take_zero]
      | succ room =>
        rw [forward_succ]
        exact congrArg (message :: ·) (ih room s)
    unfold listenFor
    split
    · exact hforward _ _
    · split
      · split
        · exact hforward _ _
        · exact ih _ _
      · exact ih _ _
      · exact List.take_nil.symm
      · exact List.take_nil.symm

/--
Listening that ends well accounts for one message more than the receiver took, if there was one:
the message in hand when the listener learned that nobody takes it.
-/
theorem exists_accounts_listenFor_some (looks room : Nat) (s s' : Subscriber)
    (h : (s.listenFor looks (some room)).ending = .ok s') :
    ∃ frames, Accounts s ((s.listenFor looks none).delivered.take (room + 1)) frames s' := by
  induction looks generalizing room s with
  | zero =>
    rw [listenFor] at h
    cases h
    exact ⟨[], accounts_of_stream_eq rfl (by rw [listenFor]; rfl)⟩
  | succ looks ih =>
    -- one message goes to the receiver, or is the one in hand, and then the listening goes on
    have hforward : ∀ (message : Message) (t : Subscriber) (frames : List Value),
        Accounts s [message] frames t →
        (listenFor.forward looks (some room) message t).ending = .ok s' →
        ∃ frames, Accounts s
          ((listenFor.forward looks none message t).delivered.take (room + 1)) frames s' := by
      intro message t frames hfirst hending
      rw [forward_none]
      cases room with
      | zero =>
        rw [forward_zero] at hending
        cases hending
        exact ⟨frames, hfirst⟩
      | succ room =>
        rw [forward_succ] at hending
        obtain ⟨frames', hlater⟩ := ih room t hending
        exact ⟨frames ++ frames', hfirst.trans hlater⟩
    unfold listenFor at h ⊢
    split at h
    · next message pending hpending =>
      exact hforward _ _ [] (accounts_of_stream_eq rfl hpending.symm) h
    · next hpending =>
      split at h
      · next v connection hpoll =>
        have hframe := Connection.readFrame_of_frame hpoll
        split at h
        · next message hmessage =>
          exact hforward _ _ [v] (accounts_of_readFrame hframe (by simp [hpending, hmessage])) h
        · next hnone =>
          have htaken : Accounts s [] [v] { s with connection } :=
            accounts_of_readFrame hframe (by simp [hnone])
          obtain ⟨frames, hlater⟩ := ih _ _ h
          exact ⟨[v] ++ frames, htaken.trans hlater⟩
      · next connection hpoll =>
        have hreceived : Accounts s [] [] { s with connection } :=
          accounts_of_stream_eq (Connection.polls_of_poll hpoll).stream_eq rfl
        obtain ⟨frames, hlater⟩ := ih _ _ h
        exact ⟨[] ++ frames, hreceived.trans hlater⟩
      · next connection hpoll =>
        cases h
        exact ⟨[], accounts_of_stream_eq (Connection.polls_of_poll hpoll).stream_eq rfl⟩
      · cases h

/--
**What is lost when a receiver goes away.**  The receiver took the first `room` of the messages that
an untiring one would have taken.  If there was another, it is lost; what the session still yields
when it is handed back is all the rest.
-/
theorem listenFor_some_loses_message_in_hand (looks room : Nat) (s s' : Subscriber)
    (h : (s.listenFor looks (some room)).ending = .ok s') :
    (s.listenFor looks (some room)).delivered = (s.listenFor looks none).delivered.take room ∧
    ∃ N, ∀ n, N ≤ n →
      (s.listenFor looks (some room)).delivered
        ++ ((s.listenFor looks none).delivered.drop room).take 1
        ++ (s'.performAll (List.replicate n .next)).1 =
      s.pending ++ messagesOf (drain s.connection.stream).frames := by
  have hdelivered := delivered_listenFor_some looks room s
  obtain ⟨frames, haccounts⟩ := exists_accounts_listenFor_some looks room s s' h
  obtain ⟨N, hnext⟩ := exists_messages_next s'
  refine ⟨hdelivered, N, fun n hn => ?_⟩
  rw [hdelivered, ← List.take_add, hnext n hn, ← List.append_assoc, haccounts.conserved,
    haccounts.takes.drain_eq, List.append_assoc]
  simp only [messagesOf, List.filterMap_append]

/-- A session to which one message has been sent. -/
def oneSent : Subscriber :=
  { connection := { transport := { inbound := [.data (Bytes.ofText
      ">3\r\n$7\r\nmessage\r\n$2\r\nch\r\n$1\r\na\r\n")] } } }

/-- The same session when the message has been taken off its stream. -/
def noneLeft : Subscriber := { connection := { transport := { inbound := [] } } }

theorem messagesOf_oneSent :
    messagesOf (drain oneSent.connection.stream).frames =
      [⟨Bytes.ofText "ch", Bytes.ofText "a"⟩] := by
  have hparse : Resp.parse oneSent.connection.stream = .complete
      (.push [.bulk (Bytes.ofText "message"), .bulk (Bytes.ofText "ch"), .bulk (Bytes.ofText "a")])
      [] := by
    cbv
  rw [(Takes.single hparse).drain_eq, Resp.drain_of_incomplete Resp.parse_nil]
  rfl

/-- Nobody takes the message that was sent, and the session that is handed back is without it. -/
theorem listenFor_oneSent_without_receiver :
    (oneSent.listenFor 4 (some 0)).ending = .ok noneLeft ∧
      (oneSent.listenFor 4 (some 0)).delivered = [] ∧
      (oneSent.listenFor 4 none).delivered = [⟨Bytes.ofText "ch", Bytes.ofText "a"⟩] ∧
      ∃ N, ∀ n, N ≤ n → (noneLeft.performAll (List.replicate n .next)).1 = [] := by
  have hending : (oneSent.listenFor 4 (some 0)).ending = .ok noneLeft := by cbv
  have hfull : (oneSent.listenFor 4 none).delivered = [⟨Bytes.ofText "ch", Bytes.ofText "a"⟩] := by
    cbv
  obtain ⟨hdelivered, N, hnext⟩ := listenFor_some_loses_message_in_hand 4 0 oneSent noneLeft hending
  refine ⟨hending, hdelivered, hfull, N, fun n hn => ?_⟩
  have hall := hnext n hn
  rw [hdelivered, hfull, messagesOf_oneSent] at hall
  simpa [oneSent] using hall

/-- So messages can be lost: the one that was sent is neither forwarded nor handed back. -/
theorem not_forall_listen_keeps_messages :
    ¬ ∀ (s : Subscriber) (room : Nat) (s' : Subscriber),
      (s.listen (some room)).ending = .ok s' →
        ∃ N, ∀ n, N ≤ n →
          (s.listen (some room)).delivered ++ (s'.performAll (List.replicate n .next)).1 =
            s.pending ++ messagesOf (drain s.connection.stream).frames := by
  intro h
  have hending : (oneSent.listen (some 0)).ending = .ok noneLeft := by cbv
  have hdelivered : (oneSent.listen (some 0)).delivered = [] := by cbv
  obtain ⟨N, hall⟩ := h oneSent 0 noneLeft hending
  obtain ⟨N', hnext⟩ := exists_messages_next noneLeft
  have hlost := hall (N + N') (by omega)
  rw [hdelivered, hnext _ (by omega), messagesOf_oneSent, noneLeft, Connection.stream,
    List.flatMap_nil, List.append_nil, Resp.drain_of_incomplete Resp.parse_nil] at hlost
  simp [messagesOf] at hlost

end Subscriber

end StoreTrial
