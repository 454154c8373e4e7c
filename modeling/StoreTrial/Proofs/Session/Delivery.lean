import StoreTrial.Proofs.Session.Alignment
import StoreTrial.Proofs.Session.Expectation
import StoreTrial.Session.Subscriber

/-!
# No message is lost, repeated or reordered

A message is in one of three places: handed out, kept by the subscriber, or still in the stream.
Every operation of a subscriber moves messages on in this order only, so at any time those handed
out followed by those kept are the messages among the frames taken off the stream, in the order of
the stream.  This holds however the operations end, and also when a listener takes the session
away and a failure of its connection loses it.

What an operation comes to is known from the frames that are to be expected.  The first of them that
settles a wait is the last one taken, and only where none does is the answer the failure of reading.

## Main results

* `Subscriber.Accounts.trans` — two stretches of a session account for their messages together.
* `Subscriber.awaitConfirmation_eq`, `Subscriber.awaited_confirm` — waiting for a confirmation keeps
  all messages, and ends with the first frame that settles the wait.
* `Subscriber.exists_accounts_listenFor` — listening accounts for its messages, cancelled at any
  point.
* `Subscriber.delivered_listen` — if it is not cancelled it forwards all that are to be expected.
* `Subscriber.exists_accounts_performAll` — any calls, in any order.
* `Subscriber.messages_in_stream_order` — the messages of a whole session, and what joining and
  leaving a channel answer.
-/

namespace StoreTrial

open Resp (Value encode)

/-! ## Messages among frames -/

/-- The messages among frames, in their order. -/
def messagesOf (frames : List Value) : List Message := frames.filterMap Message.ofFrame?

/-- No frame is both a confirmation and a message. -/
theorem Message.ofFrame?_of_ofKind? {kind : String} {v : Value} {confirmation : Confirmation}
    (hkind : (Bytes.ofText kind).map Bytes.lowerByte ≠ (Bytes.ofText "message").map Bytes.lowerByte)
    (h : Confirmation.ofKind? kind v = some confirmation) : Message.ofFrame? v = none := by
  unfold Confirmation.ofKind? at h
  split at h
  · next word channel count hitems =>
    split at h
    · next hreads =>
      have hother : word.reads "message" = false := by
        unfold Value.reads at hreads ⊢
        cases htext : word.text? with
        | none => rfl
        | some bytes =>
          rw [htext] at hreads
          have hbytes : bytes.map Bytes.lowerByte = (Bytes.ofText kind).map Bytes.lowerByte := by
            simpa [Bytes.sameIgnoringCase] using hreads
          simpa [Bytes.sameIgnoringCase, hbytes] using hkind
      simp [Message.ofFrame?, hitems, hother]
    · cases h
  · cases h

theorem Message.ofFrame?_of_ofSubscribe? {v : Value} {confirmation : Confirmation}
    (h : Confirmation.ofSubscribe? v = some confirmation) : Message.ofFrame? v = none :=
  ofFrame?_of_ofKind? (by decide) h

theorem Message.ofFrame?_of_ofUnsubscribe? {v : Value} {confirmation : Confirmation}
    (h : Confirmation.ofUnsubscribe? v = some confirmation) : Message.ofFrame? v = none :=
  ofFrame?_of_ofKind? (by decide) h

namespace Connection

/-- The connection after all frames are read that can be read before a failure. -/
def exhaust (c : Connection) : Connection :=
  match _h : c.readFrame with
  | (.ok _, c') => c'.exhaust
  | (.error _, c') => c'
  termination_by c.backlog
  decreasing_by
    have := backlog_of_readFrame _h
    omega

theorem exhaust_of_ok {c c' : Connection} {v : Value} (h : c.readFrame = (.ok v, c')) :
    c.exhaust = c'.exhaust := by
  rw [exhaust]
  split <;> simp_all

theorem exhaust_of_error {c c' : Connection} {e : ClientError}
    (h : c.readFrame = (.error e, c')) : c.exhaust = c' := by
  rw [exhaust]
  split <;> simp_all

theorem exhaust_of_received {c c' : Connection} (h : c.poll = (.received, c')) :
    c.exhaust = c'.exhaust := by
  have hsame := readFrame_of_received h
  cases hread : c'.readFrame with
  | mk result c'' =>
    rw [hread] at hsame
    cases result with
    | ok v => rw [exhaust_of_ok hsame, exhaust_of_ok hread]
    | error e => rw [exhaust_of_error hsame, exhaust_of_error hread]

end Connection

namespace Subscriber

/-! ## Accounts -/

/--
A stretch of a session from `s` to `s'` that took the frames off the stream: what it handed out and
what is kept after it are what was kept before it and the messages among the frames.
-/
structure Accounts (s : Subscriber) (handed : List Message) (frames : List Value)
    (s' : Subscriber) : Prop where
  takes : Takes s.connection.stream frames s'.connection.stream
  conserved : handed ++ s'.pending = s.pending ++ messagesOf frames

theorem Accounts.trans {s s' s'' : Subscriber} {handed handed' : List Message}
    {frames frames' : List Value} (h : Accounts s handed frames s')
    (h' : Accounts s' handed' frames' s'') :
    Accounts s (handed ++ handed') (frames ++ frames') s'' := by
  refine ⟨h.takes.append h'.takes, ?_⟩
  calc handed ++ handed' ++ s''.pending
      = handed ++ (s'.pending ++ messagesOf frames') := by rw [List.append_assoc, h'.conserved]
    _ = s.pending ++ messagesOf (frames ++ frames') := by
        rw [← List.append_assoc, h.conserved, List.append_assoc, messagesOf, messagesOf,
          messagesOf, List.filterMap_append]

/-- A frame that is taken while what is handed out and kept grows by its message, if it is one. -/
theorem accounts_of_readFrame {s s' : Subscriber} {v : Value} {handed : List Message}
    (h : s.connection.readFrame = (.ok v, s'.connection))
    (hkept : handed ++ s'.pending = s.pending ++ (Message.ofFrame? v).toList) :
    Accounts s handed [v] s' := by
  refine ⟨.single (Connection.parse_stream_of_readFrame h), ?_⟩
  rw [hkept, messagesOf]
  cases hmessage : Message.ofFrame? v <;> simp [hmessage]

/-- Where no frame is taken, what is handed out was kept. -/
theorem accounts_of_stream_eq {s s' : Subscriber} {handed : List Message}
    (h : s'.connection.stream = s.connection.stream) (hkept : handed ++ s'.pending = s.pending) :
    Accounts s handed [] s' :=
  ⟨.of_eq h, by simpa [messagesOf] using hkept⟩

/-! ## Confirmations -/

/-- What a frame settles for a session that awaits a confirmation. -/
def ruling (read : Value → Option Confirmation) (channel : Bytes) (v : Value) :
    Option (Except ClientError Confirmation) :=
  match (read v).filter (·.channel == channel), v with
  | some confirmation, _ => some (.ok confirmation)
  | none, .error message => some (.error (.server message))
  | none, _ => none

/--
The first of the frames that settles the wait is the last one taken, and the result is what it
settles; if none does, the result is a failure of the kind that connections have.
-/
inductive Settles (rule : Value → Option (Except ClientError Confirmation)) :
    List Value → Except ClientError Confirmation → Prop where
  | first {v : Value} {result : Except ClientError Confirmation} (h : rule v = some result) :
      Settles rule [v] result
  | failed {e : ClientError} (h : e.OfConnection) : Settles rule [] (.error e)
  | later {v : Value} {vs : List Value} {result : Except ClientError Confirmation}
      (h : rule v = none) (hlater : Settles rule vs result) : Settles rule (v :: vs) result

/--
What a session comes to that sends a command and awaits what settles it.  If the transport does not
take the request that is the failure, and no frame is read.  Otherwise the result is what the first
of the expected frames settles that settles anything, and the failure of reading only without one;
the frames up to there are taken, and their messages kept.
-/
structure Awaited (s : Subscriber) (c : Command)
    (rule : Value → Option (Except ClientError Confirmation))
    (result : Except ClientError Confirmation) (s' : Subscriber) : Prop where
  refused : ¬ s.connection.transport.Admits (encode s.connection.version c.toFrame).length →
    result = .error Transport.full ∧ Accounts s [] [] s'
  settled : s.connection.transport.Admits (encode s.connection.version c.toFrame).length →
    result = s.connection.settled rule ∧ Accounts s [] (s.connection.examined rule) s'

section Confirmation

variable {rule : Value → Option (Except ClientError Confirmation)}

/-- The expected frames settle what they come to, one way or the other. -/
theorem settles_settled (c : Connection) : Settles rule (c.examined rule) (c.settled rule) := by
  unfold Connection.examined Connection.settled
  induction c.prospect with
  | nil => exact .failed c.ofConnection_failure
  | cons v vs ih =>
    cases hv : rule v with
    | some result => simpa [List.findIdx_cons, hv] using Settles.first hv
    | none => simpa [List.findIdx_cons, hv] using Settles.later hv ih

theorem Awaited.exists_accounts {s s' : Subscriber} {c : Command}
    {result : Except ClientError Confirmation} (h : Awaited s c rule result s') :
    ∃ frames, Accounts s [] frames s' ∧ Settles rule frames result := by
  by_cases hroom : s.connection.transport.Admits (encode s.connection.version c.toFrame).length
  · obtain ⟨rfl, haccounts⟩ := h.settled hroom
    exact ⟨_, haccounts, settles_settled s.connection⟩
  · obtain ⟨rfl, haccounts⟩ := h.refused hroom
    exact ⟨[], haccounts, .failed trivial⟩

/-- A frame that settles the wait and is no message ends it, and nothing more is kept. -/
theorem accounts_of_settled {s : Subscriber} {connection : Connection} {v : Value}
    {result : Except ClientError Confirmation} (h : s.connection.readFrame = (.ok v, connection))
    (hrule : rule v = some result) (hnone : Message.ofFrame? v = none) :
    result = s.connection.settled rule ∧
      Accounts s [] (s.connection.examined rule) { s with connection } := by
  obtain ⟨hsettled, hexamined⟩ := Connection.settled_of_some h hrule
  rw [hsettled, hexamined]
  exact ⟨rfl, accounts_of_readFrame h (by simp [hnone])⟩

variable {read : Value → Option Confirmation}

/-- Waiting keeps every message, and ends with the first frame that settles the wait. -/
theorem awaitConfirmation_eq (hread : ∀ v k, read v = some k → Message.ofFrame? v = none)
    (channel : Bytes) (s : Subscriber) :
    (awaitConfirmation channel read s).1 = s.connection.settled (ruling read channel) ∧
      Accounts s [] (s.connection.examined (ruling read channel))
        (awaitConfirmation channel read s).2 := by
  fun_induction awaitConfirmation channel read s with
  | case1 s e connection hframe =>
    obtain ⟨hsettled, hexamined⟩ := Connection.settled_of_error hframe (ruling read channel)
    rw [hsettled, hexamined]
    exact ⟨rfl, accounts_of_stream_eq (Connection.stream_of_readFrame hframe) rfl⟩
  | case2 s v connection hframe k hk =>
    have hrule : ruling read channel v = some (.ok k) := by simp [ruling, hk]
    obtain ⟨hv, -⟩ := Option.filter_eq_some_iff.1 hk
    exact accounts_of_settled hframe hrule (hread v k hv)
  | case3 s connection message hframe _ hk =>
    have hrule : ruling read channel (.error message) = some (.error (.server message)) := by
      simp [ruling, hk]
    exact accounts_of_settled hframe hrule (by simp [Message.ofFrame?, Value.items?])
  | case4 s v connection hframe hk _ hother ih =>
    have hrule : ruling read channel v = none := by
      cases v <;> simp [ruling, hk]
      exact hother _ hframe rfl HEq.rfl
    obtain ⟨hresult, haccounts⟩ := ih
    have hfirst : Accounts s [] [v] ⟨connection, s.pending ++ (Message.ofFrame? v).toList⟩ :=
      accounts_of_readFrame hframe rfl
    obtain ⟨hsettled, hexamined⟩ := Connection.settled_of_none hframe hrule
    rw [hsettled, hexamined]
    exact ⟨hresult, hfirst.trans haccounts⟩

theorem awaited_confirm (hread : ∀ v k, read v = some k → Message.ofFrame? v = none) (c : Command)
    (channel : Bytes) (s : Subscriber) :
    Awaited s c (ruling read channel) (s.confirm c channel read).1
      (s.confirm c channel read).2 := by
  have hstream : (s.connection.send c.toFrame).2.stream = s.connection.stream :=
    Connection.stream_send s.connection c.toFrame
  constructor
  · intro hroom
    have hsend : (s.connection.send c.toFrame).1 = .error Transport.full :=
      congrArg Prod.fst (Transport.write_of_not_admits hroom)
    unfold confirm
    split
    · next e connection heq =>
      rw [heq] at hsend hstream
      cases hsend
      exact ⟨rfl, accounts_of_stream_eq hstream rfl⟩
    · next connection heq =>
      rw [heq] at hsend
      cases hsend
  · intro hroom
    have hsend := Connection.send_of_admits hroom
    obtain ⟨hsettled, hexamined⟩ := s.connection.settled_send c.toFrame (ruling read channel)
    unfold confirm
    split
    · next e connection heq =>
      rw [heq] at hsend
      cases hsend
    · next connection heq =>
      rw [heq] at hstream hsettled hexamined
      obtain ⟨hresult, haccounts⟩ := awaitConfirmation_eq hread channel { s with connection }
      have hsent : Accounts s [] [] { s with connection } := accounts_of_stream_eq hstream rfl
      rw [← hsettled, ← hexamined]
      exact ⟨hresult, hsent.trans haccounts⟩

end Confirmation

theorem awaited_subscribe (s : Subscriber) (channel : Bytes) :
    Awaited s (.subscribe [channel]) (ruling Confirmation.ofSubscribe? channel)
      (s.subscribe channel).1 (s.subscribe channel).2 :=
  awaited_confirm (fun _ _ => Message.ofFrame?_of_ofSubscribe?) _ channel s

theorem awaited_unsubscribe (s : Subscriber) (channel : Bytes) :
    Awaited s (.unsubscribe [channel]) (ruling Confirmation.ofUnsubscribe? channel)
      (s.unsubscribe channel).1 (s.unsubscribe channel).2 :=
  awaited_confirm (fun _ _ => Message.ofFrame?_of_ofUnsubscribe?) _ channel s

theorem exists_accounts_subscribe (s : Subscriber) (channel : Bytes) :
    ∃ frames, Accounts s [] frames (s.subscribe channel).2 ∧
      Settles (ruling Confirmation.ofSubscribe? channel) frames (s.subscribe channel).1 :=
  (s.awaited_subscribe channel).exists_accounts

theorem exists_accounts_unsubscribe (s : Subscriber) (channel : Bytes) :
    ∃ frames, Accounts s [] frames (s.unsubscribe channel).2 ∧
      Settles (ruling Confirmation.ofUnsubscribe? channel) frames (s.unsubscribe channel).1 :=
  (s.awaited_unsubscribe channel).exists_accounts

/-! ## Messages one by one -/

/-- What a frame settles for a session that waits for the next message. -/
def arriving (v : Value) : Option (Except ClientError Message) := (Message.ofFrame? v).map .ok

/-- Reading for a message skips frames that are none, and stops behind the first that is one. -/
theorem readMessage_eq (c : Connection) :
    (readMessage c).1 = c.settled arriving ∧
      Takes c.stream (c.examined arriving) (readMessage c).2.stream ∧
      messagesOf (c.examined arriving) = (readMessage c).1.toOption.toList := by
  fun_induction readMessage c with
  | case1 c e c' hframe =>
    obtain ⟨hsettled, hexamined⟩ := Connection.settled_of_error hframe arriving
    rw [hsettled, hexamined]
    exact ⟨rfl, .of_eq (Connection.stream_of_readFrame hframe), rfl⟩
  | case2 c v c' hframe message hmessage =>
    have hrule : arriving v = some (.ok message) := by simp [arriving, hmessage]
    obtain ⟨hsettled, hexamined⟩ := Connection.settled_of_some hframe hrule
    rw [hsettled, hexamined]
    refine ⟨rfl, .single (Connection.parse_stream_of_readFrame hframe), ?_⟩
    simp [messagesOf, hmessage, Except.toOption]
  | case3 c v c' hframe hnone ih =>
    have hrule : arriving v = none := by simp [arriving, hnone]
    obtain ⟨hresult, htakes, hmessages⟩ := ih
    obtain ⟨hsettled, hexamined⟩ := Connection.settled_of_none hframe hrule
    rw [hsettled, hexamined]
    refine ⟨hresult, .cons (Connection.parse_stream_of_readFrame hframe) htakes, ?_⟩
    simpa [messagesOf, hnone] using hmessages

/-- The next message is the oldest one kept, or else the first that is to be expected. -/
theorem nextMessage_eq (s : Subscriber) :
    s.nextMessage.1 = s.pending.head?.elim (s.connection.settled arriving) .ok := by
  unfold nextMessage
  split
  · next message pending hpending => rw [hpending, List.head?_cons, Option.elim_some]
  · next hpending =>
    rw [hpending, List.head?_nil, Option.elim_none]
    exact (readMessage_eq s.connection).1

theorem exists_accounts_nextMessage (s : Subscriber) :
    ∃ frames, Accounts s s.nextMessage.1.toOption.toList frames s.nextMessage.2 := by
  unfold nextMessage
  split
  · next message pending hpending =>
    exact ⟨[], accounts_of_stream_eq rfl (by simp [hpending, Except.toOption])⟩
  · next hpending =>
    obtain ⟨-, htakes, hmessages⟩ := readMessage_eq s.connection
    exact ⟨_, htakes, by simp [hpending, hmessages]⟩

/-! ## Listening -/

/--
The session when a listener stopped.  A failure loses it: its connection is then where reading
fails, and nothing is kept.
-/
def Listening.left (l : Listening) (s : Subscriber) : Subscriber :=
  match l.ending with
  | .ok s' => s'
  | .error _ => ⟨s.connection.exhaust, []⟩

theorem forward_none (looks : Nat) (message : Message) (s : Subscriber) :
    listenFor.forward looks none message s = (s.listenFor looks none).after message := by
  rw [listenFor.forward]
  · rfl
  · simp

/-- A stretch of a session in front of the listening, which finds the same end of the stream. -/
theorem Accounts.before_listening {s s' : Subscriber} {handed : List Message}
    {frames : List Value} {l : Listening} (h : Accounts s handed frames s')
    (hend : s.connection.exhaust = s'.connection.exhaust)
    (hl : ∃ frames, Accounts s' l.delivered frames (l.left s')) :
    ∃ frames, Accounts s (handed ++ l.delivered) frames (l.left s) := by
  obtain ⟨frames', hl⟩ := hl
  have hleft : l.left s = l.left s' := by
    unfold Listening.left
    rw [hend]
  rw [hleft]
  exact ⟨frames ++ frames', h.trans hl⟩

/-- A listener forwards what is kept, then each message that it reads, until it stops. -/
theorem exists_accounts_listenFor (looks : Nat) (s : Subscriber) :
    ∃ frames, Accounts s (s.listenFor looks none).delivered frames
      ((s.listenFor looks none).left s) := by
  induction looks generalizing s with
  | zero =>
    rw [listenFor]
    exact ⟨[], accounts_of_stream_eq rfl rfl⟩
  | succ looks ih =>
    unfold listenFor
    split
    · next message pending hpending =>
      have hkept : Accounts s [message] [] { s with pending } :=
        accounts_of_stream_eq rfl hpending.symm
      rw [forward_none]
      exact hkept.before_listening rfl (ih _)
    · next hpending =>
      split
      · next v connection hpoll =>
        have hframe := Connection.readFrame_of_frame hpoll
        have hend := Connection.exhaust_of_ok hframe
        split
        · next message hmessage =>
          have htaken : Accounts s [message] [v] { s with connection } :=
            accounts_of_readFrame hframe (by simp [hpending, hmessage])
          rw [forward_none]
          exact htaken.before_listening hend (ih _)
        · next hnone =>
          have htaken : Accounts s [] [v] { s with connection } :=
            accounts_of_readFrame hframe (by simp [hnone])
          exact htaken.before_listening hend (ih _)
      · next connection hpoll =>
        have hreceived : Accounts s [] [] { s with connection } :=
          accounts_of_stream_eq (Connection.polls_of_poll hpoll).stream_eq rfl
        exact hreceived.before_listening (Connection.exhaust_of_received hpoll) (ih _)
      · next connection hpoll =>
        exact ⟨[], accounts_of_stream_eq (Connection.polls_of_poll hpoll).stream_eq rfl⟩
      · next e connection _ hpoll =>
        have hend := Connection.exhaust_of_error (Connection.readFrame_of_failed hpoll)
        refine ⟨[], accounts_of_stream_eq ?_ (by simp [hpending, Listening.left])⟩
        show s.connection.exhaust.stream = _
        rw [hend]
        exact (Connection.polls_of_poll hpoll).stream_eq

/-- A listener that is not cancelled forwards what is kept, and all that is to be expected. -/
theorem delivered_listenFor {looks : Nat} {s : Subscriber}
    (h : s.pending.length + s.connection.backlog < looks) :
    (s.listenFor looks none).delivered = s.pending ++ messagesOf s.connection.prospect := by
  induction looks generalizing s with
  | zero => exact absurd h (Nat.not_lt_zero _)
  | succ looks ih =>
    unfold listenFor
    split
    · next message pending hpending =>
      have hless : pending.length + s.connection.backlog < looks := by
        rw [hpending, List.length_cons] at h
        omega
      have hrest := ih (s := { s with pending }) hless
      rw [forward_none, hpending]
      exact congrArg (message :: ·) hrest
    · next hpending =>
      have hbacklog : s.connection.backlog ≤ looks := by omega
      rw [hpending, List.nil_append]
      split
      · next v connection hpoll =>
        have hless := Connection.backlog_of_poll hpoll
        dsimp only at hless
        obtain ⟨hprospect, -⟩ := (Connection.polls_of_poll hpoll).prospect_eq
        have hrest := ih (s := ⟨connection, []⟩) (by simp only [List.length_nil]; omega)
        rw [hprospect]
        split
        · next message hmessage =>
          rw [forward_none]
          show message :: _ = _
          rw [hrest]
          simp [messagesOf, hmessage]
        · next hnone =>
          rw [hrest]
          simp [messagesOf, hnone]
      · next connection hpoll =>
        have hless := Connection.backlog_of_poll hpoll
        dsimp only at hless
        obtain ⟨hprospect, -⟩ := (Connection.polls_of_poll hpoll).prospect_eq
        have hrest := ih (s := ⟨connection, []⟩) (by simp only [List.length_nil]; omega)
        rw [hprospect, hrest]
        rfl
      · next connection hpoll =>
        obtain ⟨hprospect, -⟩ := (Connection.polls_of_poll hpoll).prospect_eq
        rw [hprospect]
        rfl
      · next e connection _ hpoll =>
        obtain ⟨hprospect, -⟩ := (Connection.polls_of_poll hpoll).prospect_eq
        rw [hprospect]
        rfl

theorem delivered_listen (s : Subscriber) :
    (s.listen none).delivered = s.pending ++ messagesOf s.connection.prospect :=
  delivered_listenFor (Nat.lt_succ_self _)

/-! ## Any calls in any order -/

/-- A call of a subscriber. -/
inductive Call where
  | subscribe (channel : Bytes)
  | unsubscribe (channel : Bytes)
  | next
  /-- Listening, cancelled after so many looks at the session if nothing else has ended it. -/
  | listen (looks : Nat)
  deriving Repr, DecidableEq

/-- What a call hands out, the session after it, and whether the session is lost. -/
def perform (s : Subscriber) : Call → List Message × Subscriber × Bool
  | .subscribe channel => ([], (s.subscribe channel).2, false)
  | .unsubscribe channel => ([], (s.unsubscribe channel).2, false)
  | .next => (s.nextMessage.1.toOption.toList, s.nextMessage.2, false)
  | .listen looks =>
    let l := s.listenFor looks none
    (l.delivered, l.left s, !l.ending.isOk)

/-- What calls hand out one after another, and the session after them; none follows its loss. -/
def performAll (s : Subscriber) : List Call → List Message × Subscriber
  | [] => ([], s)
  | call :: calls =>
    match s.perform call with
    | (handed, s', true) => (handed, s')
    | (handed, s', false) => (handed ++ (s'.performAll calls).1, (s'.performAll calls).2)

theorem exists_accounts_perform (s : Subscriber) (call : Call) :
    ∃ frames, Accounts s (s.perform call).1 frames (s.perform call).2.1 := by
  cases call with
  | subscribe channel =>
    obtain ⟨frames, haccounts, -⟩ := exists_accounts_subscribe s channel
    exact ⟨frames, haccounts⟩
  | unsubscribe channel =>
    obtain ⟨frames, haccounts, -⟩ := exists_accounts_unsubscribe s channel
    exact ⟨frames, haccounts⟩
  | next => exact exists_accounts_nextMessage s
  | listen looks => exact exists_accounts_listenFor looks s

theorem exists_accounts_performAll (s : Subscriber) (calls : List Call) :
    ∃ frames, Accounts s (s.performAll calls).1 frames (s.performAll calls).2 := by
  induction calls generalizing s with
  | nil => exact ⟨[], accounts_of_stream_eq rfl rfl⟩
  | cons call calls ih =>
    obtain ⟨frames, hcall⟩ := exists_accounts_perform s call
    unfold performAll
    split
    · next handed s' heq =>
      rw [heq] at hcall
      exact ⟨frames, hcall⟩
    · next handed s' heq =>
      rw [heq] at hcall
      obtain ⟨frames', hcalls⟩ := ih s'
      exact ⟨frames ++ frames', hcall.trans hcalls⟩

/--
**No message is lost, repeated or reordered.**  After any calls, whatever arrives and however each
of them ended, the messages handed out and those kept are the messages kept at first and those among
the frames taken off the stream, in the order of the stream.  Asking for a message and listening
hand out what is kept, and then what is to be expected.  Joining or leaving a channel takes frames
until the first that confirms it, which is the answer, or is an error, which is passed on; it fails
as reading does only where no such frame is to be expected.
-/
theorem messages_in_stream_order (s : Subscriber) :
    (∀ calls, ∃ frames,
      Takes s.connection.stream frames (s.performAll calls).2.connection.stream ∧
      (s.performAll calls).1 ++ (s.performAll calls).2.pending =
        s.pending ++ messagesOf frames) ∧
    s.nextMessage.1 = s.pending.head?.elim (s.connection.settled arriving) .ok ∧
    (s.listen none).delivered = s.pending ++ messagesOf s.connection.prospect ∧
    (∀ channel, Awaited s (.subscribe [channel]) (ruling Confirmation.ofSubscribe? channel)
      (s.subscribe channel).1 (s.subscribe channel).2) ∧
    (∀ channel, Awaited s (.unsubscribe [channel]) (ruling Confirmation.ofUnsubscribe? channel)
      (s.unsubscribe channel).1 (s.unsubscribe channel).2) := by
  refine ⟨fun calls => ?_, s.nextMessage_eq, s.delivered_listen, s.awaited_subscribe,
    s.awaited_unsubscribe⟩
  obtain ⟨frames, htakes, hconserved⟩ := exists_accounts_performAll s calls
  exact ⟨frames, htakes, hconserved⟩

/-- A session that is told that it has joined `xx` and sent a message, before it is told in two
pieces that it has joined `ch`, and then that it has left it; an error comes behind that. -/
def joining : Subscriber := { connection := { transport := { inbound := [
  .data (Bytes.ofText ("*3\r\n$9\r\nsubscribe\r\n$2\r\nxx\r\n:1\r\n"
    ++ ">3\r\n$7\r\nmessage\r\n$2\r\nch\r\n$1\r\na\r\n*3\r\n$9\r\nsubs")),
  .data (Bytes.ofText ("cribe\r\n$2\r\nch\r\n:2\r\n"
    ++ "*3\r\n$11\r\nunsubscribe\r\n$2\r\nch\r\n:1\r\n-ERR no\r\n")),
  .fault "reset"] } } }

/-- Joining `ch` and leaving it both succeed and keep the message; waiting for word of `zz`, or of
having left `xx`, ends with the error. -/
theorem messages_in_stream_order_joining :
    let ch := Bytes.ofText "ch"
    ((joining.subscribe ch).1 = .ok ⟨ch, 2⟩ ∧
      (joining.subscribe ch).2.pending = [⟨ch, Bytes.ofText "a"⟩]) ∧
    ((joining.unsubscribe ch).1 = .ok ⟨ch, 1⟩ ∧
      (joining.unsubscribe ch).2.pending = [⟨ch, Bytes.ofText "a"⟩]) ∧
    (joining.subscribe (Bytes.ofText "zz")).1 = .error (.server "ERR no") ∧
    (joining.unsubscribe (Bytes.ofText "xx")).1 = .error (.server "ERR no") ∧
    joining.nextMessage.1 = .ok ⟨ch, Bytes.ofText "a"⟩ ∧
    (joining.listen none).delivered = [⟨ch, Bytes.ofText "a"⟩] := by
  intro ch
  have htakes : Takes joining.connection.heard
      [.array [.bulk (Bytes.ofText "subscribe"), .bulk (Bytes.ofText "xx"), .integer 1],
        .push [.bulk (Bytes.ofText "message"), .bulk ch, .bulk (Bytes.ofText "a")],
        .array [.bulk (Bytes.ofText "subscribe"), .bulk ch, .integer 2],
        .array [.bulk (Bytes.ofText "unsubscribe"), .bulk ch, .integer 1], .error "ERR no"] [] :=
    .cons (by cbv) (.cons (by cbv) (.cons rfl (.cons rfl (.cons rfl (.of_eq rfl)))))
  obtain ⟨hprospect, -⟩ := Connection.prospect_of_takes htakes Resp.parse_nil
  have hroom (n : Nat) : joining.connection.transport.Admits n := fun room h => by cases h
  obtain ⟨-, hnext, hlisten, hsubscribe, hunsubscribe⟩ := messages_in_stream_order joining
  obtain ⟨hjoined, hjoined_accounts⟩ := (hsubscribe ch).settled (hroom _)
  obtain ⟨hleft, hleft_accounts⟩ := (hunsubscribe ch).settled (hroom _)
  obtain ⟨hthird, -⟩ := (hsubscribe (Bytes.ofText "zz")).settled (hroom _)
  obtain ⟨hother, -⟩ := (hunsubscribe (Bytes.ofText "xx")).settled (hroom _)
  have hjoined_kept := hjoined_accounts.conserved
  have hleft_kept := hleft_accounts.conserved
  rw [Connection.settled, hprospect] at hnext hjoined hleft hthird hother
  rw [Connection.examined, hprospect] at hjoined_kept hleft_kept
  rw [hprospect] at hlisten
  exact ⟨⟨hjoined, hjoined_kept⟩, ⟨hleft, hleft_kept⟩, hthird, hother, hnext, hlisten⟩

end Subscriber

end StoreTrial
