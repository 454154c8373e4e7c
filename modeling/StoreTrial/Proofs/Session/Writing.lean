import StoreTrial.Proofs.Session.Alignment
import StoreTrial.Proofs.Session.Delivery

/-!
# What a session writes

A transport may take only so many bytes.  Requests are written one after another, each from its
first byte, and nothing else is written; so at any time the bytes that the transport took are the
first ones of all requests together.  A request that is cut off is followed by no read: its step
fails at once and leaves all that the session holds as it was.

## Main results

* `Transport.written_write` — writing adds to the first bytes of what was to be written.
* `Session.wrote_take`, `Session.wrote_takeAll` — one step, and any steps.
* `Session.take_of_not_admits` — a step whose request is cut off changes nothing else.
* `Session.writes_are_clean` — both together, for a whole session.
-/

namespace StoreTrial

open Resp (Value Version encode)

/-! ## Transports -/

/-- The first bytes, as many as a limit allows. -/
def upTo (limit : Option Nat) (bytes : Bytes) : Bytes := limit.elim bytes fun n => bytes.take n

namespace Transport

theorem limit_write (t : Transport) (bytes : Bytes) : (t.write bytes).2.limit = t.limit := by
  unfold write
  split <;> rfl

/-- Writing adds to the first bytes of what was to be written. -/
theorem written_write {t : Transport} {before : Bytes} (h : t.written = upTo t.limit before)
    (bytes : Bytes) : (t.write bytes).2.written = upTo t.limit (before ++ bytes) := by
  unfold write room
  cases hlimit : t.limit with
  | none =>
    rw [hlimit] at h
    simp only [Option.map_none, h, upTo, Option.elim_none]
  | some limit =>
    rw [hlimit] at h
    have hroom : limit - t.written.length = limit - before.length := by
      rw [h, upTo, Option.elim_some, List.length_take]
      omega
    simp only [Option.map_some, hroom]
    rw [h]
    simp only [upTo, Option.elim_some, List.take_append]

end Transport

/-! ## Connections -/

namespace Connection

/-- Whether a connection has written the first of these bytes, up to its limit, and nothing else. -/
def Wrote (c : Connection) (limit : Option Nat) (bytes : Bytes) : Prop :=
  c.outgoing.2 = (upTo limit bytes, limit)

theorem Wrote.of_eq {c c' : Connection} {limit : Option Nat} {bytes : Bytes}
    (h : c.Wrote limit bytes) (heq : c'.outgoing.2 = c.outgoing.2) : c'.Wrote limit bytes :=
  heq.trans h

/-- A request is written behind all that came before it. -/
theorem Wrote.send {c : Connection} {limit : Option Nat} {bytes : Bytes} (h : c.Wrote limit bytes)
    (v : Value) : (c.send v).2.Wrote limit (bytes ++ encode c.version v) := by
  obtain ⟨hwritten, hlimit⟩ : c.transport.written = upTo limit bytes ∧
      c.transport.limit = limit := by simpa [Wrote, outgoing] using h
  subst hlimit
  exact Prod.ext (Transport.written_write hwritten _) (Transport.limit_write c.transport _)

theorem outgoing_request (c : Connection) (v : Value) :
    (c.request v).2.outgoing = (c.send v).2.outgoing := by
  unfold request
  split
  · next heq => rw [heq]
  · next c' heq => rw [outgoing_readReply, heq]

theorem outgoing_exhaust (c : Connection) : c.exhaust.outgoing = c.outgoing := by
  fun_induction exhaust c with
  | case1 c v c' hread ih => rw [ih, ← outgoing_readFrame c, hread]
  | case2 c e c' hread => rw [← outgoing_readFrame c, hread]

/-- The connection with other bytes in the place of those that were written. -/
def withWritten (c : Connection) (written : Bytes) : Connection :=
  { c with transport := { c.transport with written } }

theorem send_of_not_admits {c : Connection} {v : Value}
    (h : ¬ c.transport.Admits (encode c.version v).length) :
    ∃ written, c.send v = (.error Transport.full, c.withWritten written) := by
  refine ⟨(c.transport.write (encode c.version v)).2.written, ?_⟩
  unfold send
  rw [Transport.write_of_not_admits h]
  rfl

end Connection

/-! ## Clients -/

namespace Client

theorem outgoing_run (client : Client) (c : Command) :
    (client.run c).2.connection.outgoing =
      (client.connection.send c.toFrame).2.outgoing := by
  rw [← Connection.outgoing_request]
  unfold run
  split
  · next heq => rw [heq]
  · next heq => rw [heq]

/-- A greeting may change the version, but not what was written. -/
theorem outgoing_hello (client : Client) (version : Version) :
    (client.hello version).2.connection.outgoing.2 =
      (client.connection.send (Command.hello version).toFrame).2.outgoing.2 := by
  rw [← outgoing_run]
  unfold hello
  split
  · next heq => rw [heq]; rfl
  · next heq => rw [heq]

/-- A request that cannot be written is all that becomes of a command. -/
theorem run_of_send {client : Client} {c : Command} {e : ClientError} {connection : Connection}
    (h : client.connection.send c.toFrame = (.error e, connection)) :
    client.run c = (.error e, { client with connection }) := by
  simp only [run, Connection.request, h]

theorem hello_of_send {client : Client} {version : Version} {e : ClientError}
    {connection : Connection}
    (h : client.connection.send (Command.hello version).toFrame = (.error e, connection)) :
    client.hello version = (.error e, { client with connection }) := by
  simp only [hello, run_of_send h]

end Client

/-! ## Subscribers -/

namespace Subscriber

theorem outgoing_awaitConfirmation (channel : Bytes) (read : Value → Option Confirmation)
    (s : Subscriber) :
    (awaitConfirmation channel read s).2.connection.outgoing = s.connection.outgoing := by
  fun_induction awaitConfirmation channel read s with
  | case1 s e connection hframe | case2 s v connection hframe k hk
  | case3 s connection message hframe _ hk =>
    rw [← Connection.outgoing_readFrame s.connection, hframe]
  | case4 s v connection hframe hk _ hother ih =>
    rw [ih, ← Connection.outgoing_readFrame s.connection, hframe]

theorem outgoing_confirm (s : Subscriber) (c : Command) (channel : Bytes)
    (read : Value → Option Confirmation) :
    (s.confirm c channel read).2.connection.outgoing =
      (s.connection.send c.toFrame).2.outgoing := by
  unfold confirm
  split
  · next heq => rw [heq]
  · next heq => rw [outgoing_awaitConfirmation, heq]

theorem confirm_of_send {s : Subscriber} {c : Command} {e : ClientError} {connection : Connection}
    (h : s.connection.send c.toFrame = (.error e, connection)) (channel : Bytes)
    (read : Value → Option Confirmation) :
    s.confirm c channel read = (.error e, { s with connection }) := by
  simp only [confirm, h]

theorem outgoing_readMessage (c : Connection) : (readMessage c).2.outgoing = c.outgoing := by
  fun_induction readMessage c with
  | case1 c e c' hframe | case2 c v c' hframe message hmessage =>
    rw [← Connection.outgoing_readFrame c, hframe]
  | case3 c v c' hframe hnone ih => rw [ih, ← Connection.outgoing_readFrame c, hframe]

theorem outgoing_nextMessage (s : Subscriber) :
    s.nextMessage.2.connection.outgoing = s.connection.outgoing := by
  unfold nextMessage
  split
  · rfl
  · exact outgoing_readMessage s.connection

/-- Handing a message on ends the listening, or goes on with it. -/
theorem ending_forward {looks : Nat} {room : Option Nat} {message : Message} {s s' : Subscriber}
    (h : (listenFor.forward looks room message s).ending = .ok s') :
    s' = s ∨ ∃ room, (s.listenFor looks room).ending = .ok s' := by
  unfold listenFor.forward at h
  split at h
  · cases h
    exact .inl rfl
  · exact .inr ⟨_, h⟩

theorem outgoing_of_listenFor {looks : Nat} {room : Option Nat} {s s' : Subscriber}
    (h : (s.listenFor looks room).ending = .ok s') :
    s'.connection.outgoing = s.connection.outgoing := by
  induction looks generalizing room s with
  | zero =>
    rw [listenFor] at h
    cases h
    rfl
  | succ looks ih =>
    have hforward : ∀ {message : Message} {t : Subscriber},
        (listenFor.forward looks room message t).ending = .ok s' →
          s'.connection.outgoing = t.connection.outgoing := by
      intro message t h
      obtain rfl | ⟨room, h⟩ := ending_forward h
      · rfl
      · exact ih h
    unfold listenFor at h
    split at h
    · have hkept := hforward h
      exact hkept
    · split at h
      · next v connection hpoll =>
        have hlook := (Connection.polls_of_poll hpoll).outgoing_eq
        split at h
        · exact (hforward h).trans hlook
        · exact (ih h).trans hlook
      · next connection hpoll => exact (ih h).trans (Connection.polls_of_poll hpoll).outgoing_eq
      · next connection hpoll =>
        cases h
        exact (Connection.polls_of_poll hpoll).outgoing_eq
      · cases h

/-- Listening writes nothing, whoever receives the messages and however it ends. -/
theorem outgoing_left_listenFor (looks : Nat) (room : Option Nat) (s : Subscriber) :
    ((s.listenFor looks room).left s).connection.outgoing = s.connection.outgoing := by
  unfold Listening.left
  split
  · next s' h => exact outgoing_of_listenFor h
  · exact s.connection.outgoing_exhaust

end Subscriber

/-! ## Sessions -/

/-- A session with a server, from the first command on. -/
inductive Session where
  | client (client : Client)
  | subscriber (s : Subscriber)
  /-- The failure of a listener has lost the session. -/
  | lost (connection : Connection)
  deriving Repr

namespace Session

/-- A session over a fresh transport. -/
def start (inbound : List Arrival) (limit : Option Nat) : Session :=
  .client (.overTransport { inbound, limit })

def connection : Session → Connection
  | client k => k.connection
  | subscriber s => s.connection
  | lost connection => connection

/-- One step of a client or of a subscriber. -/
inductive Step where
  | run (c : Command)
  | hello (version : Version)
  /-- The client turns into a subscriber. -/
  | toSubscriber
  | subscribe (channel : Bytes)
  | unsubscribe (channel : Bytes)
  | next
  /-- Listening for a receiver, cancelled after so many looks if nothing else has ended it. -/
  | listen (looks : Nat) (room : Option Nat)
  deriving Repr

/-- The command by which a step that the session can take begins, if it sends any. -/
def command? : Session → Step → Option Command
  | client _, .run c => some c
  | client _, .hello version => some (.hello version)
  | subscriber _, .subscribe channel => some (.subscribe [channel])
  | subscriber _, .unsubscribe channel => some (.unsubscribe [channel])
  | _, _ => none

/-- Takes a step; one that the session cannot take is passed over. -/
def take : Session → Step → Except ClientError Unit × Session
  | client k, .run c => ((k.run c).1.map fun _ => (), client (k.run c).2)
  | client k, .hello version => ((k.hello version).1.map fun _ => (), client (k.hello version).2)
  | client k, .toSubscriber => (.ok (), subscriber k.toSubscriber)
  | subscriber s, .subscribe channel =>
    ((s.subscribe channel).1.map fun _ => (), subscriber (s.subscribe channel).2)
  | subscriber s, .unsubscribe channel =>
    ((s.unsubscribe channel).1.map fun _ => (), subscriber (s.unsubscribe channel).2)
  | subscriber s, .next => (s.nextMessage.1.map fun _ => (), subscriber s.nextMessage.2)
  | subscriber s, .listen looks room =>
    match (s.listenFor looks room).ending with
    | .ok s' => (.ok (), subscriber s')
    | .error e => (.error e, lost ((s.listenFor looks room).left s).connection)
  | s, _ => (.ok (), s)

/-- The session after steps, however each of them ends. -/
def takeAll (s : Session) : List Step → Session
  | [] => s
  | step :: steps => (s.take step).2.takeAll steps

/-- The bytes of the request by which a step begins, if it sends any. -/
def requestBytes (s : Session) (step : Step) : Bytes :=
  match s.command? step with
  | some c => encode s.connection.version c.toFrame
  | none => []

/-- The requests of steps, one after another. -/
def requests (s : Session) : List Step → Bytes
  | [] => []
  | step :: steps => s.requestBytes step ++ (s.take step).2.requests steps

/-- The session with other bytes in the place of those that were written. -/
def withWritten : Session → Bytes → Session
  | client k, written => client { k with connection := k.connection.withWritten written }
  | subscriber s, written => subscriber { s with connection := s.connection.withWritten written }
  | lost connection, written => lost (connection.withWritten written)

/-! ### What a step writes -/

/-- A step that sends no command writes nothing. -/
theorem outgoing_take_of_none {s : Session} {step : Step} (h : s.command? step = none) :
    (s.take step).2.connection.outgoing = s.connection.outgoing := by
  cases s with
  | client k => cases step <;> first | rfl | cases h
  | lost connection => cases step <;> rfl
  | subscriber s =>
    cases step with
    | subscribe channel | unsubscribe channel => cases h
    | run c | hello version | toSubscriber => rfl
    | next => exact s.outgoing_nextMessage
    | listen looks room =>
      unfold take
      dsimp only
      split
      · next s' hending => exact Subscriber.outgoing_of_listenFor hending
      · exact s.outgoing_left_listenFor looks room

/-- A step that sends a command writes its request and nothing else. -/
theorem outgoing_take_of_some {s : Session} {step : Step} {c : Command}
    (h : s.command? step = some c) :
    (s.take step).2.connection.outgoing.2 = (s.connection.send c.toFrame).2.outgoing.2 := by
  cases s with
  | client k =>
    cases step with
    | run c =>
      cases h
      exact congrArg Prod.snd (k.outgoing_run c)
    | hello version =>
      cases h
      exact k.outgoing_hello version
    | _ => cases h
  | subscriber s =>
    cases step with
    | subscribe channel | unsubscribe channel =>
      cases h
      exact congrArg Prod.snd (s.outgoing_confirm _ channel _)
    | _ => cases h
  | lost connection => cases step <;> cases h

/-- A step writes its request behind all that came before it. -/
theorem wrote_take {s : Session} {limit : Option Nat} {before : Bytes}
    (h : s.connection.Wrote limit before) (step : Step) :
    (s.take step).2.connection.Wrote limit (before ++ s.requestBytes step) := by
  unfold requestBytes
  cases hcommand : s.command? step with
  | none =>
    rw [List.append_nil]
    exact h.of_eq (congrArg Prod.snd (outgoing_take_of_none hcommand))
  | some c => exact (h.send c.toFrame).of_eq (outgoing_take_of_some hcommand)

/-- So do any steps. -/
theorem wrote_takeAll {s : Session} {limit : Option Nat} {before : Bytes}
    (h : s.connection.Wrote limit before) (steps : List Step) :
    (s.takeAll steps).connection.Wrote limit (before ++ s.requests steps) := by
  induction steps generalizing s before with
  | nil => simpa [takeAll, requests] using h
  | cons step steps ih =>
    rw [takeAll, requests, ← List.append_assoc]
    exact ih (wrote_take h step)

/-! ### Requests that are cut off -/

/-- A step whose request is cut off fails, and changes nothing but what was written. -/
theorem take_of_not_admits {s : Session} {step : Step} {c : Command}
    (hc : s.command? step = some c)
    (h : ¬ s.connection.transport.Admits (encode s.connection.version c.toFrame).length) :
    ∃ written, s.take step = (.error Transport.full, s.withWritten written) := by
  obtain ⟨written, hsend⟩ := Connection.send_of_not_admits h
  refine ⟨written, ?_⟩
  cases s with
  | client k =>
    cases step with
    | run c =>
      cases hc
      simp only [take, Client.run_of_send hsend]
      rfl
    | hello version =>
      cases hc
      simp only [take, Client.hello_of_send hsend]
      rfl
    | _ => cases hc
  | subscriber s =>
    cases step with
    | subscribe channel | unsubscribe channel =>
      cases hc
      have hconfirm := Subscriber.confirm_of_send hsend channel
      simp only [take, Subscriber.subscribe, Subscriber.unsubscribe, hconfirm]
      rfl
    | _ => cases hc
  | lost connection => cases step <;> cases hc

/--
**Failures to write are clean.**  Whatever arrives, a session has written the first bytes of the
requests of its steps, one after another, as many as its transport takes.  A step whose request the
transport does not take whole fails as a failure of the transport, and leaves the session as it was
but for the bytes that were written: what was received, what will arrive, the messages kept and the
version of the protocol are the same.
-/
theorem writes_are_clean :
    (∀ (inbound : List Arrival) (limit : Option Nat) (steps : List Step),
      ((start inbound limit).takeAll steps).connection.transport.written =
        upTo limit ((start inbound limit).requests steps)) ∧
    (∀ (s : Session) (step : Step) (c : Command), s.command? step = some c →
      ¬ s.connection.transport.Admits (encode s.connection.version c.toFrame).length →
        ∃ cause written, s.take step = (.error (.io cause), s.withWritten written)) := by
  constructor
  · intro inbound limit steps
    have hstart : (start inbound limit).connection.Wrote limit [] := by
      cases limit with
      | none => rfl
      | some limit => simp [start, connection, Client.overTransport, Connection.Wrote,
          Connection.outgoing, upTo]
    exact congrArg Prod.fst (wrote_takeAll hstart steps)
  · intro s step c hc h
    obtain ⟨written, htake⟩ := take_of_not_admits hc h
    exact ⟨_, written, htake⟩

/-- The second of three requests is cut off inside its second line, and the third is not begun. -/
theorem writes_are_clean_second_cut_off :
    ((start [.data (Bytes.ofText "+PONG\r\n")] (some 20)).takeAll
        [.run .ping, .run .ping, .toSubscriber, .subscribe (Bytes.ofText "ch")]
      ).connection.transport.written = Bytes.ofText "*1\r\n$4\r\nPING\r\n*1\r\n$4" ∧
    ∃ cause written, (start [.fault "reset"] (some 3)).take (.hello .resp3) =
      (.error (.io cause), (start [.fault "reset"] (some 3)).withWritten written) := by
  obtain ⟨hwritten, hclean⟩ := writes_are_clean
  constructor
  · rw [hwritten]
    cbv
  · exact hclean _ _ (.hello .resp3) rfl fun h => absurd (h 3 rfl) (by decide +kernel)

end Session

end StoreTrial
