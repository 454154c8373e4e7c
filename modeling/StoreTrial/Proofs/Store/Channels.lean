import StoreTrial.Proofs.Session.Delivery
import StoreTrial.Proofs.Store.Exchange

/-!
# Channels beside a server

A session that joins a channel to which nobody listens is its only listener. What another session
publishes there is left for it to read, in order; its listener forwards all that has arrived; and
when it leaves the channel nothing remains.

## Main results

* `Subscriber.listenFor_arrived` — a listener forwards every message that has arrived.
* `Loopback.exists_answer_subscribe`, `Loopback.exists_answer_unsubscribe` — how a session joins and
  leaves.
* `Loopback.exists_answer_publish` — what a published message does to both sessions.
* `Loopback.exists_answer_receive` — how it is handed out.
-/

namespace StoreTrial

open Resp (Value Version encode parse)

/-! ## Pushes in both versions -/

namespace Resp.Value

/-- What a push is read as: version 2 knows arrays only. -/
def pushed (items : List Value) : Version → Value
  | .resp2 => .array items
  | .resp3 => .push items

@[simp] theorem items?_pushed (items : List Value) (version : Version) :
    (pushed items version).items? = some items := by
  cases version <;> rfl

theorem parse_push {items : List Value} (hcount : items.length < 2 ^ 63)
    (h : ∀ v ∈ items, v.Plain) (version : Version) :
    parse (encode version (.push items)) = .complete (pushed items version) [] := by
  cases version with
  | resp2 =>
    have hparse := plain_array hcount h .resp2 []
    rwa [List.append_nil] at hparse
  | resp3 =>
    show parse (header 62 items.length ++ encodeItems .resp3 items) = _
    have hitems := repeated_flatMap (fun v hv => h v hv .resp3) []
    rw [List.append_nil] at hitems
    rw [encodeItems_eq_flatMap, parse_items (.inr (.inr rfl)) hcount, hitems]
    rfl

end Resp.Value

/-! ## Requests about channels -/

namespace Server

variable {now : Nat} {session : ServerSession} {server : Server} {channel message : Bytes}

theorem word_ofText_channels : ∀ text ∈ ["SUBSCRIBE", "UNSUBSCRIBE", "PUBLISH"],
    Store.word (Bytes.ofText text) = text := by decide +kernel

/-- The first channel that a session joins is its only one. -/
theorem handle_subscribe (hblock : session.block = none) (hchannels : session.channels = [])
    (hnobody : server.listenersOf channel = []) :
    server.handle now session (Command.subscribe [channel]).toFrame =
      { replies := [confirmation "subscribe" channel { session with channels := [channel] }]
        session := { session with channels := [channel] }
        server :=
          { server with listeners := server.listeners.insert channel [session.id] } } := by
  rw [handle_outside hblock rfl (word_ofText_channels "SUBSCRIBE" (by decide))]
  simp [dispatch, Command.args, confirmAll, join, hchannels, hnobody]

/-- When a session leaves its only channel, none remains. -/
theorem handle_unsubscribe (hblock : session.block = none)
    (hchannels : session.channels = [channel]) :
    server.handle now session (Command.unsubscribe [channel]).toFrame =
      { replies := [confirmation "unsubscribe" channel { session with channels := [] }]
        session := { session with channels := [] }
        server := (leave session server channel).2 } := by
  rw [handle_outside hblock rfl (word_ofText_channels "UNSUBSCRIBE" (by decide))]
  simp [dispatch, Command.args, confirmAll, leave, hchannels]

/-- What is published to the only listener of a channel. -/
theorem handle_publish (hblock : session.block = none) {listener : Nat}
    (hlistener : server.listenersOf channel = [listener])
    (hdrops : server.divergence.dropsMessages = false) :
    server.handle now session (Command.publish channel message).toFrame =
      { replies := [.integer 1], session, server
        pushes := [(listener, messageFrame channel message)] } := by
  rw [handle_outside hblock rfl (word_ofText_channels "PUBLISH" (by decide))]
  simp [dispatch, Command.args, publish, hlistener, hdrops]

theorem parse_confirmation {kind : String} (hkind : (Bytes.ofText kind).length < 2 ^ 63)
    (hchannel : channel.length < 2 ^ 63) (session : ServerSession) (version : Version) :
    ∃ v, parse (encode version (confirmation kind channel session)) = .complete v [] ∧
      v.items? = some [.bulk (Bytes.ofText kind), .bulk channel,
        .integer (Int64.ofNat session.channels.length)] := by
  refine ⟨_, Value.parse_push (by simp) ?_ version, Value.items?_pushed _ version⟩
  simp only [List.mem_cons, List.not_mem_nil, or_false, forall_eq_or_imp, forall_eq]
  exact ⟨Value.plain_bulk hkind, Value.plain_bulk hchannel, Value.plain_integer _⟩

/-- A message that is sent to a listener is read as one. -/
theorem parse_messageFrame (hchannel : channel.length < 2 ^ 63) (hmessage : message.length < 2 ^ 63)
    (version : Version) :
    ∃ v, parse (encode version (messageFrame channel message)) = .complete v [] ∧
      Message.ofFrame? v = some ⟨channel, message⟩ := by
  have hreads : (Value.bulk (Bytes.ofText "message")).reads "message" = true := by decide +kernel
  refine ⟨_, Value.parse_push (by simp) ?_ version, ?_⟩
  · simp only [List.mem_cons, List.not_mem_nil, or_false, forall_eq_or_imp, forall_eq]
    exact ⟨Value.plain_bulk (by decide), Value.plain_bulk hchannel, Value.plain_bulk hmessage⟩
  · simp [Message.ofFrame?, hreads, Message.ofParts?, Value.text?]

end Server

/-! ## The client's end -/

namespace Subscriber

theorem awaitConfirmation_of_readFrame {s : Subscriber} {channel : Bytes} {v : Value}
    {read : Value → Option Confirmation} {confirmation : Confirmation} {connection : Connection}
    (h : s.connection.readFrame = (.ok v, connection))
    (hread : (read v).filter (·.channel == channel) = some confirmation) :
    awaitConfirmation channel read s = (.ok confirmation, { s with connection }) := by
  rw [awaitConfirmation.eq_def]
  split
  · next heq =>
    rw [h] at heq
    cases heq
  · next heq =>
    rw [h] at heq
    cases heq
    rw [hread]

/-- A confirmation that has arrived alone is the answer. -/
theorem confirm_of_arrived {s : Subscriber} {c : Command} {channel bytes : Bytes} {v : Value}
    {read : Value → Option Confirmation} {confirmation : Confirmation}
    (hbuffer : s.connection.buffer = []) (hinbound : s.connection.transport.inbound = [.data bytes])
    (hlimit : s.connection.transport.limit = none) (hparse : parse bytes = .complete v [])
    (hread : read v = some confirmation) (hchannel : confirmation.channel = channel) :
    ∃ connection, s.confirm c channel read = (.ok confirmation, { s with connection }) ∧
      connection.Idle := by
  have hwrite : s.connection.transport.write (encode s.connection.version c.toFrame) =
      (.ok (), { s.connection.transport with
        written := s.connection.transport.written ++ encode s.connection.version c.toFrame }) := by
    simp [Transport.write, Transport.room, hlimit]
  have hfilter : (read v).filter (·.channel == channel) = some confirmation := by
    simp [hread, hchannel]
  simp only [confirm, Connection.send, hwrite]
  refine ⟨_, awaitConfirmation_of_readFrame
    (Connection.readFrame_of_arrived hbuffer hinbound hparse) hfilter, rfl, rfl, hlimit⟩

section Looks

variable {s : Subscriber} (hpending : s.pending = []) {connection : Connection} (looks : Nat)

include hpending

theorem listenFor_of_received (h : s.connection.poll = (.received, connection)) :
    s.listenFor (looks + 1) none = listenFor looks none { s with connection } := by
  simp only [listenFor, hpending, h]

theorem listenFor_of_message {v : Value} (h : s.connection.poll = (.frame v, connection))
    {message : Message} (hmessage : Message.ofFrame? v = some message) :
    s.listenFor (looks + 1) none = (listenFor looks none { s with connection }).after message := by
  simp only [listenFor, hpending, h, hmessage, forward_none]

theorem listenFor_of_closed (h : s.connection.poll = (.failed .closed, connection)) :
    s.listenFor (looks + 1) none = ⟨[], .ok { s with connection }⟩ := by
  simp only [listenFor, hpending, h]

end Looks

/-- A listener forwards every message that has arrived, and leaves the connection idle. -/
theorem listenFor_arrived {channel : Bytes} (hchannel : channel.length < 2 ^ 63)
    {version : Version} {contents : List Bytes} (hcontents : ∀ m ∈ contents, m.length < 2 ^ 63)
    {c : Connection} (hbuffer : c.buffer = [])
    (hinbound : c.transport.inbound =
      contents.map fun m => .data (encode version (Server.messageFrame channel m)))
    {looks : Nat} (hlooks : c.backlog < looks) :
    listenFor looks none ⟨c, []⟩ = ⟨contents.map (Message.mk channel),
      .ok ⟨⟨{ c.transport with inbound := [] }, [], c.version⟩, []⟩⟩ := by
  induction contents generalizing c looks with
  | nil =>
    obtain ⟨looks, rfl⟩ : ∃ n, looks = n + 1 := ⟨looks - 1, by omega⟩
    rw [listenFor_of_closed rfl looks (Connection.poll_of_exhausted hbuffer hinbound)]
    rw [List.map_nil] at hinbound
    rw [← hinbound, ← hbuffer]
    rfl
  | cons m contents ih =>
    obtain ⟨hm, hcontents⟩ := List.forall_mem_cons.1 hcontents
    obtain ⟨v, hparse, hmessage⟩ := Server.parse_messageFrame hchannel hm version
    obtain ⟨⟨inbound, written, limit⟩, buffer, spoken⟩ := c
    cases hbuffer
    cases hinbound
    let first : Bytes := encode version (Server.messageFrame channel m)
    let later : List Arrival :=
      contents.map fun m => .data (encode version (Server.messageFrame channel m))
    let between (inbound : List Arrival) (buffer : Bytes) : Connection :=
      ⟨⟨inbound, written, limit⟩, buffer, spoken⟩
    -- one look takes the frame in, the next one reads it
    have hreceived : (between (.data first :: later) []).poll = (.received, between later first) :=
      Connection.poll_of_arrived rfl rfl (Connection.ne_nil_of_complete hparse)
    have hframe : (between later first).poll = (.frame v, between later []) :=
      Connection.poll_of_complete hparse ⟨later, written, limit⟩ spoken
    have hless : (between later first).backlog < (between (.data first :: later) []).backlog :=
      Connection.backlog_of_poll hreceived
    have hless' : (between later []).backlog + 3 ≤ (between later first).backlog :=
      Connection.backlog_of_poll hframe
    have hstart : (between (.data first :: later) []).backlog < looks := hlooks
    obtain ⟨looks, rfl⟩ : ∃ n, looks = n + 2 := ⟨looks - 2, by omega⟩
    have hrest : (between later []).backlog < looks := by omega
    have hlater := ih hcontents (c := between later []) rfl rfl hrest
    show listenFor (looks + 2) none ⟨between (.data first :: later) [], []⟩ = _
    rw [listenFor_of_received rfl _ hreceived, listenFor_of_message rfl _ hframe hmessage, hlater]
    rfl

end Subscriber

/-! ## Both ends -/

section Listener

variable {channel : Bytes} (hchannel : channel.length < 2 ^ 63)

include hchannel

/-- The listener of a session forwards all that was left to be read. -/
theorem Peer.Holds.forward {p : Peer} {session : ServerSession} {contents : List Bytes}
    (hcontents : ∀ m ∈ contents, m.length < 2 ^ 63) {forwarded : List Message}
    (h : p.Holds session (contents.map (Server.messageFrame channel)) forwarded) :
    p.forward.Holds session [] (forwarded ++ contents.map (Message.mk channel)) := by
  have hinbound : p.client.connection.transport.inbound = contents.map fun m =>
      .data (encode session.protocol (Server.messageFrame channel m)) := by
    rw [h.inbound, List.map_map]
    rfl
  have hsubscriber : p.subscriber = ⟨p.client.connection, []⟩ := by rw [Peer.subscriber, h.pending]
  have hlooks : p.client.connection.backlog < Subscriber.enoughLooks ⟨p.client.connection, []⟩ := by
    show _ < 0 + p.client.connection.backlog + 1
    omega
  have hlisten := Subscriber.listenFor_arrived hchannel hcontents h.buffer hinbound hlooks
  have hforward : p.forward =
      { p.withSubscriber ⟨⟨{ p.client.connection.transport with inbound := [] }, [],
          p.client.connection.version⟩, []⟩
        with forwarded := p.forwarded ++ contents.map (Message.mk channel) } := by
    simp only [Peer.forward, Subscriber.listen, hsubscriber, hlisten]
  rw [hforward, ← h.forwarded]
  exact ⟨rfl, rfl, h.limit, h.received, h.session_eq, rfl, rfl, h.lost⟩

end Listener

namespace Loopback

variable {l : Loopback} {i j : Nat} {session publisher : ServerSession} {unread : List Value}
  {forwarded : List Message} {channel message : Bytes}

/-- Whether the client of a session has values still to read, and its listener messages that nobody
took. -/
def Holding (l : Loopback) (i : Nat) (session : ServerSession) (unread : List Value)
    (forwarded : List Message) : Prop :=
  ∃ p, l.peers[i]? = some p ∧ p.Holds session unread forwarded

theorem Holding.moved_of_ne {p : Peer} {server : Server}
    (h : l.Holding j session unread forwarded) (hne : j ≠ i) :
    (l.moved i p server).Holding j session unread forwarded := by
  obtain ⟨q, hq, hholds⟩ := h
  exact ⟨q, (List.getElem?_set_ne hne.symm).trans hq, hholds⟩

/-- The subscriber of a session that has moved goes on from there. -/
theorem withSubscriber_moved {α : Type} {p p' : Peer} {server : Server}
    (hp : l.peers[i]? = some p') (act : Subscriber → Except ClientError α × Subscriber) :
    (l.moved i p server).withSubscriber i act =
      ((act p.subscriber).1, l.moved i (p.withSubscriber (act p.subscriber).2) server) := by
  obtain ⟨hi, -⟩ := List.getElem?_eq_some_iff.1 hp
  have hset : (l.peers.set i p)[i]? = some p := List.getElem?_set_self hi
  simp only [withSubscriber, moved, hset, List.set_set]

/-! ### Joining and leaving -/

/-- A request about a channel that is confirmed leaves both ends idle. -/
theorem exists_confirmed {c : Command} {kind : String} {session' : ServerSession} {server' : Server}
    (hidle : l.Idle i session) (hc : c.toFrame.Plain) (hkind : (Bytes.ofText kind).length < 2 ^ 63)
    (hchannel : channel.length < 2 ^ 63)
    (hhandle : l.server.handle l.now session c.toFrame =
      { replies := [Server.confirmation kind channel session'], session := session'
        server := server' }) :
    ∃ p : Peer, (l.submit i c).withSubscriber i (·.confirm c channel (Confirmation.ofKind? kind)) =
        (.ok ⟨channel, Int64.ofNat session'.channels.length⟩, l.moved i p server') ∧
      p.Idle session' := by
  obtain ⟨p, hsubmit, hholds⟩ := exists_submit hidle hc hhandle
  obtain ⟨p', hp', -⟩ := hidle
  obtain ⟨v, hparse, hitems⟩ :=
    Server.parse_confirmation hkind hchannel session' session'.protocol
  have hread : Confirmation.ofKind? kind v =
      some ⟨channel, Int64.ofNat session'.channels.length⟩ := by
    simp [Confirmation.ofKind?, hitems, Value.reads, Value.text?, Value.integer?,
      Bytes.sameIgnoringCase]
  obtain ⟨connection, hconfirm, hconnection⟩ := Subscriber.confirm_of_arrived (s := p.subscriber)
    (c := c) hholds.buffer hholds.inbound hholds.limit hparse hread rfl
  refine ⟨p.withSubscriber { p.subscriber with connection }, ?_, ?_⟩
  · rw [hsubmit, withSubscriber_moved hp', hconfirm]
  · exact ⟨hconnection.buffer, hconnection.inbound, hconnection.limit, hholds.received,
      hholds.session_eq, hholds.pending, hholds.forwarded, hholds.lost⟩

/-- A session that joins a channel to which nobody listens is its only listener. -/
theorem exists_answer_subscribe (hidle : l.Idle i session) (hblock : session.block = none)
    (hchannels : session.channels = []) (hnobody : l.server.listenersOf channel = [])
    (hchannel : channel.length < 2 ^ 63) :
    ∃ p : Peer, answer (.subscribe i channel) l = (.ok ⟨channel, 1⟩,
        l.tick.moved i p { l.server with
          listeners := l.server.listeners.insert channel [session.id] }) ∧
      p.Idle { session with channels := [channel] } := by
  have hparts : ∀ part ∈ [Bytes.ofText "SUBSCRIBE", channel], part.length < 2 ^ 63 := by
    simp only [List.mem_cons, List.not_mem_nil, or_false, forall_eq_or_imp, forall_eq]
    exact ⟨by decide, hchannel⟩
  have hplain : (Command.subscribe [channel]).toFrame.Plain :=
    Value.plain_request (by decide : 2 < 2 ^ 63) hparts
  exact exists_confirmed (l := l.tick) hidle hplain (by decide) hchannel
    (Server.handle_subscribe hblock hchannels hnobody)

/-- When a session leaves its only channel, none remains. -/
theorem exists_answer_unsubscribe (hidle : l.Idle i session) (hblock : session.block = none)
    (hchannels : session.channels = [channel]) (hchannel : channel.length < 2 ^ 63)
    (deadline : Duration) :
    ∃ l', answer (.unsubscribe i channel deadline) l = (some (.ok ⟨channel, 0⟩), l') := by
  have hparts : ∀ part ∈ [Bytes.ofText "UNSUBSCRIBE", channel], part.length < 2 ^ 63 := by
    simp only [List.mem_cons, List.not_mem_nil, or_false, forall_eq_or_imp, forall_eq]
    exact ⟨by decide, hchannel⟩
  have hplain : (Command.unsubscribe [channel]).toFrame.Plain :=
    Value.plain_request (by decide : 2 < 2 ^ 63) hparts
  obtain ⟨p, hconfirmed, -⟩ := exists_confirmed (l := l.tick) hidle hplain (by decide) hchannel
    (Server.handle_unsubscribe hblock hchannels)
  exact ⟨_, congrArg (fun answered => (some answered.1, answered.2)) hconfirmed⟩

/-! ### Messages -/

/-- A message that is published on a channel is left to be read by its only listener. -/
theorem exists_answer_publish (hidle : l.Idle j publisher) (hne : i ≠ j)
    (hholding : l.Holding i session unread forwarded) (hblock : publisher.block = none)
    (hlistener : l.server.listenersOf channel = [i])
    (hdrops : l.server.divergence.dropsMessages = false) (hchannel : channel.length < 2 ^ 63)
    (hmessage : message.length < 2 ^ 63) :
    ∃ l', answer (.run j (.publish channel message)) l = (.ok 1, l') ∧ l'.server = l.server ∧
      l'.Idle j publisher ∧
      l'.Holding i session (unread ++ [Server.messageFrame channel message]) forwarded := by
  have hparts : ∀ part ∈ [Bytes.ofText "PUBLISH", channel, message], part.length < 2 ^ 63 := by
    simp only [List.mem_cons, List.not_mem_nil, or_false, forall_eq_or_imp, forall_eq]
    exact ⟨by decide, hchannel, hmessage⟩
  have hplain : (Command.publish channel message).toFrame.Plain :=
    Value.plain_request (by decide : 3 < 2 ^ 63) hparts
  have hpushes : ∀ target ∈ [(i, Server.messageFrame channel message)], target.1 ≠ j := by
    simpa using hne
  obtain ⟨p, hsubmit, hholds⟩ := exists_submit_pushes (l := l.tick) hidle hplain hpushes
    (Server.handle_publish hblock hlistener hdrops)
  obtain ⟨p', hp', -⟩ := hidle
  obtain ⟨q, hq, hwaiting⟩ := hholding
  let pushed : Loopback := l.tick.push (i, Server.messageFrame channel message)
  have hpublisher : pushed.peers[j]? = some p' := (getElem?_foldl_push hpushes l.tick).trans hp'
  have hparse : parse (encode publisher.protocol (.integer 1)) = .complete (.integer 1) [] := by
    have := Value.plain_integer 1 publisher.protocol []
    rwa [List.append_nil] at this
  obtain ⟨client, hrun, hclient⟩ := Client.run_of_arrived hholds.buffer hholds.inbound hholds.limit
    hparse rfl (.publish channel message)
  refine ⟨pushed.moved j { p with client } l.server, ?_, rfl,
    idle_moved hpublisher (hholds.withClient hclient), ?_⟩
  · show (l.tick.submit j (.publish channel message)).withClient j (·.run _) = _
    rw [hsubmit]
    exact (withClient_moved hpublisher _).trans (by rw [hrun]; rfl)
  · have hsent : pushed.Holding i session (unread ++ [Server.messageFrame channel message])
        forwarded := by
      refine ⟨q.sent (Server.messageFrame channel message), ?_, hwaiting.buffer, ?_, hwaiting.limit,
        hwaiting.received, hwaiting.session_eq, hwaiting.pending, hwaiting.forwarded,
        hwaiting.lost⟩
      · simp [pushed, push, tick, hq]
      · simp [Peer.sent, hwaiting.inbound, hwaiting.session_eq]
    exact hsent.moved_of_ne hne

/-- A message that has arrived or was forwarded before is handed out. -/
theorem exists_answer_receive {contents : List Bytes} (hchannel : channel.length < 2 ^ 63)
    (hcontents : ∀ m ∈ contents, m.length < 2 ^ 63)
    (hholding : l.Holding i session (contents.map (Server.messageFrame channel)) forwarded)
    {m : Message} {rest : List Message}
    (hnext : forwarded ++ contents.map (Message.mk channel) = m :: rest) (deadline : Duration) :
    ∃ l', answer (.receive i deadline) l = (.message m, l') ∧ l'.Holding i session [] rest := by
  obtain ⟨p, hp, hholds⟩ := hholding
  have hforward := hholds.forward hchannel hcontents
  rw [hnext] at hforward
  obtain ⟨hi, -⟩ := List.getElem?_eq_some_iff.1 hp
  have hset : (l.peers.set i p.forward)[i]? = some p.forward := List.getElem?_set_self hi
  refine ⟨{ l.tick with peers := l.peers.set i { p.forward with forwarded := rest } }, ?_, ?_⟩
  · show l.tick.receive i deadline = _
    simp only [receive, tick, popMessage]
    rw [modify_of_getElem? hp]
    simp [hset, hforward.forwarded]
  · exact ⟨_, List.getElem?_set_self hi, hforward.buffer, hforward.inbound, hforward.limit,
      hforward.received, hforward.session_eq, hforward.pending, rfl, hforward.lost⟩

/-- Where nothing was forwarded nothing is handed out. -/
theorem exists_answer_take (hholding : l.Holding i session unread []) :
    ∃ l', answer (.take i) l = (none, l') ∧ l'.Holding i session unread [] := by
  obtain ⟨p, hp, hholds⟩ := hholding
  obtain ⟨hi, -⟩ := List.getElem?_eq_some_iff.1 hp
  refine ⟨{ l.tick with peers := l.peers.set i { p with forwarded := [] } }, ?_, ?_⟩
  · show l.tick.popMessage i = _
    simp [popMessage, tick, hp, hholds.forwarded]
  · exact ⟨_, List.getElem?_set_self hi, hholds.buffer, hholds.inbound, hholds.limit,
      hholds.received, hholds.session_eq, hholds.pending, rfl, hholds.lost⟩

/-- A listener that was not lost hands its session back. -/
theorem answer_stop (hholding : l.Holding i session unread forwarded) :
    answer (.stop i) l = (.ok (), l.tick) := by
  obtain ⟨p, hp, hholds⟩ := hholding
  show l.tick.stop i = _
  simp [stop, tick, hp, hholds.lost]

end Loopback

end StoreTrial
