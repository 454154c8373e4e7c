import StoreTrial.Proofs.Resp.Plain
import StoreTrial.Proofs.Resp.RoundTrip
import StoreTrial.Proofs.Session.Stream
import StoreTrial.Proofs.Store.Requests
import StoreTrial.Store.Loopback

/-!
# One request beside a server

Between two requests both ends of a session are idle: the server has answered all it received, and
the client has read all that was sent to it.  A request that is answered with one plain value leaves
both ends idle again, and to the client it comes to what the answer means; no other session notices.

## Main results

* `Loopback.exists_answer_run` — what a command does to both ends and to the server.
* `Loopback.exists_answer_dial`, `Loopback.exists_answer_greet` — how a session comes about.
-/

namespace StoreTrial

open Resp (Value Version encode parse)

/-! ## The client's end -/

namespace Connection

/-- Whether all that was sent has been read, and any number of bytes can be written. -/
structure Idle (c : Connection) : Prop where
  buffer : c.buffer = []
  inbound : c.transport.inbound = []
  limit : c.transport.limit = none

/-- What arrives is taken into a buffer that is empty. -/
theorem poll_of_arrived {c : Connection} {bytes : Bytes} {inbound : List Arrival}
    (hbuffer : c.buffer = []) (hinbound : c.transport.inbound = .data bytes :: inbound)
    (hbytes : bytes ≠ []) :
    c.poll = (.received, ⟨{ c.transport with inbound }, bytes, c.version⟩) := by
  obtain ⟨⟨arrivals, written, limit⟩, buffer, version⟩ := c
  cases hbuffer
  cases hinbound
  cases bytes with
  | nil => exact absurd rfl hbytes
  | cons b bytes => rfl

theorem poll_of_complete {bytes rest : Bytes} {v : Value} (hparse : parse bytes = .complete v rest)
    (t : Transport) (version : Version) :
    poll ⟨t, bytes, version⟩ = (.frame v, ⟨t, rest, version⟩) := by
  simp only [poll, hparse]

/-- Where nothing is left to read the peer has closed. -/
theorem poll_of_exhausted {c : Connection} (hbuffer : c.buffer = [])
    (hinbound : c.transport.inbound = []) : c.poll = (.failed .closed, c) := by
  obtain ⟨⟨arrivals, written, limit⟩, buffer, version⟩ := c
  cases hbuffer
  cases hinbound
  rfl

theorem ne_nil_of_complete {bytes rest : Bytes} {v : Value} (h : parse bytes = .complete v rest) :
    bytes ≠ [] := by
  rintro rfl
  rw [Resp.parse_nil] at h
  cases h

/-- A value that has arrived is read, and what arrived behind it is left. -/
theorem readFrame_of_arrived {c : Connection} {bytes : Bytes} {inbound : List Arrival} {v : Value}
    (hbuffer : c.buffer = []) (hinbound : c.transport.inbound = .data bytes :: inbound)
    (hparse : parse bytes = .complete v []) :
    c.readFrame = (.ok v, ⟨{ c.transport with inbound }, [], c.version⟩) :=
  (readFrame_of_received (poll_of_arrived hbuffer hinbound (ne_nil_of_complete hparse))).trans
    (readFrame_of_frame (poll_of_complete hparse _ _))

/-- A value that has arrived alone is read as the answer, and nothing is left. -/
theorem readReply_of_arrived {c : Connection} {bytes : Bytes} {v : Value} (hbuffer : c.buffer = [])
    (hinbound : c.transport.inbound = [.data bytes]) (hparse : parse bytes = .complete v [])
    (hpush : v.isPush = false) :
    c.readReply = (.ok v, ⟨{ c.transport with inbound := [] }, [], c.version⟩) := by
  have hread := readFrame_of_arrived hbuffer hinbound hparse
  rw [readReply_of_not_push]
  · exact hread
  · intro w hw
    rw [hread] at hw
    cases hw
    simp [hpush]

/-- A request whose answer has arrived is answered with it. -/
theorem request_of_arrived {c : Connection} {bytes : Bytes} {v : Value} (hbuffer : c.buffer = [])
    (hinbound : c.transport.inbound = [.data bytes]) (hlimit : c.transport.limit = none)
    (hparse : parse bytes = .complete v []) (hpush : v.isPush = false) (frame : Value) :
    ∃ c', c.request frame = (.ok v, c') ∧ c'.Idle := by
  have hwrite : c.transport.write (encode c.version frame) =
      (.ok (), { c.transport with written := c.transport.written ++ encode c.version frame }) := by
    simp [Transport.write, Transport.room, hlimit]
  simp only [request, send, hwrite]
  exact ⟨_, readReply_of_arrived hbuffer hinbound hparse hpush, rfl, rfl, hlimit⟩

end Connection

/-- A command whose answer has arrived comes to what the answer means. -/
theorem Client.run_of_arrived {client : Client} {bytes : Bytes} {v : Value}
    (hbuffer : client.connection.buffer = [])
    (hinbound : client.connection.transport.inbound = [.data bytes])
    (hlimit : client.connection.transport.limit = none) (hparse : parse bytes = .complete v [])
    (hpush : v.isPush = false) (c : Command) :
    ∃ client', client.run c = (c.result v, client') ∧ client'.connection.Idle := by
  obtain ⟨connection, hrequest, hidle⟩ :=
    Connection.request_of_arrived hbuffer hinbound hlimit hparse hpush c.toFrame
  exact ⟨{ client with connection }, by simp only [run, hrequest], hidle⟩

/-- A greeting whose answer has arrived switches the version. -/
theorem Client.hello_of_arrived {client : Client} {bytes : Bytes} {entries : List (Value × Value)}
    (hbuffer : client.connection.buffer = [])
    (hinbound : client.connection.transport.inbound = [.data bytes])
    (hlimit : client.connection.transport.limit = none)
    (hparse : parse bytes = .complete (.map entries) []) (version : Version) :
    ∃ client', client.hello version = (.ok (.map entries), client') ∧ client'.connection.Idle := by
  obtain ⟨client', hrun, hidle⟩ :=
    run_of_arrived hbuffer hinbound hlimit hparse rfl (.hello version)
  have hresult : (Command.hello version).result (.map entries) = .ok (.map entries) := rfl
  rw [hresult] at hrun
  exact ⟨{ connection := { client'.connection with version }, protocol := version },
    by simp only [hello, hrun], hidle.buffer, hidle.inbound, hidle.limit⟩

/-! ## Both ends -/

/-- Whether a session's server has answered all it received, its end being as given, while the
client has values still to read and its listener has messages that nobody took. -/
structure Peer.Holds (p : Peer) (session : ServerSession) (unread : List Value)
    (forwarded : List Message) : Prop where
  buffer : p.client.connection.buffer = []
  inbound : p.client.connection.transport.inbound =
    unread.map fun v => .data (encode session.protocol v)
  limit : p.client.connection.transport.limit = none
  received : p.received = []
  session_eq : p.session = session
  pending : p.pending = []
  forwarded : p.forwarded = forwarded
  lost : p.lost = none

/-- Whether a session is between two requests, its server's end being as given. -/
def Peer.Idle (p : Peer) (session : ServerSession) : Prop := p.Holds session [] []

/-- The client has read all there was. -/
theorem Peer.Holds.withClient {p : Peer} {session : ServerSession} {unread : List Value}
    {forwarded : List Message} (h : p.Holds session unread forwarded) {client : Client}
    (hclient : client.connection.Idle) :
    ({ p with client } : Peer).Holds session [] forwarded :=
  ⟨hclient.buffer, hclient.inbound, hclient.limit, h.received, h.session_eq, h.pending,
    h.forwarded, h.lost⟩

namespace Loopback

variable {l : Loopback} {i : Nat} {session session' : ServerSession} {server' : Server}
  {c : Command} {v : Value}

/-- Whether a session of a number is between two requests. -/
def Idle (l : Loopback) (i : Nat) (session : ServerSession) : Prop :=
  ∃ p, l.peers[i]? = some p ∧ p.Idle session

/-- The loopback after one session and the server have changed. -/
def moved (l : Loopback) (i : Nat) (p : Peer) (server : Server) : Loopback :=
  { l with server, peers := l.peers.set i p }

theorem idle_moved {p p' : Peer} {server : Server} (h : l.peers[i]? = some p')
    (hidle : p.Idle session) : (l.moved i p server).Idle i session := by
  obtain ⟨hi, -⟩ := List.getElem?_eq_some_iff.1 h
  exact ⟨p, List.getElem?_set_self hi, hidle⟩

theorem Idle.moved_of_ne {j : Nat} {p : Peer} {server : Server} (h : l.Idle j session)
    (hne : j ≠ i) : (l.moved i p server).Idle j session := by
  obtain ⟨q, hq, hidle⟩ := h
  exact ⟨q, (List.getElem?_set_ne hne.symm).trans hq, hidle⟩

theorem modify_of_getElem? {α : Type} {xs : List α} {a : α} (h : xs[i]? = some a) (f : α → α) :
    xs.modify i f = xs.set i (f a) := by
  apply List.ext_getElem?
  intro j
  rw [List.getElem?_modify, List.getElem?_set]
  obtain ⟨hi, rfl⟩ := List.getElem?_eq_some_iff.1 h
  by_cases hj : i = j
  · subst hj
    simp [hi]
  · simp [hj]

theorem server_foldl_push (l : Loopback) (targets : List (Nat × Value)) :
    (targets.foldl push l).server = l.server := by
  induction targets generalizing l with
  | nil => rfl
  | cons target targets ih => exact ih _

/-- What is sent to other sessions leaves a session as it is. -/
theorem getElem?_foldl_push {targets : List (Nat × Value)} (h : ∀ target ∈ targets, target.1 ≠ i)
    (l : Loopback) : (targets.foldl push l).peers[i]? = l.peers[i]? := by
  induction targets generalizing l with
  | nil => rfl
  | cons target targets ih =>
    obtain ⟨hne, htargets⟩ := List.forall_mem_cons.1 h
    rw [List.foldl_cons, ih htargets]
    exact List.getElem?_modify_ne _ _ hne

/-- A request that is answered with one value leaves it to be read, and beside it only what is sent
to other sessions. -/
theorem exists_submit_pushes (hidle : l.Idle i session) (hc : c.toFrame.Plain)
    {pushes : List (Nat × Value)} (hpushes : ∀ target ∈ pushes, target.1 ≠ i)
    (hhandle : l.server.handle l.now session c.toFrame =
      { replies := [v], session := session', server := server', pushes }) :
    ∃ p : Peer, l.submit i c =
        (pushes.foldl push { l with server := server' }).moved i p server' ∧
      p.Holds session' [v] [] := by
  obtain ⟨p, hp, hidle⟩ := hidle
  have hdrain := hc.drain_encode p.client.connection.version
  have hsession := hidle.session_eq
  -- the three changes that the server makes to the session, in their order
  let after : Peer := { ({ p with session := session' } : Peer).sent v with received := [] }
  have hafter : (pushes.foldl push { l with server := server' }).peers[i]? = some p :=
    (getElem?_foldl_push hpushes _).trans hp
  have hserver : (pushes.foldl push { l with server := server' }).server = server' :=
    server_foldl_push ..
  have hsubmit : l.submit i c =
      (pushes.foldl push { l with server := server' }).moved i after server' := by
    simp only [submit, deliver, hp, hidle.received, List.nil_append, hdrain, List.foldl_cons,
      List.foldl_nil, serve, hsession, hhandle]
    simp only [push, List.modify_modify_eq, Function.comp_def, moved, after, hserver]
    rw [modify_of_getElem? hafter]
  refine ⟨after, hsubmit, hidle.buffer, ?_, hidle.limit, rfl, rfl, hidle.pending, hidle.forwarded,
    hidle.lost⟩
  simp [after, Peer.sent, hidle.inbound]

/-- A request that is answered with one value leaves it to be read, and nothing else. -/
theorem exists_submit (hidle : l.Idle i session) (hc : c.toFrame.Plain)
    (hhandle : l.server.handle l.now session c.toFrame =
      { replies := [v], session := session', server := server' }) :
    ∃ p : Peer, l.submit i c = l.moved i p server' ∧ p.Holds session' [v] [] :=
  exists_submit_pushes hidle hc (fun _ hnone => absurd hnone List.not_mem_nil) hhandle

/-- The client of a session that has moved goes on from there. -/
theorem withClient_moved {α : Type} {p p' : Peer} {server : Server} (hp : l.peers[i]? = some p')
    (act : Client → Except ClientError α × Client) :
    (l.moved i p server).withClient i act =
      ((act p.client).1, l.moved i { p with client := (act p.client).2 } server) := by
  obtain ⟨hi, -⟩ := List.getElem?_eq_some_iff.1 hp
  have hset : (l.peers.set i p)[i]? = some p := List.getElem?_set_self hi
  simp only [withClient, moved, hset, List.set_set]

/-- A command comes to what its answer means, and leaves both ends idle. -/
theorem exists_answer_run (hidle : l.Idle i session) (hc : c.toFrame.Plain)
    (hhandle : l.server.handle l.tick.now session c.toFrame =
      { replies := [v], session := session', server := server' })
    (hv : v.Plain) (hpush : v.isPush = false) :
    ∃ p : Peer, answer (.run i c) l = (c.result v, l.tick.moved i p server') ∧
      p.Idle session' := by
  have htick : l.tick.Idle i session := hidle
  obtain ⟨p', hp', -⟩ := hidle
  obtain ⟨p, hsubmit, hholds⟩ := exists_submit htick hc hhandle
  have hparse := hv session'.protocol []
  rw [List.append_nil] at hparse
  obtain ⟨client, hrun, hclient⟩ :=
    Client.run_of_arrived hholds.buffer hholds.inbound hholds.limit hparse hpush c
  refine ⟨{ p with client }, ?_, hholds.withClient hclient⟩
  show (l.tick.submit i c).withClient i (·.run c) = _
  rw [hsubmit, withClient_moved (l := l.tick) hp', hrun]

/-! ## New sessions -/

/-- A session that was just accepted. -/
theorem exists_answer_dial (l : Loopback) (e : Endpoint) :
    ∃ l', answer (.dial e) l = (.ok l.peers.length, l') ∧
      l'.Idle l.peers.length { id := l.peers.length } ∧
      (∀ (i : Nat) (p : Peer), l.peers[i]? = some p → l'.peers[i]? = some p) ∧
      l'.server = l.server ∧ l'.peers.length = l.peers.length + 1 := by
  refine ⟨_, rfl, ?_, ?_, rfl, ?_⟩
  · exact ⟨_, List.getElem?_concat_length, rfl, rfl, rfl, rfl, rfl, rfl, rfl, rfl⟩
  · intro i p hp
    obtain ⟨hi, -⟩ := List.getElem?_eq_some_iff.1 hp
    exact (List.getElem?_append_left hi).trans hp
  · exact List.length_append

/-- The properties that a greeting in version 3 is answered with are read back. -/
theorem parse_properties (session : ServerSession) :
    parse (encode .resp3 (Server.properties { session with protocol := .resp3 })) =
      .complete (Server.properties { session with protocol := .resp3 }) [] := by
  let v := Value.map [(.simple "server", .simple "stub"),
    (.simple "proto", .integer (Int64.ofNat Version.resp3.number))]
  have hfits : v.Everywhere Value.Fits := by decide +kernel
  have hline : v.Everywhere Value.OneLine := by decide +kernel
  have hparse := Resp.parse_encode hfits hline []
  rwa [List.append_nil] at hparse

/-- A greeting in version 3 is answered in it, and the session speaks it from then on. -/
theorem exists_answer_greet (hidle : l.Idle i session) (hblock : session.block = none) :
    ∃ reply p, answer (.greet i .resp3) l = (.ok reply, l.tick.moved i p l.server) ∧
      p.Idle { session with protocol := .resp3 } := by
  have htick : l.tick.Idle i session := hidle
  obtain ⟨p', hp', -⟩ := hidle
  have hparts : (Command.hello .resp3).parts = [Bytes.ofText "HELLO", Bytes.ofText "3"] := by
    decide +kernel
  have hplain : (Command.hello .resp3).toFrame.Plain := by
    refine Value.plain_request ?_ ?_ <;> rw [hparts] <;> decide
  let v := Server.properties { session with protocol := .resp3 }
  obtain ⟨p, hsubmit, hholds⟩ :=
    exists_submit (v := v) htick hplain (Server.handle_greeting hblock)
  obtain ⟨client, hhello, hclient⟩ := Client.hello_of_arrived hholds.buffer hholds.inbound
    hholds.limit (parse_properties session) .resp3
  refine ⟨v, { p with client }, ?_, hholds.withClient hclient⟩
  show (l.tick.submit i (.hello .resp3)).withClient i (·.hello .resp3) = _
  rw [hsubmit, withClient_moved (l := l.tick) hp', hhello]
  rfl

end Loopback

end StoreTrial
