import StoreTrial.Dialogue
import StoreTrial.Session.Subscriber
import StoreTrial.Store.Server

/-!
# A server in the same process

A dialogue can be held with a server that runs beside it. Both ends of every session are kept: what
a client writes is parsed, handled and answered at once, and the bytes of the answer are there when
the client reads. Time passes with every request, as much as `lags` says, and in pauses.

## Main results

* `Loopback.now_le_answer` — the clock never goes back.
-/

namespace StoreTrial

open Resp (Value Version)

/-- Both ends of a session. -/
structure Peer where
  client : Client := .overTransport { inbound := [] }
  session : ServerSession
  /-- What the server has received of a request that is not complete. -/
  received : Bytes := []
  /-- Messages that the client has set aside. -/
  pending : List Message := []
  /-- Messages that the listener has forwarded. -/
  forwarded : List Message := []
  /-- What ended the listener. -/
  lost : Option ClientError := none
  deriving Repr

namespace Peer

/-- The client's end as a subscriber. -/
def subscriber (p : Peer) : Subscriber :=
  { connection := p.client.connection, pending := p.pending }

/-- The session after its subscriber did something. -/
def withSubscriber (p : Peer) (s : Subscriber) : Peer :=
  { p with client := { p.client with connection := s.connection }, pending := s.pending }

/-- The session after its server wrote a value. -/
def sent (v : Value) (p : Peer) : Peer :=
  let c := p.client.connection
  let inbound := c.transport.inbound ++ [.data (Resp.encode p.session.protocol v)]
  { p with
    client :=
      { p.client with connection := { c with transport := { c.transport with inbound } } } }

/-- Has the listener forward all that has arrived. -/
def forward (p : Peer) : Peer :=
  let listening := p.subscriber.listen none
  let forwarded := p.forwarded ++ listening.delivered
  match listening.ending with
  | .ok s => { p.withSubscriber s with forwarded }
  | .error e => { p with forwarded, lost := some e }

end Peer

/-- A server with all its sessions, and the time. -/
structure Loopback where
  server : Server := {}
  peers : List Peer := []
  now : Nat := 0
  /-- How much time passes with each request; none when there is no more. -/
  lags : List Nat := []
  deriving Repr

namespace Loopback

/-! ## Requests on the wire -/

/-- Sends a value to a session. -/
def push (l : Loopback) (target : Nat × Value) : Loopback :=
  { l with peers := l.peers.modify target.1 (·.sent target.2) }

/-- Has the server answer one request of a session. -/
def serve (i : Nat) (l : Loopback) (frame : Value) : Loopback :=
  match l.peers[i]? with
  | none => l
  | some p =>
    let handled := l.server.handle l.now p.session frame
    let l := handled.pushes.foldl push { l with server := handled.server }
    let l := { l with peers := l.peers.modify i fun p => { p with session := handled.session } }
    handled.replies.foldl (fun l v => l.push (i, v)) l

/-- Has the server receive bytes of a session and answer every request that is complete. -/
def deliver (l : Loopback) (i : Nat) (bytes : Bytes) : Loopback :=
  match l.peers[i]? with
  | none => l
  | some p =>
    let drained := Resp.drain (p.received ++ bytes)
    let l := drained.frames.foldl (serve i) l
    { l with peers := l.peers.modify i fun p => { p with received := drained.left } }

/-- Has a session write a command, whose answer has then arrived. -/
def submit (l : Loopback) (i : Nat) (c : Command) : Loopback :=
  match l.peers[i]? with
  | none => l
  | some p => l.deliver i (Resp.encode p.client.connection.version c.toFrame)

/-- Has the client of a session do something. -/
def withClient {α : Type} (l : Loopback) (i : Nat) (act : Client → Except ClientError α × Client) :
    Except ClientError α × Loopback :=
  match l.peers[i]? with
  | none => (.error .closed, l)
  | some p =>
    let (result, client) := act p.client
    (result, { l with peers := l.peers.set i { p with client } })

/-- Has the subscriber of a session do something. -/
def withSubscriber {α : Type} (l : Loopback) (i : Nat)
    (act : Subscriber → Except ClientError α × Subscriber) : Except ClientError α × Loopback :=
  match l.peers[i]? with
  | none => (.error .closed, l)
  | some p =>
    let (result, s) := act p.subscriber
    (result, { l with peers := l.peers.set i (p.withSubscriber s) })

/-! ## Answers -/

/-- Accepts a new session. -/
def accept (l : Loopback) : Nat × Loopback :=
  let id := l.peers.length
  (id, { l with peers := l.peers ++ [{ session := { id } }] })

/-- The next message that was forwarded to a session. -/
def popMessage (l : Loopback) (i : Nat) : Option Message × Loopback :=
  match l.peers[i]? with
  | none => (none, l)
  | some p =>
    (p.forwarded.head?,
      { l with peers := l.peers.set i { p with forwarded := p.forwarded.drop 1 } })

/-- Waits for a message until the deadline; no message comes that has not been sent already. -/
def receive (l : Loopback) (i : Nat) (deadline : Duration) : Delivery × Loopback :=
  let l := { l with peers := l.peers.modify i Peer.forward }
  match l.popMessage i with
  | (some m, l) => (.message m, l)
  | (none, l) =>
    if ((l.peers[i]?).bind (·.lost)).isSome then (.stopped, l)
    else (.late, { l with now := max l.now deadline.nanos })

/-- Takes the subscriber of a session back from its listener. -/
def stop (l : Loopback) (i : Nat) : Except ClientError Unit × Loopback :=
  match (l.peers[i]?).bind (·.lost) with
  | some e => (.error e, l)
  | none => (.ok (), l)

/-- Lets as much time pass as the next request takes. -/
def tick (l : Loopback) : Loopback :=
  { l with now := l.now + l.lags.headD 0, lags := l.lags.drop 1 }

/-- Answers a request at the present time. -/
def respond : (r : Request) → Loopback → r.Answer × Loopback
  | .dial _, l =>
    let (id, l) := l.accept
    (.ok id, l)
  | .greet i version, l => (l.submit i (.hello version)).withClient i (·.hello version)
  | .run i c, l => (l.submit i c).withClient i (·.run c)
  | .subscribe i channel, l =>
    (l.submit i (.subscribe [channel])).withSubscriber i (·.subscribe channel)
  | .listen _, l => ((), l)
  | .receive i deadline, l => l.receive i deadline
  | .take i, l => l.popMessage i
  | .stop i, l => l.stop i
  | .unsubscribe i channel _, l =>
    let (result, l) :=
      (l.submit i (.unsubscribe [channel])).withSubscriber i (·.unsubscribe channel)
    (some result, l)
  | .pause d, l => ((), { l with now := l.now + d.nanos })
  | .clock, l => (⟨l.now⟩, l)

/-- Answers a request. -/
def answer (r : Request) (l : Loopback) : r.Answer × Loopback := respond r l.tick

/-! ## Time -/

theorem now_foldl_push (l : Loopback) (targets : List (Nat × Value)) :
    (targets.foldl push l).now = l.now := by
  induction targets generalizing l with
  | nil => rfl
  | cons target targets ih => exact ih _

theorem now_serve (i : Nat) (l : Loopback) (frame : Value) : (serve i l frame).now = l.now := by
  unfold serve
  split
  · rfl
  · rw [← List.foldl_map (f := fun v => (i, v)) (g := push), now_foldl_push]
    exact now_foldl_push _ _

theorem now_foldl_serve (i : Nat) (l : Loopback) (frames : List Value) :
    (frames.foldl (serve i) l).now = l.now := by
  induction frames generalizing l with
  | nil => rfl
  | cons frame frames ih => rw [List.foldl_cons, ih, now_serve]

theorem now_submit (l : Loopback) (i : Nat) (c : Command) : (l.submit i c).now = l.now := by
  unfold submit
  split
  · rfl
  · unfold deliver
    split
    · rfl
    · exact now_foldl_serve i l _

theorem now_withClient {α : Type} (l : Loopback) (i : Nat)
    (act : Client → Except ClientError α × Client) : (l.withClient i act).2.now = l.now := by
  unfold withClient
  split <;> rfl

theorem now_withSubscriber {α : Type} (l : Loopback) (i : Nat)
    (act : Subscriber → Except ClientError α × Subscriber) :
    (l.withSubscriber i act).2.now = l.now := by
  unfold withSubscriber
  split <;> rfl

theorem now_popMessage (l : Loopback) (i : Nat) : (l.popMessage i).2.now = l.now := by
  unfold popMessage
  split <;> rfl

theorem now_le_receive (l : Loopback) (i : Nat) (deadline : Duration) :
    l.now ≤ (l.receive i deadline).2.now := by
  have hpop := now_popMessage { l with peers := l.peers.modify i Peer.forward } i
  simp only [receive]
  split
  · next heq =>
    rw [heq] at hpop
    exact Nat.le_of_eq hpop.symm
  · next heq =>
    rw [heq] at hpop
    split
    · exact Nat.le_of_eq hpop.symm
    · exact Nat.le_trans (Nat.le_of_eq hpop.symm) (Nat.le_max_left ..)

theorem now_le_respond (r : Request) (l : Loopback) : l.now ≤ (respond r l).2.now := by
  cases r with
  | dial e => exact Nat.le_refl _
  | greet i version => exact Nat.le_of_eq ((now_withClient ..).trans (now_submit ..)).symm
  | run i c => exact Nat.le_of_eq ((now_withClient ..).trans (now_submit ..)).symm
  | subscribe i channel =>
    exact Nat.le_of_eq ((now_withSubscriber ..).trans (now_submit ..)).symm
  | listen i => exact Nat.le_refl _
  | receive i deadline => exact now_le_receive ..
  | take i => exact Nat.le_of_eq (now_popMessage ..).symm
  | stop i =>
    simp only [respond, stop]
    split <;> exact Nat.le_refl _
  | unsubscribe i channel deadline =>
    have h := now_withSubscriber (l.submit i (.unsubscribe [channel])) i (·.unsubscribe channel)
    exact Nat.le_of_eq (h.trans (now_submit ..)).symm
  | pause d => exact Nat.le_add_right ..
  | clock => exact Nat.le_refl _

/-- The clock never goes back. -/
theorem now_le_answer (r : Request) (l : Loopback) : l.now ≤ (answer r l).2.now :=
  Nat.le_trans (Nat.le_add_right ..) (now_le_respond r l.tick)

end Loopback

/-- Holds a dialogue with a server in the same process. -/
def Dialogue.beside {α : Type} (d : Dialogue α) (l : Loopback) : α × Loopback :=
  d.run Loopback.answer l

end StoreTrial
