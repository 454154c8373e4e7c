import StoreTrial.Resp.Encode
import StoreTrial.Resp.Parse
import StoreTrial.Session.Error

/-!
# Connections

A connection is a transport and the bytes received so far that form no complete frame. What the
transport will deliver is a list of arrivals, after which the peer has closed; what was written to
it is recorded. Nothing here waits: each look at a connection either yields a frame, or takes the
next arrival into the buffer, or fails.

## Main results

* `backlog_of_readFrame` — a frame takes at least three bytes out of what is still to be read.
-/

-- The zero that a sum starts from is the core library's, whatever else is in scope.
attribute [local instance (high)] Zero.ofOfNat0

namespace StoreTrial

open Resp (Value Version)

/-! ## Transports -/

/-- One thing that the transport delivers. -/
inductive Arrival where
  | data (chunk : Bytes)
  /-- One read fails, in the words of the system; what follows can still be read. -/
  | fault (cause : String)
  deriving Repr, DecidableEq

/-- A channel to a server: what will arrive, and what was written. -/
structure Transport where
  inbound : List Arrival
  written : Bytes := []
  /-- How many bytes can be written in all, if not any number. -/
  limit : Option Nat := none
  deriving Repr

namespace Transport

/-- How many bytes can still be written, if not any number. -/
def room (t : Transport) : Option Nat := t.limit.map (· - t.written.length)

/-- Shown when the transport takes no more bytes. -/
def full : ClientError := .io "write zero"

/-- Writes all bytes, or as many as there is room for and then fails. -/
def write (t : Transport) (bytes : Bytes) : Except ClientError Unit × Transport :=
  match t.room with
  | none => (.ok (), { t with written := t.written ++ bytes })
  | some room =>
    (if bytes.length ≤ room then .ok () else .error full,
      { t with written := t.written ++ bytes.take room })

end Transport

/-! ## Connections -/

/-- A transport, the unread rest of what arrived, and the version in which requests are written. -/
structure Connection where
  transport : Transport
  buffer : Bytes := []
  version : Version := .resp2
  deriving Repr

/-- What one look at a connection yields. -/
inductive Poll where
  /-- A complete frame. -/
  | frame (v : Value)
  /-- Bytes have arrived. -/
  | received
  | failed (e : ClientError)
  deriving Repr

namespace Connection

/-- Writes a request. -/
def send (c : Connection) (v : Value) : Except ClientError Unit × Connection :=
  let (result, transport) := c.transport.write (Resp.encode c.version v)
  (result, { c with transport })

/-- The connection after the next arrival is taken off its transport. -/
def skipArrival (c : Connection) : Connection :=
  { c with transport := { c.transport with inbound := c.transport.inbound.drop 1 } }

/-- Takes the next arrival; an empty one is how a transport says that the peer has closed. -/
def receive (c : Connection) : Poll × Connection :=
  match c.transport.inbound with
  | [] | .data [] :: _ => (.failed .closed, c.skipArrival)
  | .fault cause :: _ => (.failed (.io cause), c.skipArrival)
  | .data chunk :: _ => (.received, { c.skipArrival with buffer := c.buffer ++ chunk })

/-- Yields a frame if the buffer holds one, and else takes the next arrival. -/
def poll (c : Connection) : Poll × Connection :=
  match Resp.parse c.buffer with
  | .complete v rest => (.frame v, { c with buffer := rest })
  | .invalid e => (.failed (.protocol e), c)
  | .incomplete => c.receive

/-- How many bytes and arrivals are still to be read. -/
def backlog (c : Connection) : Nat :=
  c.buffer.length + (c.transport.inbound.map fun
    | .data chunk => chunk.length + 1
    | .fault _ => 1).sum

/-- An arrival that is taken leaves less to be read. -/
theorem backlog_of_received {c c' : Connection} (h : c.receive = (.received, c')) :
    c'.backlog < c.backlog := by
  unfold receive at h
  split at h <;> cases h
  next chunk rest hne heq =>
    simp only [backlog, skipArrival, heq, List.length_append, List.drop_succ_cons, List.drop_zero,
      List.map_cons, List.sum_cons]
    omega

theorem receive_ne_frame {c c' : Connection} {v : Value} : c.receive ≠ (.frame v, c') := by
  unfold receive
  split <;> simp

/-- A look that does not fail leaves less to be read; a frame takes three bytes or more. -/
theorem backlog_of_poll {c c' : Connection} {p : Poll} (h : c.poll = (p, c')) :
    match p with
    | .frame _ => c'.backlog + 3 ≤ c.backlog
    | .received => c'.backlog < c.backlog
    | .failed _ => True := by
  unfold poll at h
  split at h
  · next v rest hparse =>
    cases h
    have := Resp.length_of_parse hparse
    simp only [backlog]
    omega
  · cases h
    trivial
  · cases p with
    | frame v => exact absurd h receive_ne_frame
    | received => exact backlog_of_received h
    | failed e => trivial

/-- Reads the next frame, whatever it is. -/
def readFrame (c : Connection) : Except ClientError Value × Connection :=
  match _h : c.poll with
  | (.frame v, c') => (.ok v, c')
  | (.failed e, c') => (.error e, c')
  | (.received, c') => readFrame c'
  termination_by c.backlog
  decreasing_by exact backlog_of_poll _h

/-- A frame takes at least three bytes out of what is still to be read. -/
theorem backlog_of_readFrame {c c' : Connection} {v : Value} (h : c.readFrame = (.ok v, c')) :
    c'.backlog + 3 ≤ c.backlog := by
  fun_induction readFrame c with
  | case1 c v' c'' hpoll =>
    cases h
    exact backlog_of_poll hpoll
  | case2 => cases h
  | case3 c c'' hpoll ih =>
    have h1 : c''.backlog < c.backlog := backlog_of_poll hpoll
    have h2 := ih h
    omega

/-- Reads the next frame that answers a request. -/
def readReply (c : Connection) : Except ClientError Value × Connection :=
  match _h : c.readFrame with
  | (.ok (.push _), c') => readReply c'
  | (result, c') => (result, c')
  termination_by c.backlog
  decreasing_by
    have := backlog_of_readFrame _h
    omega

/-- Writes a request and reads its answer. -/
def request (c : Connection) (v : Value) : Except ClientError Value × Connection :=
  match c.send v with
  | (.error e, c') => (.error e, c')
  | (.ok (), c') => c'.readReply

end Connection

end StoreTrial
