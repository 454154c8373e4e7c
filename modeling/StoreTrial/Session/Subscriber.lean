import StoreTrial.Session.Client

/-!
# Subscribers

A session that has joined a channel receives confirmations and messages. Messages that arrive
while a confirmation is awaited are kept for later. A listener forwards messages to a receiver
until it is cancelled, the receiver is gone, or the connection ends, and then hands the session
back.
-/

namespace StoreTrial

open Resp (Value)

/-- A session that listens to channels. -/
structure Subscriber where
  connection : Connection
  /-- Messages that arrived while a confirmation was awaited, oldest first. -/
  pending : List Message := []
  deriving Repr

/-- A client session turned into a listening one. -/
def Client.toSubscriber (client : Client) : Subscriber := { connection := client.connection }

namespace Subscriber

/-! ## Joining and leaving -/

/--
Reads frames until one is the awaited confirmation, keeping the messages among the others. An
error answer ends the wait.
-/
def awaitConfirmation (channel : Bytes) (read : Value → Option Confirmation) (s : Subscriber) :
    Except ClientError Confirmation × Subscriber :=
  match _h : s.connection.readFrame with
  | (.error e, connection) => (.error e, { s with connection })
  | (.ok v, connection) =>
    match (read v).filter (·.channel == channel) with
    | some confirmation => (.ok confirmation, { s with connection })
    | none =>
      match v with
      | .error message => (.error (.server message), { s with connection })
      | _ =>
        awaitConfirmation channel read
          { connection, pending := s.pending ++ (Message.ofFrame? v).toList }
  termination_by s.connection.backlog
  decreasing_by
    have := Connection.backlog_of_readFrame _h
    omega

/-- Writes a request and waits for its confirmation. -/
def confirm (s : Subscriber) (c : Command) (channel : Bytes)
    (read : Value → Option Confirmation) : Except ClientError Confirmation × Subscriber :=
  match s.connection.send c.toFrame with
  | (.error e, connection) => (.error e, { s with connection })
  | (.ok (), connection) => awaitConfirmation channel read { s with connection }

/-- Joins a channel. -/
def subscribe (s : Subscriber) (channel : Bytes) : Except ClientError Confirmation × Subscriber :=
  s.confirm (.subscribe [channel]) channel Confirmation.ofSubscribe?

/-- Leaves a channel. -/
def unsubscribe (s : Subscriber) (channel : Bytes) :
    Except ClientError Confirmation × Subscriber :=
  s.confirm (.unsubscribe [channel]) channel Confirmation.ofUnsubscribe?

/-! ## Messages -/

/-- Reads frames until one is a message. -/
def readMessage (c : Connection) : Except ClientError Message × Connection :=
  match _h : c.readFrame with
  | (.error e, c') => (.error e, c')
  | (.ok v, c') =>
    match Message.ofFrame? v with
    | some message => (.ok message, c')
    | none => readMessage c'
  termination_by c.backlog
  decreasing_by
    have := Connection.backlog_of_readFrame _h
    omega

/-- The next message: the oldest one kept, or else the next to arrive. -/
def nextMessage (s : Subscriber) : Except ClientError Message × Subscriber :=
  match s.pending with
  | message :: pending => (.ok message, { s with pending })
  | [] =>
    let (result, connection) := readMessage s.connection
    (result, { s with connection })

/-! ## Listening -/

/-- What a listener leaves behind. -/
structure Listening where
  /-- The messages that the receiver took, in order. -/
  delivered : List Message
  /-- The session handed back, or the failure that ended it. -/
  ending : Except ClientError Subscriber

/-- One more message that the receiver took before all that follow. -/
def Listening.after (message : Message) (l : Listening) : Listening :=
  { l with delivered := message :: l.delivered }

/--
Forwards messages. The listener is cancelled after `looks` looks at its session, and the receiver
is dropped once it took `room` messages, if ever; the listener learns of that only when it has
another message in hand.
-/
def listenFor : (looks : Nat) → (room : Option Nat) → Subscriber → Listening
  | 0, _, s => ⟨[], .ok s⟩
  | looks + 1, room, s =>
    match s.pending with
    | message :: pending => forward looks room message { s with pending }
    | [] =>
      match s.connection.poll with
      | (.frame v, connection) =>
        match Message.ofFrame? v with
        | some message => forward looks room message { s with connection }
        | none => listenFor looks room { s with connection }
      | (.received, connection) => listenFor looks room { s with connection }
      | (.failed .closed, connection) => ⟨[], .ok { s with connection }⟩
      | (.failed e, _) => ⟨[], .error e⟩
where
  /-- Hands one message to the receiver and goes on if it was taken. -/
  forward (looks : Nat) (room : Option Nat) (message : Message) (s : Subscriber) : Listening :=
    match room with
    | some 0 => ⟨[], .ok s⟩
    | _ => (listenFor looks (room.map (· - 1)) s).after message

/-- More looks than a session can need before its connection ends. -/
def enoughLooks (s : Subscriber) : Nat := s.pending.length + s.connection.backlog + 1

/-- Forwards messages until the connection ends or the receiver is gone. -/
def listen (s : Subscriber) (room : Option Nat) : Listening := s.listenFor s.enoughLooks room

end Subscriber

end StoreTrial
