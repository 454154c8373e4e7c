import Std.Async.DNS
import Std.Async.TCP
import Std.Async.Timer
import StoreTrial.Dialogue
import StoreTrial.Session.Subscriber

/-!
# The network

Dialogues are held with real servers over sockets. What a session does is decided by the client and
subscriber of this library; here bytes are only carried to and fro, and time is only waited for.
-/

namespace StoreTrial.Network

open Std.Async

/-! ## Time -/

/-- How often a wait looks whether it has been interrupted, in milliseconds. -/
def beat : Nat := 10

/-- The time on the clock. -/
def now : IO Duration := return ⟨← IO.monoNanosNow⟩

/-- Thrown when the run is over while an answer is awaited. -/
def interruption : IO.Error := .userError "interrupted"

/-- Waits until the clock shows a moment, or until the run is over. -/
partial def waitUntil (moment : Duration) (isOver : IO Bool) : IO Unit := do
  let left := (moment - (← now)).nanos / Duration.perMilli
  if left = 0 || (← isOver) then return
  IO.sleep (min left beat).toUInt32
  waitUntil moment isOver

/-! ## Sockets -/

/-- How many bytes are received at once. -/
def chunkSize : UInt64 := 65536

/-- Runs an action of a socket; its failure is told in the words of the system. -/
def guarded {α : Type} (act : Async α) : IO (Except ClientError α) := do
  try
    return .ok (← act.block)
  catch e => return .error (.io (toString e))

/-- What arrives within a beat, if anything does. -/
def receiveSoon (socket : TCP.Socket.Client) : IO (Option Arrival) := do
  let soon : Async (Option (Option ByteArray)) := do
    Selectable.one #[
      .case (socket.recvSelector chunkSize) fun chunk => return some chunk,
      .case (← Selector.sleep (.ofNat beat)) fun _ => return none]
  match ← guarded soon with
  | .ok none => return none
  | .ok (some none) => return some (.data [])
  | .ok (some (some chunk)) => return some (.data chunk.data.toList)
  | .error e => return some (.fault (e.cause?.getD e.message))

/-- What arrives next, unless the wait is over before. -/
partial def receive (socket : TCP.Socket.Client) (isOver : IO Bool) : IO (Option Arrival) := do
  match ← receiveSoon socket with
  | some arrival => return some arrival
  | none => if ← isOver then return none else receive socket isOver

/-- The address of a machine with a port. -/
def socketAddress (port : UInt16) : Std.Net.IPAddr → Std.Net.SocketAddress
  | .v4 addr => .v4 { addr, port }
  | .v6 addr => .v6 { addr, port }

/-- Connects to one address of a server in the time that its settings allow. -/
def connectTo (e : Endpoint) (address : Std.Net.IPAddr) :
    IO (Except ClientError TCP.Socket.Client) := do
  let socket ← TCP.Socket.Client.mk
  let connected : Async Bool := do
    socket.connect (socketAddress e.port address)
    return true
  let expired : Async Bool := do
    sleep (.ofNat e.connectTimeoutMillis.toNat)
    return false
  match ← guarded (Async.race connected expired) with
  | .ok true => return .ok socket
  | .ok false => return .error (.timeout e.connectTimeout)
  | .error cause => return .error cause

/-- Connects to the first address of a server that can be reached. -/
def connectFirst (e : Endpoint) :
    List Std.Net.IPAddr → IO (Except ClientError TCP.Socket.Client)
  | [] => return .error (.io "no address found")
  | [address] => connectTo e address
  | address :: addresses => do
    match ← connectTo e address with
    | .ok socket => return .ok socket
    | .error _ => connectFirst e addresses

/-- Connects to a server. -/
def connect (e : Endpoint) : IO (Except ClientError TCP.Socket.Client) := do
  match ← guarded (DNS.getAddrInfo e.host "") with
  | .ok addresses => connectFirst e addresses.toList
  | .error cause => return .error cause

/-! ## Sessions -/

/-- A session over a socket. -/
structure Line where
  socket : TCP.Socket.Client
  client : IO.Ref Client
  /-- Messages that the subscriber has set aside. -/
  pending : IO.Ref (List Message)
  /-- Messages that the listener has forwarded. -/
  forwarded : IO.Ref (List Message)
  /-- Whether the listener has been cancelled. -/
  cancelled : IO.Ref Bool
  /-- The listener, if there is one. -/
  listener : IO.Ref (Option (Task (Except IO.Error (Except ClientError Unit))))

/-- A connection with nothing written and with this to be read. -/
def refilled (c : Connection) (inbound : List Arrival) : Connection :=
  { c with transport := { inbound, written := [] } }

/--
Has a session do something: what it writes is sent, and it starts over with more bytes as long as
those that have arrived are not enough. There is no result if the wait is over before.
-/
partial def converse {α σ : Type} (socket : TCP.Socket.Client) (isOver : IO Bool)
    (connectionOf : σ → Connection) (act : Connection → Except ClientError α × σ) (c : Connection) :
    IO (Option (Except ClientError α) × σ) := do
  let (result, after) := act (refilled c [])
  let written := (connectionOf after).transport.written
  let sent ← if written.isEmpty then pure (.ok ())
    else guarded (socket.send ⟨written.toArray⟩)
  match sent, result with
  | .error e, _ => return (some (.error e), after)
  | .ok (), .error .closed => continueWith [] after
  | .ok (), result => return (some result, after)
where
  /-- Goes on with the next arrival. -/
  continueWith (arrivals : List Arrival) (before : σ) : IO (Option (Except ClientError α) × σ) := do
    match ← receive socket isOver with
    | none => return (none, before)
    | some arrival =>
      let arrivals := arrivals ++ [arrival]
      match act (refilled c arrivals), arrival with
      | (.error .closed, after), .data (_ :: _) => continueWith arrivals after
      | (result, after), _ => return (some result, after)

/-- Has the client of a session do something. -/
def Line.withClient {α : Type} (line : Line) (isOver : IO Bool)
    (act : Client → Except ClientError α × Client) : IO (Except ClientError α) := do
  let client ← line.client.get
  let (result, client) ← converse line.socket isOver Client.connection
    (fun connection => act { client with connection }) client.connection
  line.client.set client
  match result with
  | some result => return result
  | none => throw interruption

/-- Has the subscriber of a session do something; there is no result if the wait is over before. -/
def Line.withSubscriber {α : Type} (line : Line) (isOver : IO Bool)
    (act : Subscriber → Except ClientError α × Subscriber) :
    IO (Option (Except ClientError α)) := do
  let client ← line.client.get
  let pending ← line.pending.get
  let (result, s) ← converse line.socket isOver Subscriber.connection
    (fun connection => act { connection, pending }) client.connection
  line.client.set { client with connection := s.connection }
  line.pending.set s.pending
  return result

/-- Forwards messages until the listener is cancelled or its connection ends. -/
partial def Line.forward (line : Line) : IO (Except ClientError Unit) := do
  match ← line.withSubscriber line.cancelled.get Subscriber.nextMessage with
  | none | some (.error .closed) => return .ok ()
  | some (.error e) => return .error e
  | some (.ok message) =>
    line.forwarded.modify (· ++ [message])
    line.forward

/-- Takes the oldest message that was forwarded. -/
def Line.take (line : Line) : IO (Option Message) :=
  line.forwarded.modifyGet fun
    | [] => (none, [])
    | message :: messages => (some message, messages)

/-- Whether the listener has stopped. -/
def Line.hasStopped (line : Line) : IO Bool := do
  match ← line.listener.get with
  | some task => IO.hasFinished task
  | none => return true

/-- Waits for a forwarded message until the deadline. -/
partial def Line.await (line : Line) (deadline : Duration) : IO Delivery := do
  let stopped ← line.hasStopped
  match ← line.take with
  | some message => return .message message
  | none =>
    if stopped then return .stopped
    if deadline.nanos ≤ (← now).nanos then return .late
    IO.sleep 1
    line.await deadline

/-- Cancels the listener and waits for its end. -/
def Line.stop (line : Line) : IO (Except ClientError Unit) := do
  line.cancelled.set true
  match ← line.listener.get with
  | some task => IO.ofExcept (← IO.wait task)
  | none => return .ok ()

/-! ## Answers -/

/-- The sessions of a run. -/
structure Sessions where
  lines : IO.Ref (Array Line)
  /-- Whether the run is over. -/
  isOver : IO Bool

/-- No sessions yet, in a run that is over when `isOver` says so. -/
def Sessions.new (isOver : IO Bool) : IO Sessions := return { lines := ← IO.mkRef #[], isOver }

namespace Sessions

/-- Opens a session over a socket. -/
def add (s : Sessions) (socket : TCP.Socket.Client) : IO Nat := do
  let line : Line :=
    { socket
      client := ← IO.mkRef (.overTransport { inbound := [] })
      pending := ← IO.mkRef []
      forwarded := ← IO.mkRef []
      cancelled := ← IO.mkRef false
      listener := ← IO.mkRef none }
  s.lines.modifyGet fun lines => (lines.size, lines.push line)

/-- A session by its number. -/
def line (s : Sessions) (i : Nat) : IO Line := do
  match (← s.lines.get)[i]? with
  | some line => return line
  | none => throw (.userError "no such session")

/-- Answers a request. -/
def answer (s : Sessions) : (r : Request) → IO r.Answer
  | .dial e => do
    match ← connect e with
    | .ok socket => return .ok (← s.add socket)
    | .error cause => return .error cause
  | .greet i version => do (← s.line i).withClient s.isOver (·.hello version)
  | .run i c => do (← s.line i).withClient s.isOver (·.run c)
  | .subscribe i channel => do
    match ← (← s.line i).withSubscriber s.isOver (·.subscribe channel) with
    | some result => return result
    | none => throw interruption
  | .listen i => do
    let line ← s.line i
    line.listener.set (some (← IO.asTask line.forward .dedicated))
  | .receive i deadline => do (← s.line i).await deadline
  | .take i => do (← s.line i).take
  | .stop i => do (← s.line i).stop
  | .unsubscribe i channel deadline => do
    let isLate : IO Bool := return deadline.nanos ≤ (← now).nanos
    (← s.line i).withSubscriber isLate (·.unsubscribe channel)
  | .pause d => do waitUntil ((← now) + d) s.isOver
  | .clock => now

end Sessions

/-- Holds a dialogue over the network. -/
def hold {α : Type} (isOver : IO Bool) (d : Dialogue α) : IO α := do
  d.perform (← Sessions.new isOver).answer

end StoreTrial.Network
