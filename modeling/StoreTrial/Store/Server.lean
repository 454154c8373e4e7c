import StoreTrial.Resp.Encode
import StoreTrial.Resp.Stream
import StoreTrial.Store.Execute

/-!
# A server

A server keeps one store and the channels that its sessions listen to. A session speaks one version
of the protocol, may have a block open and may watch keys. Each request yields replies for its own
session, and a published message yields a push for every session that listens.
-/

namespace StoreTrial

open Resp (Value Version)

/-- One session of a server. -/
structure ServerSession where
  id : Nat
  protocol : Version := .resp2
  /-- The requests queued in the block that is open, if one is. -/
  block : Option (List (List Bytes)) := none
  /-- Whether a request could not be queued. -/
  spoiled : Bool := false
  /-- The watched keys, with the versions they had. -/
  watched : List (Bytes × Nat) := []
  /-- The channels that the session listens to. -/
  channels : List Bytes := []
  deriving Repr

/-- What all sessions of a server share. -/
structure Server where
  divergence : Divergence := {}
  store : Store := {}
  /-- The sessions that listen to each channel. -/
  listeners : Table (List Nat) := {}
  deriving Repr

/-- What comes of a request. -/
structure Handled where
  replies : List Value
  session : ServerSession
  server : Server
  /-- What other sessions are sent, before the replies. -/
  pushes : List (Nat × Value) := []
  deriving Repr

namespace Server

open Store (word ok wrongCount unknown)

/-! ## Blocks -/

/-- The requests that can be queued. -/
def queueable : List String := ["SET", "GET", "DEL", "EXISTS", "MERGE", "PING", "PUBLISH"]

/-- The requests that are answered at once although a block is open. -/
def immediate : List String := ["EXEC", "DISCARD", "MULTI", "WATCH"]

/-- Runs the requests of a block until one fails. -/
def runBlock (d : Divergence) (now : Nat) :
    List (List Bytes) → Store → Option (List Value) × Store
  | [], s => (some [], s)
  | request :: requests, s =>
    match s.execute d now true request with
    | (.error _, s) => (none, s)
    | (reply, s) =>
      let (replies, s) := runBlock d now requests s
      (replies.map (reply :: ·), s)

/-- Whether a watched key has changed. -/
def hasChanged (s : Store) (watched : List (Bytes × Nat)) : Bool :=
  watched.any fun (key, version) => s.version key != version

/-- The store as it was, except that writes stay counted. -/
def rollBack (before after : Store) : Store := { before with versions := after.versions }

/-- Ends a block: it is applied, or answered with null. -/
def applyBlock (now : Nat) (server : Server) (watched : List (Bytes × Nat))
    (requests : List (List Bytes)) : Value × Server :=
  let before := server.store
  if hasChanged before watched && !server.divergence.ignoresWatches then (.null, server)
  else
    match runBlock server.divergence now requests before with
    | (some replies, store) => (.array replies, { server with store })
    | (none, store) =>
      (.null,
        { server with
          store := if server.divergence.keepsFailedBlocks then store else rollBack before store })

/-- Ends the block of a session. -/
def exec (now : Nat) (session : ServerSession) (server : Server) :
    Value × ServerSession × Server :=
  match session.block with
  | none => (.error "ERR EXEC without MULTI", session, server)
  | some requests =>
    let ended := { session with block := none, watched := [], spoiled := false }
    if session.spoiled then
      (.error "EXECABORT Transaction discarded because of previous errors.", ended, server)
    else
      let (reply, server) := applyBlock now server session.watched requests
      (reply, ended, server)

/-- The store after the requests of a block that is discarded and yet applied. -/
def applyAll (now : Nat) (server : Server) (requests : List (List Bytes)) : Server :=
  { server with
    store := requests.foldl
      (fun store request => (store.execute server.divergence now false request).2) server.store }

/-! ## Channels -/

/-- The sessions that listen to a channel. -/
def listenersOf (server : Server) (channel : Bytes) : List Nat :=
  (server.listeners.get? channel).getD []

/-- Tells a session that it has joined or left a channel. -/
def confirmation (kind : String) (channel : Bytes) (session : ServerSession) : Value :=
  .push [.bulk (Bytes.ofText kind), .bulk channel,
    .integer (Int64.ofNat session.channels.length)]

/-- Joins a session to a channel. -/
def join (session : ServerSession) (server : Server) (channel : Bytes) :
    ServerSession × Server :=
  if channel ∈ session.channels then (session, server)
  else
    ({ session with channels := session.channels ++ [channel] },
      { server with
        listeners := server.listeners.insert channel
          (server.listenersOf channel ++ [session.id]) })

/-- Takes a session out of a channel. -/
def leave (session : ServerSession) (server : Server) (channel : Bytes) :
    ServerSession × Server :=
  if channel ∈ session.channels then
    ({ session with channels := session.channels.filter (· != channel) },
      { server with
        listeners := server.listeners.insert channel
          ((server.listenersOf channel).filter (· != session.id)) })
  else (session, server)

/-- Joins or leaves channels one by one and confirms each. -/
def confirmAll (kind : String) (change : ServerSession → Server → Bytes → ServerSession × Server)
    (session : ServerSession) (server : Server) : List Bytes → Handled
  | [] => { replies := [], session, server }
  | channel :: channels =>
    let (session, server) := change session server channel
    let rest := confirmAll kind change session server channels
    { rest with replies := confirmation kind channel session :: rest.replies }

/-- A message as a session that listens is sent it. -/
def messageFrame (channel message : Bytes) : Value :=
  .push [.bulk (Bytes.ofText "message"), .bulk channel, .bulk message]

/-- Publishes a message; the reply counts the sessions that listen. -/
def publish (session : ServerSession) (server : Server) (channel message : Bytes) : Handled :=
  let listeners := server.listenersOf channel
  { replies := [.integer (Int64.ofNat listeners.length)]
    session
    server
    pushes := if server.divergence.dropsMessages then []
      else listeners.map fun id => (id, messageFrame channel message) }

/-! ## Requests -/

/-- A session that has one reply and changes nothing. -/
def reply (v : Value) (session : ServerSession) (server : Server) : Handled :=
  { replies := [v], session, server }

/-- The properties that a greeting is answered with. -/
def properties (session : ServerSession) : Value :=
  .map [(.simple "server", .simple "stub"),
    (.simple "proto", .integer (Int64.ofNat session.protocol.number))]

/-- Answers a greeting. -/
def greet (session : ServerSession) (server : Server) (version : Option String) : Handled :=
  let greeted (protocol : Version) : Handled :=
    let session := { session with protocol }
    reply (properties session) session server
  match version with
  | none | some "2" => greeted .resp2
  | some "3" => greeted .resp3
  | some _ => reply (.error "NOPROTO unsupported protocol version") session server

/-- Opens a block. -/
def multi (session : ServerSession) (server : Server) : Handled :=
  if session.block.isSome then
    reply (.error "ERR MULTI calls can not be nested") session server
  else reply ok { session with block := some [], spoiled := false } server

/-- Discards the block. -/
def discard (now : Nat) (session : ServerSession) (server : Server) : Handled :=
  match session.block with
  | none => reply (.error "ERR DISCARD without MULTI") session server
  | some requests =>
    reply ok { session with block := none, watched := [] }
      (if server.divergence.appliesDiscarded then applyAll now server requests else server)

/-- Watches keys. -/
def watch (session : ServerSession) (server : Server) (keys : List Bytes) : Handled :=
  if session.block.isSome then
    reply (.error "ERR WATCH inside MULTI is not allowed") session server
  else
    let watched := session.watched ++ keys.map fun key => (key, server.store.version key)
    reply ok { session with watched } server

/-- Puts a request into the block that is open. -/
def queue (session : ServerSession) (server : Server) (requests : List (List Bytes))
    (name : String) (request : List Bytes) : Handled :=
  if name ∈ queueable then
    reply (.simple "QUEUED") { session with block := some (requests ++ [request]) } server
  else reply (unknown name) { session with spoiled := true } server

/-- Answers a request outside of a block, or one that ends or concerns the block. -/
def dispatch (now : Nat) (session : ServerSession) (server : Server) (name : String)
    (args : List Bytes) (request : List Bytes) : Handled :=
  match name with
  | "HELLO" => greet session server (args.head?.map word)
  | "MULTI" => multi session server
  | "DISCARD" => discard now session server
  | "WATCH" => watch session server args
  | "EXEC" =>
    let (v, session, server) := exec now session server
    reply v session server
  | "SUBSCRIBE" => confirmAll "subscribe" join session server args
  | "UNSUBSCRIBE" =>
    confirmAll "unsubscribe" leave session server (if args.isEmpty then session.channels else args)
  | "PUBLISH" =>
    match args with
    | [channel, message] => publish session server channel message
    | _ => reply (wrongCount "PUBLISH") session server
  | "PING" => reply (.simple "PONG") session server
  | _ =>
    let (v, store) := server.store.execute server.divergence now false request
    reply v session { server with store }

/-- The parts of a request. -/
def parts? (frame : Value) : Option (List Bytes) := frame.items?.bind (·.mapM Value.payload?)

/-- Answers a request. -/
def handle (now : Nat) (session : ServerSession) (server : Server) (frame : Value) : Handled :=
  match parts? frame with
  | none | some [] => reply (.error "ERR protocol error") session server
  | some (head :: args) =>
    let name := word head
    match session.block with
    | some requests =>
      if name ∈ immediate then dispatch now session server name args (head :: args)
      else queue session server requests name (head :: args)
    | none => dispatch now session server name args (head :: args)

end Server

end StoreTrial
