import StoreTrial.Command.Reply
import StoreTrial.Session.Connection

/-!
# Client sessions

A client runs typed commands over one connection. It starts in version 2 of the protocol; only a
successful greeting changes the version, for the session and for the requests it writes.
-/

namespace StoreTrial

open Resp (Value Version)

/-- A session of commands. -/
structure Client where
  connection : Connection
  /-- The version that the session has negotiated. -/
  protocol : Version := .resp2
  deriving Repr

namespace Client

/-- A session over a fresh transport. -/
def overTransport (t : Transport) : Client := { connection := { transport := t } }

/-- Runs a command; whatever it is, the session goes on in the same version. -/
def run (client : Client) (c : Command) : Except ClientError c.Output × Client :=
  match client.connection.request c.toFrame with
  | (.error e, connection) => (.error e, { client with connection })
  | (.ok reply, connection) => (c.result reply, { client with connection })

/-- Asks for a version and, when that succeeds, speaks it from then on. -/
def hello (client : Client) (version : Version) : Except ClientError Value × Client :=
  match client.run (.hello version) with
  | (.ok properties, client) =>
    (.ok properties,
      { connection := { client.connection with version }, protocol := version })
  | (.error e, client) => (.error e, client)

end Client

end StoreTrial
