import StoreTrial.Duration
import StoreTrial.Resp.Describe
import StoreTrial.Resp.Error

/-!
# What goes wrong in a session

Every failure of a request, of a subscription or of dialing a server is one of these causes.
-/

namespace StoreTrial

open Resp (Value)

/-- Why talking to a server failed. -/
inductive ClientError where
  /-- The transport failed, in the words of the system. -/
  | io (cause : String)
  /-- The server sent bytes that are no frame. -/
  | protocol (cause : Resp.Error)
  /-- The server answered with an error. -/
  | server (message : String)
  /-- The answer has not the shape that the command prescribes. -/
  | unexpectedReply (command : String) (reply : Value)
  /-- The server closed the connection. -/
  | closed
  /-- Nothing happened in this time. -/
  | timeout (limit : Duration)
  deriving Repr

/-- The text shown for an error. -/
def ClientError.message : ClientError → String
  | .io cause => "IO error: " ++ cause
  | .protocol cause => "protocol error: " ++ cause.message
  | .server message => "server error: " ++ message
  | .unexpectedReply command reply => "unexpected reply to " ++ command ++ ": " ++ reply.detail
  | .closed => "connection closed by peer"
  | .timeout limit => "timed out after " ++ limit.text

/-- The text of what lies beneath an error, if anything does. -/
def ClientError.cause? : ClientError → Option String
  | .io cause => some cause
  | .protocol cause => some cause.message
  | _ => none

end StoreTrial
