import StoreTrial.Command.Basic
import StoreTrial.Session.Error

/-!
# Decoded replies

Each command prescribes the shape of its answer. `Command.Output` is the type of what the answer
means, and `Command.decode` reads it or says that the shape is wrong. Error answers reach `decode`
only for the commands to which an error means something.
-/

namespace StoreTrial

open Resp (Value)

/-! ## What answers mean -/

/-- The answer to a write. -/
inductive SetReply where
  | stored
  /-- The condition did not hold. -/
  | notStored
  /-- The value held before, when it was asked for. -/
  | previous (value : Option Bytes)
  deriving Repr, DecidableEq

/-- Whether the write was applied; taken for granted when the value held before was asked for. -/
def SetReply.isStored : SetReply → Bool
  | .notStored => false
  | _ => true

/-- The answer to the end of a transaction block. -/
inductive ExecOutcome where
  /-- The block was applied, with one answer for each queued command. -/
  | committed (replies : List Value)
  /-- A watched key had changed, or the block was rolled back. -/
  | aborted
  /-- The block was refused. -/
  | failed (message : String)
  deriving Repr

/-- Whether the block was applied. -/
def ExecOutcome.isCommitted : ExecOutcome → Bool
  | .committed _ => true
  | _ => false

/-- The answer to a command inside a transaction block. -/
inductive QueueReply where
  | queued
  | rejected (message : String)
  deriving Repr, DecidableEq

/-- Confirms that a session has joined or left a channel. -/
structure Confirmation where
  channel : Bytes
  /-- The channels that the session now listens to. -/
  count : Int64
  deriving Repr, DecidableEq

/-- A message that reached a subscriber. -/
structure Message where
  channel : Bytes
  payload : Bytes
  deriving Repr, DecidableEq

/-! ## Frames of a subscription -/

/-- Reads `kind channel count` as a confirmation. -/
def Confirmation.ofKind? (kind : String) (v : Value) : Option Confirmation :=
  match v.items? with
  | some [k, channel, count] =>
    if k.reads kind then
      channel.text?.bind fun name => count.integer?.map fun n => ⟨name, n⟩
    else none
  | _ => none

/-- Reads the confirmation of a subscription. -/
def Confirmation.ofSubscribe? : Value → Option Confirmation := ofKind? "subscribe"

/-- Reads the confirmation of a withdrawal. -/
def Confirmation.ofUnsubscribe? : Value → Option Confirmation := ofKind? "unsubscribe"

/-- A message from the texts of its channel and payload. -/
def Message.ofParts? (channel payload : Value) : Option Message :=
  channel.text?.bind fun name => payload.text?.map fun text => ⟨name, text⟩

/-- Reads a message, sent to a channel or to a pattern that the channel matches. -/
def Message.ofFrame? (v : Value) : Option Message :=
  match v.items? with
  | some [kind, channel, payload] =>
    if kind.reads "message" then ofParts? channel payload else none
  | some [kind, _, channel, payload] =>
    if kind.reads "pmessage" then ofParts? channel payload else none
  | _ => none

/-! ## Answers by command -/

/-- What the answer to a command means. -/
abbrev Command.Output : Command → Type
  | .hello _ | .raw _ => Value
  | .ping | .merge | .multi | .discard | .watch _ => Unit
  | .set _ _ _ => SetReply
  | .get _ => Option Bytes
  | .del _ | .present _ | .publish _ _ => Int64
  | .exec => ExecOutcome
  | .subscribe _ | .unsubscribe _ => Confirmation
  | .queued _ => QueueReply

/-- A text that stands for success. -/
def expectText (expected command : String) (reply : Value) : Except ClientError Unit :=
  if reply.reads expected then .ok () else .error (.unexpectedReply command reply)

/-- A number, or a truth value in its place. -/
def expectInteger (command : String) (reply : Value) : Except ClientError Int64 :=
  match reply.integer? with
  | some n => .ok n
  | none => .error (.unexpectedReply command reply)

/-- A payload or null. -/
def expectPayload (command : String) (reply : Value) : Except ClientError (Option Bytes) :=
  match reply with
  | .null => .ok none
  | .bulk payload => .ok (some payload)
  | other => .error (.unexpectedReply command other)

/-- A confirmation. -/
def expectConfirmation (read : Value → Option Confirmation) (command : String) (reply : Value) :
    Except ClientError Confirmation :=
  match read reply with
  | some confirmation => .ok confirmation
  | none => .error (.unexpectedReply command reply)

/-- The answer to a write that does not ask for the value held before. -/
def expectStored (reply : Value) : Except ClientError SetReply :=
  if reply.isNull then .ok .notStored
  else if reply.reads "OK" then .ok .stored
  else .error (.unexpectedReply "SET" reply)

/-- Server properties, as a map or a flat array. -/
def expectProperties (reply : Value) : Except ClientError Value :=
  match reply with
  | .map _ | .array _ => .ok reply
  | other => .error (.unexpectedReply "HELLO" other)

/-- The end of a transaction block. -/
def expectOutcome (reply : Value) : Except ClientError ExecOutcome :=
  match reply with
  | .null => .ok .aborted
  | .error message => .ok (.failed message)
  | .array replies => .ok (.committed replies)
  | other => .error (.unexpectedReply "EXEC" other)

/-- A place in a transaction block. -/
def expectQueued (command : String) (reply : Value) : Except ClientError QueueReply :=
  match reply with
  | .error message => .ok (.rejected message)
  | other =>
    if other.reads "QUEUED" then .ok .queued else .error (.unexpectedReply command other)

namespace Command

/-- Reads the answer to a command. -/
def decode : (c : Command) → Value → Except ClientError c.Output
  | .hello _, v => expectProperties v
  | .raw _, v => .ok v
  | .ping, v => expectText "PONG" "PING" v
  | .merge, v => expectText "OK" "MERGE" v
  | .multi, v => expectText "OK" "MULTI" v
  | .discard, v => expectText "OK" "DISCARD" v
  | .watch _, v => expectText "OK" "WATCH" v
  | .set _ _ options, v =>
    if options.previous then (expectPayload "SET" v).map .previous else expectStored v
  | .get _, v => expectPayload "GET" v
  | .del _, v => expectInteger "DEL" v
  | .present _, v => expectInteger "EXISTS" v
  | .publish _ _, v => expectInteger "PUBLISH" v
  | .exec, v => expectOutcome v
  | .subscribe _, v => expectConfirmation Confirmation.ofSubscribe? "SUBSCRIBE" v
  | .unsubscribe _, v => expectConfirmation Confirmation.ofUnsubscribe? "UNSUBSCRIBE" v
  | .queued inner, v => expectQueued inner.name v

/-- Whether an error answer means something to the command. -/
def decodesErrors : Command → Bool
  | .exec | .queued _ => true
  | _ => false

/-- The result of a command whose answer has arrived. -/
def result (c : Command) (reply : Value) : Except ClientError c.Output :=
  match reply, c.decodesErrors with
  | .error message, false => .error (.server message)
  | _, _ => c.decode reply

end Command

end StoreTrial
