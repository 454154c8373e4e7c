import StoreTrial.Command.Describe
import StoreTrial.Text.Preview

/-!
# Failures of cases

A case fails at the first answer that is not the one its contract prescribes. The failure names the
key and shows what was expected and what was answered.
-/

namespace StoreTrial

/-- The moments after which a key must be gone. -/
inductive Aftermath where
  | expiry
  | conditionalWrite
  | deletion
  | rollback
  | compaction
  deriving Repr, DecidableEq

/-- The text shown for a moment. -/
def Aftermath.text : Aftermath → String
  | .expiry => "after expiry"
  | .conditionalWrite => "after SET XX"
  | .deletion => "after DEL"
  | .rollback => "after rolled back block"
  | .compaction => "after MERGE"

/-- What a case found wrong. -/
inductive CaseFailure where
  /-- No session could be opened. -/
  | unreachable (address : String) (cause : ClientError)
  /-- A request was not answered in its form. -/
  | session (cause : ClientError)
  /-- A key holds another value. -/
  | value (key : String) (expected actual : Option Bytes)
  /-- A write was not applied. -/
  | write (key : String) (reply : SetReply)
  /-- A write of a value with a life was not applied. -/
  | expiringWrite (key : String) (life : Option Expiration) (reply : SetReply)
  /-- A write on the condition of absence replaced a value. -/
  | replaced (key : String) (reply : SetReply)
  /-- A write on the condition of absence did not create a key. -/
  | notCreated (key : String) (reply : SetReply)
  /-- A write on the condition of presence did not replace a value. -/
  | notReplaced (key : String) (reply : SetReply)
  /-- A write on the condition of presence created a key. -/
  | created (key : String) (reply : SetReply)
  /-- A write did not return the value held before. -/
  | noPrevious (key : String) (reply : SetReply)
  /-- A key that exists was not deleted once. -/
  | deletion (key : String) (count : Int64)
  /-- A key that is gone was deleted. -/
  | secondDeletion (key : String) (count : Int64)
  | present (moment : Aftermath) (key : String)
  /-- A write was not queued in a block. -/
  | queue (key : String) (reply : QueueReply)
  /-- A block was answered with another number of replies than it has commands. -/
  | replyCount (replies commands : Nat)
  /-- A block of writes was not applied. -/
  | notCommitted (outcome : ExecOutcome)
  /-- A block was applied although a watched key had changed. -/
  | committed (outcome : ExecOutcome)
  /-- A published message reached nobody. -/
  | unheard (message : String) (receivers : Int64)
  /-- Not all messages came in time. -/
  | undelivered (limit : Duration)
  /-- The listener stopped before all messages had come. -/
  | listenerStopped (delivered expected : Nat)
  | foreignChannel (channel : Bytes)
  | foreignMessage (payload : Bytes)
  | deliveredTwice (payload : Bytes)
  /-- A withdrawal was not confirmed in time. -/
  | withdrawal (limit : Duration)
  /-- Channels remain after the last one was left. -/
  | remaining (channel : String) (count : Int64)
  deriving Repr

namespace CaseFailure

/-- The printable form of a key. -/
def keyText (key : String) : String := preview (Bytes.ofText key)

/-- A sentence about a key and the reply that was not expected. -/
def about (start key verdict reply : String) : String :=
  start ++ " " ++ keyText key ++ verdict ++ reply

/-- A number of things where another was expected. -/
def count (start name expected : String) (actual : Int64) : String :=
  start ++ " " ++ name ++ ": expected " ++ expected ++ ", got " ++ Decimal.ofInt64 actual

/-- The text shown for a failure. -/
def message : CaseFailure → String
  | unreachable address cause => "cannot connect to " ++ address ++ ": " ++ cause.message
  | session cause => "client error: " ++ cause.message
  | value key expected actual =>
    about "GET" key ": expected " (previewOption expected) ++ ", got " ++ previewOption actual
  | write key reply => about "SET" key ": expected OK, got " reply.detail
  | expiringWrite key life reply =>
    about "SET" key (" " ++ optionDetail Expiration.detail life ++ ": expected OK, got ")
      reply.detail
  | replaced key reply => about "SET NX on existing key" key " was applied: " reply.detail
  | notCreated key reply => about "SET NX on new key" key " was refused: " reply.detail
  | notReplaced key reply => about "SET XX on existing key" key " was refused: " reply.detail
  | created key reply => about "SET XX on new key" key " was applied: " reply.detail
  | noPrevious key reply =>
    about "SET GET" key ": expected the previous value, got " reply.detail
  | deletion key n => count "DEL" (keyText key) "1" n
  | secondDeletion key n => count "second DEL" (keyText key) "0" n
  | present moment key => about (moment.text ++ ": key") key " still exists" ""
  | queue key reply => about "SET" key " in MULTI: expected QUEUED, got " reply.detail
  | replyCount replies commands =>
    "EXEC returned " ++ Decimal.ofNat replies ++ " replies for " ++ Decimal.ofNat commands
      ++ " commands"
  | notCommitted outcome => "EXEC of valid SETs was not committed: " ++ outcome.summary
  | committed outcome => "EXEC committed although the watched key changed: " ++ outcome.summary
  | unheard text n => count "PUBLISH" (keyText text) "at least one receiver" n
  | undelivered limit => "messages not delivered within " ++ limit.text
  | listenerStopped delivered expected =>
    "listener stopped after " ++ Decimal.ofNat delivered ++ " of " ++ Decimal.ofNat expected
      ++ " messages"
  | foreignChannel channel => "message on unexpected channel " ++ preview channel
  | foreignMessage payload => "unknown message " ++ preview payload
  | deliveredTwice payload => "message " ++ preview payload ++ " delivered twice"
  | withdrawal limit => "UNSUBSCRIBE not confirmed within " ++ limit.text
  | remaining channel n => count "UNSUBSCRIBE" channel "0 remaining channels" n

end CaseFailure

end StoreTrial
