import StoreTrial.Command.Reply

/-!
# Replies in messages

How a failure shows a decoded reply that was not the expected one.
-/

namespace StoreTrial

open Resp.Value (tagged)

/-- Something that may be missing. -/
def optionDetail {α : Type} (detail : α → String) : Option α → String
  | some a => tagged "Some" (detail a)
  | none => "None"

/-- The life of a value in full. -/
def Expiration.detail : Expiration → String
  | .seconds n => tagged "Ex" (Decimal.ofNat n.toNat)
  | .millis n => tagged "Px" (Decimal.ofNat n.toNat)
  | .keep => "KeepTtl"

/-- The answer to a write in full. -/
def SetReply.detail : SetReply → String
  | .stored => "Stored"
  | .notStored => "NotStored"
  | .previous value => tagged "Previous" (optionDetail Quoted.bytes value)

/-- The answer to a command in a block in full. -/
def QueueReply.detail : QueueReply → String
  | .queued => "Queued"
  | .rejected message => tagged "Rejected" (Quoted.text message)

/-- The end of a block by size. -/
def ExecOutcome.summary : ExecOutcome → String
  | .committed replies => "committed " ++ Decimal.ofNat replies.length ++ " replies"
  | .aborted => "aborted (null)"
  | .failed message => "failed: " ++ message

end StoreTrial
