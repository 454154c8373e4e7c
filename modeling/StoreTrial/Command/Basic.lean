import StoreTrial.Decimal.Numeral
import StoreTrial.Resp.Value

/-!
# Commands

A command is a name and a list of arguments, all of them payloads. Inside a transaction block any
command may be queued; on the wire a queued command is the command itself.
-/

namespace StoreTrial

open Resp (Value Version)

/-! ## Options of a write -/

/-- How long a written value lives. -/
inductive Expiration where
  | seconds (n : UInt64)
  | millis (n : UInt64)
  /-- As long as the value it replaces. -/
  | keep
  deriving Repr, DecidableEq

/-- When a write is applied. -/
inductive Condition where
  /-- Only if the key is absent. -/
  | ifAbsent
  /-- Only if the key exists. -/
  | ifPresent
  deriving Repr, DecidableEq

/-- The optional arguments of a write. -/
structure SetOptions where
  expiration : Option Expiration := none
  condition : Option Condition := none
  /-- Whether the value held before is asked for. -/
  previous : Bool := false
  deriving Repr, DecidableEq

/-- The numeral of a 64-bit number as a payload. -/
def numeral (n : UInt64) : Bytes := Bytes.ofText (Decimal.ofNat n.toNat)

/-- The arguments of an expiration. -/
def Expiration.args : Expiration → List Bytes
  | .seconds n => [Bytes.ofText "EX", numeral n]
  | .millis n => [Bytes.ofText "PX", numeral n]
  | .keep => [Bytes.ofText "KEEPTTL"]

/-- The argument of a condition. -/
def Condition.arg : Condition → Bytes
  | .ifAbsent => Bytes.ofText "NX"
  | .ifPresent => Bytes.ofText "XX"

/-- The arguments of options: expiration, condition, and the wish for the value held before. -/
def SetOptions.args (o : SetOptions) : List Bytes :=
  (match o.expiration with | some e => e.args | none => [])
    ++ (match o.condition with | some c => [c.arg] | none => [])
    ++ (if o.previous then [Bytes.ofText "GET"] else [])

/-! ## Commands -/

/-- One request to a server. -/
inductive Command where
  /-- Asks for a version of the protocol. -/
  | hello (version : Version)
  | ping
  /-- Asks the server to compact its logs. -/
  | merge
  /-- Any parts, sent as they are. -/
  | raw (parts : List Bytes)
  | set (key value : Bytes) (options : SetOptions)
  | get (key : Bytes)
  | del (keys : List Bytes)
  /-- Counts the keys that exist. -/
  | present (keys : List Bytes)
  | multi
  | exec
  | discard
  | watch (keys : List Bytes)
  | publish (channel message : Bytes)
  | subscribe (channels : List Bytes)
  | unsubscribe (channels : List Bytes)
  /-- A command inside a transaction block. -/
  | queued (inner : Command)
  deriving Repr

namespace Command

/-- The name of a command, as shown in messages. -/
def name : Command → String
  | .hello _ => "HELLO"
  | .ping => "PING"
  | .merge => "MERGE"
  | .raw _ => "RAW"
  | .set _ _ _ => "SET"
  | .get _ => "GET"
  | .del _ => "DEL"
  | .present _ => "EXISTS"
  | .multi => "MULTI"
  | .exec => "EXEC"
  | .discard => "DISCARD"
  | .watch _ => "WATCH"
  | .publish _ _ => "PUBLISH"
  | .subscribe _ => "SUBSCRIBE"
  | .unsubscribe _ => "UNSUBSCRIBE"
  | .queued inner => inner.name

/-- The arguments behind the name. -/
def args : Command → List Bytes
  | .hello version => [Bytes.ofText (Decimal.ofNat version.number)]
  | .raw parts => parts.drop 1
  | .set key value options => key :: value :: options.args
  | .get key => [key]
  | .del keys | .present keys | .watch keys => keys
  | .publish channel message => [channel, message]
  | .subscribe channels | .unsubscribe channels => channels
  | .ping | .merge | .multi | .exec | .discard => []
  | .queued inner => inner.args

/-- The parts of the request: name and arguments, or the parts that were given. -/
def parts : Command → List Bytes
  | .raw parts => parts
  | .queued inner => inner.parts
  | c => Bytes.ofText c.name :: c.args

/-- The request of a command. -/
def toFrame (c : Command) : Value := .request c.parts

end Command

end StoreTrial
