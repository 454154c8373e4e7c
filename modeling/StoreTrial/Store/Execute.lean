import StoreTrial.Decimal.Numeral
import StoreTrial.Duration
import StoreTrial.Store.Basic

/-!
# Commands of a store

How the store answers the commands on keys. A request is a list of payloads, a name and arguments;
names and options are told apart in any case of letters.
-/

namespace StoreTrial

open Resp (Value)

namespace Store

/-- The letters of a name or option, in upper case. -/
def word (part : Bytes) : String := String.ofList ((Bytes.lossyText part).toList.map Char.toUpper)

/-- The answer to a request that succeeds without a result. -/
def ok : Value := .simple "OK"

/-- The answer to a request with too few or too many arguments. -/
def wrongCount (name : String) : Value :=
  .error ("ERR wrong number of arguments for '" ++ name ++ "' command")

/-- The answer to a request that is not known. -/
def unknown (name : String) : Value := .error ("ERR unknown command '" ++ name ++ "'")

/-- The value of an entry, or null. -/
def held : Option Entry → Value
  | some e => .bulk e.value
  | none => .null

/-! ## Writes -/

/-- What the options of a write ask for. -/
structure WriteOptions where
  /-- When the new entry expires, if a life is given. -/
  expiresAt : Option Nat := none
  keepsLife : Bool := false
  ifAbsent : Bool := false
  ifPresent : Bool := false
  previous : Bool := false
  deriving Repr, DecidableEq

/-- The number that a life is given by: positive and below 2^64. -/
def amount? (part : Bytes) : Option Nat :=
  (Bytes.text? part).bind fun text =>
    (Decimal.readUnsigned? text.toList).filter fun n => 0 < n && n < 2 ^ 64

/-- The nanoseconds in the unit that an option names. -/
def unit? : String → Option Nat
  | "EX" => some Duration.perSecond
  | "PX" => some Duration.perMilli
  | _ => none

/-- Adds an option that stands alone. -/
def WriteOptions.add? (o : WriteOptions) : String → Option WriteOptions
  | "NX" => some { o with ifAbsent := true }
  | "XX" => some { o with ifPresent := true }
  | "GET" => some { o with previous := true }
  | "KEEPTTL" => some { o with keepsLife := true }
  | _ => none

/-- The answer to options that contradict each other or are not known. -/
def badSyntax : String := "ERR syntax error"

/-- The answer to a life that is no positive number. -/
def badLife : String := "ERR invalid expire time in 'set' command"

/-- Reads the options of a write; the text of an error is the answer. -/
def readOptions (now : Nat) (o : WriteOptions) : List Bytes → Except String WriteOptions
  | [] => if o.ifAbsent && o.ifPresent then .error badSyntax else .ok o
  | part :: parts =>
    match o.add? (word part), unit? (word part) with
    | some o, _ => readOptions now o parts
    | none, none => .error badSyntax
    | none, some unit =>
      match parts with
      | [] => .error badLife
      | amount :: parts =>
        match amount? amount with
        | some n => readOptions now { o with expiresAt := some (now + n * unit) } parts
        | none => .error badLife

/-- The moment at which the new entry expires. -/
def WriteOptions.expiry (o : WriteOptions) (previous : Option Entry) : Option Nat :=
  o.expiresAt.or (if o.keepsLife then previous.bind (·.expiresAt) else none)

/-- Writes a value as the options ask; `plain` tells that there are none. -/
def write (d : Divergence) (now : Nat) (o : WriteOptions) (plain : Bool) (key value : Bytes)
    (s : Store) : Value × Store :=
  let previous := s.live? now key
  if (o.ifAbsent && previous.isSome && !d.replacesPresent) || (o.ifPresent && previous.isNone) then
    (if o.previous then held previous else .null, s)
  else
    let reply := if o.previous then held previous
      else if d.deniesWrites && plain then .null
      else ok
    (reply, s.put key { value, expiresAt := o.expiry previous })

/-- Answers a write. -/
def set (d : Divergence) (now : Nat) (s : Store) : List Bytes → Value × Store
  | key :: value :: options =>
    match readOptions now {} options with
    | .ok o => write d now o options.isEmpty key value s
    | .error message => (.error message, s)
  | _ => (wrongCount "SET", s)

/-! ## Other commands -/

/-- The store without the keys, and how many of them there were; a block stops at the first key
that does not exist. -/
def delete (now : Nat) (inBlock : Bool) : List Bytes → (removed : Nat) → Store → Value × Store
  | [], removed, s => (.integer (Int64.ofNat removed), s)
  | key :: keys, removed, s =>
    if (s.live? now key).isSome then delete now inBlock keys (removed + 1) (s.remove key)
    else if inBlock then (.error "ERR no such key", s)
    else delete now inBlock keys removed s

/-- How many of the keys exist, counted with repetition. -/
def count (now : Nat) (keys : List Bytes) (s : Store) : Value :=
  .integer (Int64.ofNat (keys.countP fun key => (s.live? now key).isSome))

/-- Compacts the log. -/
def merge (d : Divergence) (now : Nat) (s : Store) : Value × Store :=
  (ok, if d.restoresDeleted then s.restore else s.compact now)

/-- Answers one request on keys. -/
def execute (d : Divergence) (now : Nat) (inBlock : Bool) (s : Store) :
    List Bytes → Value × Store
  | [] => (unknown "", s)
  | head :: args =>
    match word head, args with
    | "SET", _ => set d now s args
    | "GET", [key] => (held (s.live? now key), s)
    | "DEL", _ :: _ => delete now inBlock args 0 s
    | "EXISTS", _ :: _ => (count now args s, s)
    | "MERGE", _ => merge d now s
    | "GET", _ | "DEL", _ | "EXISTS", _ => (wrongCount (word head), s)
    | name, _ => (unknown name, s)

end Store

end StoreTrial
