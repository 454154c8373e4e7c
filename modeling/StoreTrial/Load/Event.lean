import StoreTrial.Duration
import StoreTrial.Json.Write

/-!
# Request events

Each request of a virtual user is an event: what was asked, of which key or address, how long the
answer took, and how long the answer was or why there was none.
-/

namespace StoreTrial

/-- What a virtual user asks for. -/
inductive RequestKind where
  | connect
  | set
  | get
  deriving Repr, DecidableEq

namespace RequestKind

/-- The kinds in the order of a summary. -/
def all : List RequestKind := [connect, set, get]

/-- Every kind is listed. -/
theorem mem_all (k : RequestKind) : k ∈ all := by cases k <;> decide

/-- The name of a kind in reports. -/
def name : RequestKind → String
  | connect => "CONNECT"
  | set => "SET"
  | get => "GET"

end RequestKind

/-- One request that was made, and how it went. -/
structure RequestEvent where
  kind : RequestKind
  /-- The key or address. -/
  name : String
  elapsed : Duration
  /-- The length of the answer, or the text of the failure. -/
  outcome : Except String Nat
  deriving Repr

namespace RequestEvent

/-- Whether the request failed. -/
def isFailure (e : RequestEvent) : Bool :=
  match e.outcome with
  | .ok _ => false
  | .error _ => true

/-- The length of the answer; a failure has none. -/
def length (e : RequestEvent) : Nat :=
  match e.outcome with
  | .ok n => n
  | .error _ => 0

/-- The text of the failure. -/
def error? (e : RequestEvent) : Option String :=
  match e.outcome with
  | .ok _ => none
  | .error message => some message

/-- The event as a document. -/
def toJson (e : RequestEvent) : Json := .record [
  ("kind", .text e.kind.name),
  ("name", .text e.name),
  ("response_time_ms", .float e.elapsed.millis),
  ("response_length", .nat e.length),
  ("error", .option .text e.error?)]

end RequestEvent

end StoreTrial
