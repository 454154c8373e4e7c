import StoreTrial.Dataset
import StoreTrial.Dialogue
import StoreTrial.Latency.Series

/-!
# Measuring latencies

Each operation is called a number of times with each payload, which serves as key and as value. The
first call that fails, or that reads something else than was written, ends the measurement.

## Main results

* `Measure.isNaN_mean_zero` — without a call there is no mean.
-/

namespace StoreTrial

/-! ## Failures -/

/-- Why a call ended the measurement. -/
inductive MeasureError where
  /-- Something else than the payload was read: so many bytes, or nothing. -/
  | mismatch (size : Nat) (returned : Option Nat)
  | session (cause : ClientError)
  deriving Repr

/-- The text of an error, and then that of what lies beneath it. -/
def ClientError.messages (e : ClientError) : List String := e.message :: e.cause?.toList

/-- What was read, by size. -/
def returnedText : Option Nat → String
  | some n => Decimal.ofNat n ++ " bytes"
  | none => "nothing"

/-- The texts shown for a failed call, the outermost first. -/
def MeasureError.messages : MeasureError → List String
  | .mismatch size returned =>
    ["GET of a " ++ Decimal.ofNat size ++ " byte payload returned " ++ returnedText returned]
  | .session cause => cause.messages

/-- Why a benchmark has no result. -/
inductive BenchError where
  | noSizes (least greatest : UInt64)
  | unreachable (e : Endpoint) (cause : ClientError)
  /-- A server does not answer at all. -/
  | silent (endpoint : String) (cause : ClientError)
  | failed (endpoint : String) (cause : MeasureError)
  deriving Repr

/-- The texts shown for a failed benchmark, the outermost first. -/
def BenchError.messages : BenchError → List String
  | .noSizes least greatest =>
    ["no payload sizes between " ++ Decimal.ofNat least.toNat ++ " and "
      ++ Decimal.ofNat greatest.toNat]
  | .unreachable e cause =>
    ("failed to connect to " ++ e.name ++ " at " ++ e.address) :: cause.messages
  | .silent endpoint cause => (endpoint ++ " did not answer PING") :: cause.messages
  | .failed endpoint cause => ("benchmark against " ++ endpoint ++ " failed") :: cause.messages

/-! ## Calls -/

namespace Measure

/-- A dialogue that may end the measurement. -/
abbrev Run := ExceptT MeasureError Dialogue

/-- Runs one command of a session. -/
def inSession (c : Command) (session : Nat) : Run c.Output := (c.ask session).adapt .session

/-- Calls an operation once. What was read must be the payload. -/
def call (session : Nat) (text : String) (o : Operation) : Run Unit := do
  let payload := Bytes.ofText text
  match o with
  | .set =>
    let _ ← inSession (.set payload payload {}) session
  | .del =>
    let _ ← inSession (.del [payload]) session
  | .get =>
    let value : Option Bytes ← inSession (.get payload) session
    unless value == some payload do
      throw (.mismatch payload.length (value.map (·.length)))

/-- Calls an operation so many times and adds up the time that the calls take. -/
def repeated (session : Nat) (text : String) (o : Operation) : (calls : Nat) → Run Duration
  | 0 => return .zero
  | calls + 1 => do
    let started ← liftM (Dialogue.request .clock)
    call session text o
    let ended ← liftM (Dialogue.request .clock)
    return ended - started + (← repeated session text o calls)

/-- The mean of a number of calls in milliseconds. -/
def mean (total : Duration) (calls : Nat) : Float := total.millis / Float.ofNat calls

/-- Without a call there is no mean. -/
theorem isNaN_mean_zero : (mean .zero 0).isNaN = true := by decide +kernel

/-- The mean latency of an operation on one payload, which is known by its size. -/
def point (session calls : Nat) (o : Operation) (payload : Nat × String) : Run LatencyPoint := do
  let total ← repeated session payload.2 o calls
  return { size := payload.1, meanMillis := mean total calls }

/-- The latencies of an operation on all payloads. -/
def series (session calls : Nat) (payloads : List (Nat × String)) (o : Operation) :
    Run OperationSeries := do
  return { operation := o, points := ← payloads.mapM (point session calls o) }

/-- The latencies of all operations on all payloads. -/
def endpoint (session calls : Nat) (name : String) (payloads : List (Nat × String)) :
    Run EndpointSeries := do
  return { endpoint := name, operations := ← Operation.all.mapM (series session calls payloads) }

end Measure

/-! ## Benchmarks -/

namespace BenchConfig

/-- Connects to a server, sees that it answers, and measures it. -/
def measure (config : BenchConfig) (payloads : List (Nat × String)) (e : Endpoint) :
    ExceptT BenchError Dialogue EndpointSeries := do
  let session ← e.connect.adapt (.unreachable e)
  let _ ← (Command.ping.ask session).adapt (.silent e.name)
  (Measure.endpoint session config.iterations.toNat e.name payloads).adapt (.failed e.name)

/-- The servers that a configuration compares: the one under test, and then the reference. -/
def endpoints (target : Endpoint) (reference : Option Endpoint) : List Endpoint :=
  target :: reference.toList

/-- Measures every server in turn; `draw` yields the payload of a size. -/
def run (config : BenchConfig) (target : Endpoint) (reference : Option Endpoint)
    (draw : Nat → String) : ExceptT BenchError Dialogue BenchReport := do
  let sizes := payloadSizes config.minSize config.maxSize
  if sizes.isEmpty then throw (.noSizes config.minSize config.maxSize)
  let payloads := sizes.map fun size => (size, draw size)
  let series ← (endpoints target reference).mapM (config.measure payloads)
  return { sizes, iterations := config.iterations.toNat, series }

end BenchConfig

end StoreTrial
