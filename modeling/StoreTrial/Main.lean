import Std.Async.Signal
import StoreTrial.CommandLine
import StoreTrial.Latency.Measure
import StoreTrial.Load.User
import StoreTrial.Network
import StoreTrial.Trial.Suite

/-!
# The program

Runs the harness that the command line names against a real server. Chance, files, the clock and
signals are dealt with here; everything that is decided is decided elsewhere.
-/

namespace StoreTrial

open Network (Sessions hold now waitUntil)

/-! ## Chance -/

/-- A random text of letters and digits. -/
def randomText (length : Nat) : IO String := do
  let letters := alphabet.toArray
  let draw (_ : Nat) : IO Char := return letters.getD (← IO.rand 0 (alphabetSize - 1)) 'A'
  return String.ofList (← (List.range length).mapM draw)

/-- The random texts of a case, from so many draws or more. -/
partial def randomDraw (size length draws : Nat) : IO Draw := do
  let texts ← (List.range draws).mapM fun _ => randomText length
  match Draw.ofTexts size texts (← randomText rivalLength) with
  | some draw => return draw
  | none => randomDraw size length (2 * draws)

/-- The random texts of every case that is listed. -/
def randomDraws (config : ConformanceConfig) (cases : List Case) : IO (Case → Draw) := do
  let drawn ← cases.mapM fun c => do
    let size := c.size config
    return (c, ← randomDraw size config.textLength.toNat (3 * size + 1))
  let nothing : Draw := { data := .ofPairs [], fresh := fun _ => "", watched := "", rival := "" }
  return fun c => (drawn.lookup c).getD nothing

/-! ## Harnesses -/

/-- Nothing ends the run from outside. -/
def never : IO Bool := return false

/-- Runs the correctness harness. -/
def runConformance (config : Config) : IO Ending := do
  let cases := config.conformance.selected.toOption.getD []
  match config.conformance.run config.target (← randomDraws config.conformance cases) with
  | .error _ => return .failed
  | .ok suite => return .ofSuite (← hold never suite)

/-- Writes the report of a benchmark where the settings want it. -/
def writeReport (r : BenchReport) : Option String → IO Bool
  | none => return true
  | some path => do
    try
      IO.FS.writeFile path (Json.indentedText r.toJson)
      return true
    catch _ => return false

/-- Runs the benchmark. -/
def runBench (config : Config) : IO Ending := do
  let sizes := payloadSizes config.bench.minSize config.bench.maxSize
  let payloads ← sizes.mapM fun size => return (size, ← randomText size)
  let draw (size : Nat) : String := (payloads.lookup size).getD ""
  match ← hold never (config.bench.run config.target config.reference draw).run with
  | .error _ => return .failed
  | .ok report => return .ofBench report (← writeReport report config.bench.reportPath)

/-- Makes one request after another until the session is lost or the run is over. -/
partial def keepAsking (config : LoadConfig) (sessions : Sessions) (session : Nat)
    (record : RequestEvent → IO Unit) : IO Unit := do
  if ← sessions.isOver then return
  let bound := 2 ^ 64 - 1
  match config.choice? (← IO.rand 0 bound) (← IO.rand 0 bound) with
  | none => return
  | some choice =>
    let attempt ← (config.act session choice).perform sessions.answer
    record attempt.event
    unless attempt.lost do keepAsking config sessions session record

/-- All that one user does; a request that is still waiting when the run is over does not count. -/
def runUser (config : LoadConfig) (e : Endpoint) (isOver : IO Bool)
    (record : RequestEvent → IO Unit) : IO Unit := do
  let sessions ← Sessions.new isOver
  match ← (LoadConfig.arrive e).perform sessions.answer with
  | .error event => record event
  | .ok session =>
    try
      keepAsking config sessions session record
    catch _ => return

/-- Starts users one by one, at their rate, until there are enough or the run is over. -/
def startUsers (config : LoadConfig) (start : IO (Task (Except IO.Error Unit))) (isOver : IO Bool) :
    (users : Nat) → IO (List (Task (Except IO.Error Unit)))
  | 0 => return []
  | users + 1 => do
    if ← isOver then return []
    let user ← start
    unless users = 0 do waitUntil ((← now) + config.spawnInterval) isOver
    return user :: (← startUsers config start isOver users)

/-- Runs the load harness until its time is over or an interrupt comes. -/
def runLoad (config : Config) : IO Ending := do
  let interrupted ← IO.mkRef false
  let interrupt ← (← Std.Async.Signal.Waiter.mk .sigint false).wait
  let _ ← IO.mapTask (fun _ => interrupted.set true) interrupt
  let ending := (← now) + config.load.duration
  let isOver : IO Bool := return (← interrupted.get) || ending.nanos ≤ (← now).nanos
  let events ← IO.mkRef []
  let record (event : RequestEvent) : IO Unit := events.modify (event :: ·)
  let start := IO.asTask (runUser config.load config.target isOver record) .dedicated
  let users ← startUsers config.load start isOver config.load.users.toNat
  waitUntil ending isOver
  for user in users do
    IO.ofExcept (← IO.wait user)
  return .ofLoad (.collect (← events.get).reverse)

/-! ## The command line -/

/-- Runs a harness. -/
def runMode (config : Config) : Mode → IO Ending
  | .conformance => runConformance config
  | .bench => runBench config
  | .load => runLoad config

/-- The contents of a file, unless it cannot be read. -/
def contentsOf (path : String) : IO (Option Bytes) := do
  try
    return some (← IO.FS.readBinFile path).data.toList
  catch _ => return none

/-- Runs what the words of the command line ask for. -/
def runWords (words : List String) : IO Ending := do
  match Invocation.ofWords? words (← IO.getEnv configVariable) with
  | none => return .usage
  | some invocation =>
    let contents ← match invocation.configPath with
      | some path => contentsOf path
      | none => pure none
    match invocation.config contents with
    | .error _ => return .failed
    | .ok config => runMode config invocation.mode

end StoreTrial

/-- Prints how the run ended and exits with its code. -/
def main (words : List String) : IO UInt32 := do
  let ending ← StoreTrial.runWords words
  (← IO.getStdout).putStr ending.output
  (← IO.getStderr).putStr ending.errors
  return ending.code.toUInt32
