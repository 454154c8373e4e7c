import StoreTrial.Config.Basic
import StoreTrial.Dataset

/-!
# Settings that no harness can run with

`Config.validate` names the first of these problems that a configuration has.
-/

namespace StoreTrial

/-- Why a configuration is refused. -/
inductive ConfigProblem where
  | emptyHost (endpoint : String)
  | zeroConnectTimeout (endpoint : String)
  | emptyDataset
  | emptyTexts
  | noMessages
  | tooFewTexts (length count : UInt64)
  | zeroMerge
  | zeroIterations
  | zeroSize
  | crossedSizes (least greatest : UInt64)
  | noUsers
  | badSpawnRate
  | noTasks
  deriving Repr, DecidableEq

/-- The numeral of a setting. -/
def settingText (n : UInt64) : String := Decimal.ofNat n.toNat

/-- The text shown for a problem. -/
def ConfigProblem.message : ConfigProblem → String
  | .emptyHost endpoint => "endpoint " ++ endpoint ++ " has an empty host"
  | .zeroConnectTimeout endpoint => "endpoint " ++ endpoint ++ " has a zero connect timeout"
  | .emptyDataset => "conformance dataset sizes must be positive"
  | .emptyTexts => "conformance.str_len must be positive"
  | .noMessages => "conformance.pubsub_message_count must be positive"
  | .tooFewTexts length count =>
    "conformance.str_len " ++ settingText length ++ " is too short for " ++ settingText count
      ++ " unique strings"
  | .zeroMerge => "conformance.merge_versions and merge_delete_every must be positive"
  | .zeroIterations => "bench.iterations must be positive"
  | .zeroSize => "bench.min_size must be positive"
  | .crossedSizes least greatest =>
    "bench.min_size (" ++ settingText least ++ ") exceeds bench.max_size ("
      ++ settingText greatest ++ ")"
  | .noUsers => "load.users must be positive"
  | .badSpawnRate => "load.spawn_rate must be a positive, representable rate"
  | .noTasks => "load.tasks must enable at least one of set, get"

/-- Passes unless the condition holds. -/
def refuseIf (condition : Bool) (problem : ConfigProblem) : Except ConfigProblem Unit :=
  if condition then .error problem else .ok ()

/-- A server that can be dialed has a host and some time to answer. -/
def Endpoint.validate (e : Endpoint) : Except ConfigProblem Unit := do
  refuseIf e.host.isEmpty (.emptyHost e.name)
  refuseIf (e.connectTimeoutMillis == 0) (.zeroConnectTimeout e.name)

/-- The largest number of distinct texts that a case draws. -/
def ConformanceConfig.largest (c : ConformanceConfig) : UInt64 :=
  max (max (max c.kvSize c.txSize) c.mergeSize) c.messageCount

/-- The cases need data, and enough texts of the length to have distinct ones. -/
def ConformanceConfig.validate (c : ConformanceConfig) : Except ConfigProblem Unit := do
  refuseIf (c.kvSize == 0 || c.txSize == 0 || c.mergeSize == 0) .emptyDataset
  refuseIf (c.textLength == 0) .emptyTexts
  refuseIf (c.messageCount == 0) .noMessages
  refuseIf (!canHold c.largest c.textLength) (.tooFewTexts c.textLength c.largest)
  refuseIf (c.mergeVersions == 0 || c.mergeDeleteEvery == 0) .zeroMerge

/-- The benchmark needs calls and sizes. -/
def BenchConfig.validate (c : BenchConfig) : Except ConfigProblem Unit := do
  refuseIf (c.iterations == 0) .zeroIterations
  refuseIf (c.minSize == 0) .zeroSize
  refuseIf (c.maxSize < c.minSize) (.crossedSizes c.minSize c.maxSize)

/-- Whether users can be started at a rate: it is positive and so is the time between two. -/
def isUsableRate (rate : Float) : Bool := 0.0 < rate && (1.0 / rate).isFinite

/-- The load needs users, a rate to start them and something for them to do. -/
def LoadConfig.validate (c : LoadConfig) : Except ConfigProblem Unit := do
  refuseIf (c.users == 0) .noUsers
  refuseIf (!isUsableRate c.spawnRate) .badSpawnRate
  refuseIf c.tasks.isEmpty .noTasks

/-- Names the first problem of a configuration. -/
def Config.validate (c : Config) : Except ConfigProblem Unit := do
  c.target.validate
  match c.reference with
  | some reference => reference.validate
  | none => pure ()
  c.conformance.validate
  c.bench.validate
  c.load.validate

end StoreTrial
