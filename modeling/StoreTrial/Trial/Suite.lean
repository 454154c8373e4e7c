import StoreTrial.Trial.Blocks
import StoreTrial.Trial.Compaction
import StoreTrial.Trial.Delivery
import StoreTrial.Trial.Report
import StoreTrial.Trial.Writes

/-!
# The suite

The suite runs the selected cases one after another against a server. Each case opens sessions of
its own, and a case that fails does not keep the others from running.

## Main results

* `ConformanceConfig.cases_runAll` — there is one outcome for each case, in the same order.
-/

namespace StoreTrial

/-! ## Cases -/

/-- Opens the session of a script and performs it. -/
def performAlone (e : Endpoint) (steps : Unit → List Step) : Trial Unit := do
  let session ← e.enter
  Step.performAll (fun _ => session) (steps ())

/-- Opens the sessions of a script with a rival and performs it. -/
def performBeside (e : Endpoint) (steps : Unit → List Step) : Trial Unit := do
  let checker ← e.enter
  let rival ← e.enter
  Step.performAll (fun | .checker => checker | .rival => rival) (steps ())

/-- The messages of the case about published messages. -/
def ConformanceConfig.broadcast (config : ConformanceConfig) (d : Dataset) : Delivery.Broadcast :=
  { channel := config.channel, messages := d.keys, limit := config.pubsubTimeout }

/-- What a case does. -/
def Case.trial (e : Endpoint) (config : ConformanceConfig) (draw : Draw) : Case → Trial Unit
  | setGet => performAlone e fun () => Script.setGet draw.data
  | setEx => performAlone e fun () => Script.setEx config draw.data
  | setPx => performAlone e fun () => Script.setPx config draw.data
  | setNx => performAlone e fun () => Script.setNx draw.fresh draw.data
  | setXx => performAlone e fun () => Script.setXx draw.data
  | setGetOption => performAlone e fun () => Script.setGetOption draw.data
  | del => performAlone e fun () => Script.del draw.data
  | txAtomic => performAlone e fun () => Script.txAtomic draw.data
  | txCommit => performAlone e fun () => Script.txCommit draw.data
  | txDiscard => performAlone e fun () => Script.txDiscard draw.data
  | txInvalidCommand => performAlone e fun () => Script.txInvalidCommand draw.data
  | txWatch => performBeside e fun () => Script.txWatch draw.watched draw.rival draw.data
  | pubSub => Delivery.pubSub e (config.broadcast draw.data)
  | merge =>
    performAlone e fun () =>
      Script.merge config.mergeVersions.toNat config.mergeDeleteEvery.toNat draw.data

/-! ## Outcomes -/

/-- The text of a failure, if a result is one. -/
def failureText : Except CaseFailure Unit → Option String
  | .ok () => none
  | .error failure => some failure.message

namespace ConformanceConfig

/-- Runs one case and takes the time. -/
def runCase (config : ConformanceConfig) (e : Endpoint) (draws : Case → Draw) (c : Case) :
    Dialogue Outcome := do
  let started ← Dialogue.request .clock
  let result ← (c.trial e config (draws c)).run
  let ended ← Dialogue.request .clock
  return { case := c, elapsedMillis := (ended - started).millis, failure := failureText result }

/-- Runs cases one after another. -/
def runAll (config : ConformanceConfig) (e : Endpoint) (draws : Case → Draw) :
    List Case → Dialogue (List Outcome)
  | [] => return []
  | c :: cases => return (← config.runCase e draws c) :: (← config.runAll e draws cases)

/-- Runs the selected cases, or names a case that does not exist. -/
def run (config : ConformanceConfig) (e : Endpoint) (draws : Case → Draw) :
    Except Case.UnknownCase (Dialogue SuiteReport) :=
  config.selected.map fun cases => do
    return { target := e.name, outcomes := ← config.runAll e draws cases }

/-- There is one outcome for each case, in the same order. -/
theorem cases_runAll {σ : Type} (answer : (r : Request) → σ → r.Answer × σ)
    (config : ConformanceConfig) (e : Endpoint) (draws : Case → Draw) (cases : List Case) (s : σ) :
    ((config.runAll e draws cases).run answer s).1.map (·.case) = cases := by
  induction cases generalizing s with
  | nil => rfl
  | cons c cases ih => simp [runAll, runCase, ih]

end ConformanceConfig

end StoreTrial
