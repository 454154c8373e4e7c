import StoreTrial.Config.Document
import StoreTrial.Latency.Series
import StoreTrial.Load.Summary
import StoreTrial.Trial.Report

/-!
# The command line

The first word names a harness, the second the file of settings; without a second word an
environment variable names the file, and without either the settings are the defaults. A run prints
one report, and its exit code tells whether the server kept its contract.
-/

namespace StoreTrial

/-- The variable that names the file of settings. -/
def configVariable : String := "KVCONTRACT_CONFIG"

/-- A harness. -/
inductive Mode where
  | conformance
  | bench
  | load
  deriving Repr, DecidableEq

/-- The harness that a word names. -/
def Mode.ofWord? : String → Option Mode
  | "conformance" => some .conformance
  | "bench" => some .bench
  | "load" => some .load
  | _ => none

/-- What is asked for. -/
structure Invocation where
  mode : Mode
  /-- The file of settings, if one is named. -/
  configPath : Option String
  deriving Repr, DecidableEq

/-- Reads the words of the command line; `fallback` is the value of the environment variable. -/
def Invocation.ofWords? (words : List String) (fallback : Option String) : Option Invocation :=
  match words with
  | [] => none
  | word :: rest =>
    (Mode.ofWord? word).map fun mode => { mode, configPath := rest.head?.or fallback }

/-- The settings of a run; `contents` are those of the file that is named. -/
def Invocation.config (i : Invocation) (contents : Option Bytes) : Except Config.FileError Config :=
  match i.configPath with
  | none => .ok {}
  | some path => Config.ofFile path contents

/-! ## Endings -/

/-- How a run ends. -/
structure Ending where
  output : String := ""
  errors : String := ""
  code : UInt8
  deriving Repr, DecidableEq

namespace Ending

/-- The exit code of a run that did what it should. -/
def success : UInt8 := 0

/-- The exit code of a run that failed, or found a failure. -/
def failure : UInt8 := 1

/-- The exit code of a run that was asked for nothing that is known. -/
def misuse : UInt8 := 2

/-- The ending when no harness is named. -/
def usage : Ending :=
  { errors := "usage: kvcontract <conformance|bench|load> [config.json]\n", code := misuse }

/-- The ending when no harness can run. -/
def failed : Ending := { code := failure }

/-- The ending of the correctness harness. -/
def ofSuite (r : SuiteReport) : Ending :=
  { output := r.text ++ "\n", code := if r.passed then success else failure }

/-- The ending of the benchmark; `written` tells whether its report is where it was wanted. -/
def ofBench (r : BenchReport) (written : Bool) : Ending :=
  { output := r.table, code := if written then success else failure }

/-- The ending of the load harness. -/
def ofLoad (s : LoadSummary) : Ending := { output := s.text ++ "\n", code := success }

end Ending

end StoreTrial
