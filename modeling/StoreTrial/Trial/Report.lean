import StoreTrial.Json.Write
import StoreTrial.Text.Column
import StoreTrial.Trial.Case

/-!
# Reports of cases

A report lists the cases in the order in which they ran, each with the time it took and the text of
its failure, if it failed.
-/

namespace StoreTrial

/-- How one case went. -/
structure Outcome where
  case : Case
  elapsedMillis : Float
  /-- The text of the failure. -/
  failure : Option String := none
  deriving Repr, DecidableEq

namespace Outcome

/-- Whether the case passed. -/
def passed (o : Outcome) : Bool := o.failure.isNone

/-- The line for a case, and one more for its failure. -/
def text (o : Outcome) : String :=
  "  " ++ Column.left 20 o.case.name ++ " " ++ Column.right 6 (if o.passed then "ok" else "FAILED")
    ++ " " ++ Column.right 10 (Decimal.fixed 1 o.elapsedMillis) ++ " ms\n"
    ++ match o.failure with
      | some failure => "      " ++ failure ++ "\n"
      | none => ""

/-- The outcome as a document. -/
def toJson (o : Outcome) : Json := .record [
  ("case", .text o.case.name),
  ("elapsed_ms", .float o.elapsedMillis),
  ("failure", .option (fun failure => .record [("message", .text failure)]) o.failure)]

end Outcome

/-- How the cases went against one server. -/
structure SuiteReport where
  /-- The name of the server. -/
  target : String
  outcomes : List Outcome
  deriving Repr, DecidableEq

namespace SuiteReport

/-- Whether every case passed. -/
def passed (r : SuiteReport) : Bool := r.outcomes.all (·.passed)

/-- The cases that failed. -/
def failed (r : SuiteReport) : List Outcome := r.outcomes.filter (!·.passed)

/-- How a case went the first time it ran. -/
def outcome? (r : SuiteReport) (c : Case) : Option Outcome := r.outcomes.find? (·.case == c)

/-- The report in words. -/
def text (r : SuiteReport) : String :=
  "conformance against " ++ r.target ++ "\n" ++ String.join (r.outcomes.map (·.text))
    ++ Decimal.ofNat (r.outcomes.length - r.failed.length) ++ " passed, "
    ++ Decimal.ofNat r.failed.length ++ " failed"

/-- The report as a document. -/
def toJson (r : SuiteReport) : Json := .record [
  ("target", .text r.target),
  ("outcomes", .list Outcome.toJson r.outcomes)]

end SuiteReport

end StoreTrial
