import StoreTrial.Load.Event
import StoreTrial.Text.Column

/-!
# Summaries of load

A summary counts the successes and failures of each kind of request. A kind is listed as soon as it
has an event.

## Main results

* `LoadSummary.counts_record` — an event adds one to the counts of its kind.
-/

namespace StoreTrial

/-- How many requests succeeded and how many failed. -/
structure RequestCounts where
  successes : Nat := 0
  failures : Nat := 0
  deriving Repr, DecidableEq

namespace RequestCounts

/-- How many requests there were. -/
def total (c : RequestCounts) : Nat := c.successes + c.failures

/-- One more request. -/
def add (c : RequestCounts) (failed : Bool) : RequestCounts :=
  if failed then { c with failures := c.failures + 1 }
  else { c with successes := c.successes + 1 }

/-- The counts as a document. -/
def toJson (c : RequestCounts) : Json := .record [
  ("successes", .nat c.successes),
  ("failures", .nat c.failures)]

end RequestCounts

/-- The counts of each kind of request. -/
structure LoadSummary where
  connect : RequestCounts := {}
  set : RequestCounts := {}
  get : RequestCounts := {}
  deriving Repr, DecidableEq

namespace LoadSummary

/-- The counts of a kind. -/
def counts (s : LoadSummary) : RequestKind → RequestCounts
  | .connect => s.connect
  | .set => s.set
  | .get => s.get

/-- Counts one event. -/
def record (s : LoadSummary) (e : RequestEvent) : LoadSummary :=
  match e.kind with
  | .connect => { s with connect := s.connect.add e.isFailure }
  | .set => { s with set := s.set.add e.isFailure }
  | .get => { s with get := s.get.add e.isFailure }

/-- An event adds one to the counts of its kind. -/
theorem counts_record (s : LoadSummary) (e : RequestEvent) (k : RequestKind) :
    (s.record e).counts k =
      if k = e.kind then (s.counts k).add e.isFailure else s.counts k := by
  cases he : e.kind <;> cases k <;> simp [record, counts, he]

/-- The summary of a sequence of events. -/
def collect (events : List RequestEvent) : LoadSummary := events.foldl record {}

/-- The kinds that have an event, with their counts. -/
def entries (s : LoadSummary) : List (RequestKind × RequestCounts) :=
  (RequestKind.all.map fun k => (k, s.counts k)).filter fun entry => 0 < entry.2.total

/-- The successes of all kinds. -/
def successes (s : LoadSummary) : Nat :=
  s.connect.successes + s.set.successes + s.get.successes

/-- The failures of all kinds. -/
def failures (s : LoadSummary) : Nat := s.connect.failures + s.set.failures + s.get.failures

/-! ## Written form -/

/-- One row of a summary. -/
def row (name successes failures : String) : String :=
  Column.left 8 name ++ " " ++ Column.right 10 successes ++ " " ++ Column.right 10 failures

/-- One row of counts. -/
def countsRow (name : String) (successes failures : Nat) : String :=
  row name (Decimal.ofNat successes) (Decimal.ofNat failures)

/-- The summary as a table. -/
def text (s : LoadSummary) : String :=
  "\n".intercalate (row "type" "ok" "failed"
    :: s.entries.map (fun (k, c) => countsRow k.name c.successes c.failures)
    ++ [countsRow "total" s.successes s.failures])

/-- The summary as a document. -/
def toJson (s : LoadSummary) : Json := .record [
  ("requests", .record (s.entries.map fun (k, c) => (k.name, c.toJson)))]

end LoadSummary

end StoreTrial
