import StoreTrial.Json.Write
import StoreTrial.Text.Column

/-!
# Latency curves and their report

Against each server the benchmark measures a curve for every operation: the mean latency at each
payload size. The report compares the servers operation by operation, in tables whose rows are sizes
and whose columns are servers, known by name.
-/

namespace StoreTrial

/-- A measured operation. -/
inductive Operation where
  | set
  | get
  | del
  deriving Repr, DecidableEq

namespace Operation

/-- The operations in the order in which they are measured. -/
def all : List Operation := [set, get, del]

/-- The name of an operation in reports. -/
def name : Operation → String
  | set => "SET"
  | get => "GET"
  | del => "DEL"

/-- The operation of a name. -/
def ofName? (name : String) : Option Operation := all.find? (·.name == name)

end Operation

/-! ## Curves -/

/-- The mean latency at one payload size. -/
structure LatencyPoint where
  size : Nat
  meanMillis : Float
  deriving Repr, DecidableEq

/-- The latencies of one operation. -/
structure OperationSeries where
  operation : Operation
  points : List LatencyPoint
  deriving Repr, DecidableEq

/-- The latencies measured against one server. -/
structure EndpointSeries where
  /-- The name of the server. -/
  endpoint : String
  operations : List OperationSeries
  deriving Repr, DecidableEq

/-- The curve of an operation. -/
def EndpointSeries.series? (s : EndpointSeries) (o : Operation) : Option OperationSeries :=
  s.operations.find? (·.operation == o)

/-- The mean at a size. -/
def OperationSeries.mean? (s : OperationSeries) (size : Nat) : Option Float :=
  (s.points.find? (·.size == size)).map (·.meanMillis)

/-! ## Reports -/

/-- What a benchmark measured. -/
structure BenchReport where
  /-- The payload sizes in bytes. -/
  sizes : List Nat
  iterations : Nat
  /-- The curves of each server in the order in which they were measured. -/
  series : List EndpointSeries
  deriving Repr, DecidableEq

namespace BenchReport

/-- The mean of an operation at a size, for the first server of that name. -/
def mean? (r : BenchReport) (endpoint : String) (o : Operation) (size : Nat) : Option Float :=
  (r.series.find? (·.endpoint == endpoint)).bind fun s =>
    (s.series? o).bind (·.mean? size)

/-- The names of the servers. -/
def endpoints (r : BenchReport) : List String := r.series.map (·.endpoint)

/-- A cell that shows a mean, or a dash in its place. -/
def cell : Option Float → String
  | some mean => Decimal.fixed 3 mean
  | none => "-"

/-- A row: a first cell and one for each server. -/
def row (first : String) (cells : List String) : String :=
  Column.right 10 first ++ String.join (cells.map fun c => " " ++ Column.right 12 c) ++ "\n"

/-- The cells in the row of a size, each found by the name of its server. -/
def cells (r : BenchReport) (o : Operation) (size : Nat) : List String :=
  r.endpoints.map fun name => cell (r.mean? name o size)

/-- The row of a size. -/
def sizeRow (r : BenchReport) (o : Operation) (size : Nat) : String :=
  row (Decimal.ofNat size) (r.cells o size)

/-- The table of an operation. -/
def operationTable (r : BenchReport) (o : Operation) : String :=
  o.name ++ " mean latency (ms), " ++ Decimal.ofNat r.iterations ++ " iterations\n"
    ++ row "size" r.endpoints ++ String.join (r.sizes.map (r.sizeRow o)) ++ "\n"

/-- The tables of all operations. -/
def table (r : BenchReport) : String := String.join (Operation.all.map r.operationTable)

end BenchReport

/-- The text shown when a report cannot be written to a file. -/
def BenchReport.unwritten (path : String) : String := "failed to write report to " ++ path

/-! ## Documents -/

/-- A point as a document. -/
def LatencyPoint.toJson (p : LatencyPoint) : Json := .record [
  ("size", .nat p.size),
  ("mean_ms", .float p.meanMillis)]

/-- A curve as a document. -/
def OperationSeries.toJson (s : OperationSeries) : Json := .record [
  ("operation", .text s.operation.name),
  ("points", .list LatencyPoint.toJson s.points)]

/-- The curves of a server as a document. -/
def EndpointSeries.toJson (s : EndpointSeries) : Json := .record [
  ("endpoint", .text s.endpoint),
  ("operations", .list OperationSeries.toJson s.operations)]

/-- A report as a document. -/
def BenchReport.toJson (r : BenchReport) : Json := .record [
  ("sizes", .list .nat r.sizes),
  ("iterations", .nat r.iterations),
  ("series", .list EndpointSeries.toJson r.series)]

end StoreTrial
