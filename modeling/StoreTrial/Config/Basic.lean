import StoreTrial.Decimal.Numeral
import StoreTrial.Duration
import StoreTrial.Resp.Value

/-!
# Settings

One document of settings drives every harness. Every setting has a default, and the defaults
together are the stock suite against a server on this machine.
-/

namespace StoreTrial

open Resp (Version)

/-! ## Servers -/

/-- A server to connect to. -/
structure Endpoint where
  /-- The name under which reports show the server. -/
  name : String := "target"
  host : String := "127.0.0.1"
  port : UInt16 := 7698
  protocol : Version := .resp3
  connectTimeoutMillis : UInt64 := 5000
  deriving Repr, DecidableEq

namespace Endpoint

/-- A local server of the stock kind, to compare with. -/
def stockReference : Endpoint := { name := "redis", port := 6379, protocol := .resp2 }

/-- Host and port. -/
def address (e : Endpoint) : String := e.host ++ ":" ++ Decimal.ofNat e.port.toNat

/-- How long dialing may take. -/
def connectTimeout (e : Endpoint) : Duration := .ofMillis e.connectTimeoutMillis.toNat

end Endpoint

/-! ## Harnesses -/

/-- Settings of the correctness harness. -/
structure ConformanceConfig where
  /-- Pairs used by the key and value cases. -/
  kvSize : UInt64 := 128
  /-- Pairs used by the transaction cases. -/
  txSize : UInt64 := 16
  /-- The length of every random key and value. -/
  textLength : UInt64 := 1024
  /-- The life of a value in the case about seconds. -/
  expireSeconds : UInt64 := 3
  /-- The life of a value in the case about milliseconds. -/
  expireMillis : UInt64 := 1500
  channel : String := "test_channel"
  messageCount : UInt64 := 16
  pubsubTimeoutMillis : UInt64 := 10000
  mergeSize : UInt64 := 16
  /-- Versions written under each key before the logs are compacted. -/
  mergeVersions : UInt64 := 5
  /-- Keys whose index is a multiple of this are deleted. -/
  mergeDeleteEvery : UInt64 := 5
  /-- The names of the cases to run, or all of them. -/
  cases : Option (List String) := none
  deriving Repr, DecidableEq

/-- How long published messages and a withdrawal may take to arrive. -/
def ConformanceConfig.pubsubTimeout (c : ConformanceConfig) : Duration :=
  .ofMillis c.pubsubTimeoutMillis.toNat

/-- Settings of the latency benchmark. -/
structure BenchConfig where
  /-- Calls for each operation and size. -/
  iterations : UInt64 := 100
  minSize : UInt64 := 128
  maxSize : UInt64 := 8096
  /-- Where the report is written, if anywhere. -/
  reportPath : Option String := none
  deriving Repr, DecidableEq

/-- What a virtual user may do. -/
inductive LoadTask where
  | set
  | get
  deriving Repr, DecidableEq

/-- Settings of the load harness. -/
structure LoadConfig where
  /-- How many virtual users there are. -/
  users : UInt64 := 100
  /-- Users started in a second. -/
  spawnRate : Float := 1.0
  durationSeconds : UInt64 := 300
  setKey : String := "string_set_operation"
  getKey : String := "string_get_operation"
  tasks : List LoadTask := [.set, .get]
  deriving Repr, DecidableEq

namespace LoadConfig

/-- How long the load lasts. -/
def duration (c : LoadConfig) : Duration := .ofSeconds c.durationSeconds.toNat

/-- The time between two starts of users; the longest span when it cannot be told. -/
def spawnInterval (c : LoadConfig) : Duration :=
  (Duration.ofSeconds? (1.0 / c.spawnRate)).getD .max

end LoadConfig

/-- All settings. -/
structure Config where
  /-- The server under test. -/
  target : Endpoint := {}
  /-- A server to compare latencies with. -/
  reference : Option Endpoint := none
  conformance : ConformanceConfig := {}
  bench : BenchConfig := {}
  load : LoadConfig := {}
  deriving Repr, DecidableEq

end StoreTrial
