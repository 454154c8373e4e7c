import StoreTrial.Config.Record
import StoreTrial.Config.Validate
import StoreTrial.Json.Read
import StoreTrial.Json.Write

/-!
# Settings as a document

Settings are read from a JSON document whose members override the defaults one by one, and are
written with all their members. A document is accepted when it is well formed and its settings have
no problem.
-/

namespace StoreTrial

open Resp (Version)
open Config (Field field readRecord)

/-! ## Words and numbers -/

/-- The word for a version of the protocol. -/
def Resp.Version.word : Version → String
  | .resp2 => "resp2"
  | .resp3 => "resp3"

/-- The version that a word stands for. -/
def Resp.Version.ofWord? (word : String) : Option Version :=
  [Version.resp2, Version.resp3].find? fun v => v.word == word

/-- The word for a task. -/
def LoadTask.word : LoadTask → String
  | .set => "set"
  | .get => "get"

/-- The task that a word stands for. -/
def LoadTask.ofWord? (word : String) : Option LoadTask :=
  [LoadTask.set, LoadTask.get].find? fun t => t.word == word

namespace Config

/-- Reads a number of 64 bits. -/
def readUInt64 (j : Json) : Option UInt64 := (j.natBelow? (2 ^ 64)).map (·.toUInt64)

/-- Reads a number of 16 bits. -/
def readUInt16 (j : Json) : Option UInt16 := (j.natBelow? (2 ^ 16)).map (·.toUInt16)

/-! ## Fields -/

/-- The settings of a server. -/
def endpointFields : List (Field Endpoint) := [
  field "name" Json.text? fun e v => { e with name := v },
  field "host" Json.text? fun e v => { e with host := v },
  field "port" readUInt16 fun e v => { e with port := v },
  field "protocol" (Json.word? Version.ofWord?) fun e v => { e with protocol := v },
  field "connect_timeout_ms" readUInt64 fun e v => { e with connectTimeoutMillis := v }]

/-- Reads a server. -/
def readEndpoint : Json → Option Endpoint := readRecord endpointFields {}

/-- The settings of the correctness harness. -/
def conformanceFields : List (Field ConformanceConfig) := [
  field "kv_dataset_size" readUInt64 fun c v => { c with kvSize := v },
  field "tx_dataset_size" readUInt64 fun c v => { c with txSize := v },
  field "str_len" readUInt64 fun c v => { c with textLength := v },
  field "expire_seconds" readUInt64 fun c v => { c with expireSeconds := v },
  field "expire_millis" readUInt64 fun c v => { c with expireMillis := v },
  field "pubsub_channel" Json.text? fun c v => { c with channel := v },
  field "pubsub_message_count" readUInt64 fun c v => { c with messageCount := v },
  field "pubsub_timeout_ms" readUInt64 fun c v => { c with pubsubTimeoutMillis := v },
  field "merge_dataset_size" readUInt64 fun c v => { c with mergeSize := v },
  field "merge_versions" readUInt64 fun c v => { c with mergeVersions := v },
  field "merge_delete_every" readUInt64 fun c v => { c with mergeDeleteEvery := v },
  field "cases" (Json.option? (Json.list? Json.text?)) fun c v => { c with cases := v }]

/-- The settings of the latency benchmark. -/
def benchFields : List (Field BenchConfig) := [
  field "iterations" readUInt64 fun c v => { c with iterations := v },
  field "min_size" readUInt64 fun c v => { c with minSize := v },
  field "max_size" readUInt64 fun c v => { c with maxSize := v },
  field "report_path" (Json.option? Json.text?) fun c v => { c with reportPath := v }]

/-- The settings of the load harness. -/
def loadFields : List (Field LoadConfig) := [
  field "users" readUInt64 fun c v => { c with users := v },
  field "spawn_rate" Json.float? fun c v => { c with spawnRate := v },
  field "duration_secs" readUInt64 fun c v => { c with durationSeconds := v },
  field "set_key" Json.text? fun c v => { c with setKey := v },
  field "get_key" Json.text? fun c v => { c with getKey := v },
  field "tasks" (Json.list? (Json.word? LoadTask.ofWord?)) fun c v => { c with tasks := v }]

/-- The settings of the whole bench. -/
def fields : List (Field Config) := [
  field "target" readEndpoint fun c v => { c with target := v },
  field "reference" (Json.option? readEndpoint) fun c v => { c with reference := v },
  field "conformance" (readRecord conformanceFields {}) fun c v => { c with conformance := v },
  field "bench" (readRecord benchFields {}) fun c v => { c with bench := v },
  field "load" (readRecord loadFields {}) fun c v => { c with load := v }]

/-- The settings that a document gives. -/
def ofJson? : Json → Option Config := readRecord fields {}

/-! ## Reading -/

/-- Why a text gives no settings. -/
inductive DocumentError where
  /-- The text is no document of settings. -/
  | malformed
  | refused (problem : ConfigProblem)
  deriving Repr, DecidableEq

/-- The text shown for a fault of a document. -/
def DocumentError.message : DocumentError → String
  | .malformed => "malformed JSON"
  | .refused problem => problem.message

/-- The settings if they have no problem. -/
def checked (c : Config) : Except DocumentError Config :=
  match c.validate with
  | .ok () => .ok c
  | .error problem => .error (.refused problem)

/-- Reads and checks the settings that a text gives. -/
def ofText (text : String) : Except DocumentError Config :=
  match (Json.read? text).bind ofJson? with
  | some c => c.checked
  | none => .error .malformed

/-- Why a file gives no settings. -/
inductive FileError where
  /-- The file cannot be read as a text. -/
  | unreadable (path : String)
  | invalid (path : String) (cause : DocumentError)
  deriving Repr, DecidableEq

/-- The texts shown for a fault of a file, the outermost first. -/
def FileError.messages : FileError → List String
  | .unreadable path => ["failed to read config file " ++ path]
  | .invalid path cause => ["invalid config file " ++ path, cause.message]

/-- Reads and checks the settings in a file, whose contents are missing if it cannot be read. -/
def ofFile (path : String) (contents : Option Bytes) : Except FileError Config :=
  match contents.bind Bytes.text? with
  | none => .error (.unreadable path)
  | some text =>
    match ofText text with
    | .ok c => .ok c
    | .error cause => .error (.invalid path cause)

end Config

/-! ## Writing -/

/-- A setting of 64 bits. -/
def settingJson (n : UInt64) : Json := .nat n.toNat

/-- A server as a document. -/
def Endpoint.toJson (e : Endpoint) : Json := .record [
  ("name", .text e.name),
  ("host", .text e.host),
  ("port", .nat e.port.toNat),
  ("protocol", .text e.protocol.word),
  ("connect_timeout_ms", settingJson e.connectTimeoutMillis)]

/-- The settings of the correctness harness as a document. -/
def ConformanceConfig.toJson (c : ConformanceConfig) : Json := .record [
  ("kv_dataset_size", settingJson c.kvSize),
  ("tx_dataset_size", settingJson c.txSize),
  ("str_len", settingJson c.textLength),
  ("expire_seconds", settingJson c.expireSeconds),
  ("expire_millis", settingJson c.expireMillis),
  ("pubsub_channel", .text c.channel),
  ("pubsub_message_count", settingJson c.messageCount),
  ("pubsub_timeout_ms", settingJson c.pubsubTimeoutMillis),
  ("merge_dataset_size", settingJson c.mergeSize),
  ("merge_versions", settingJson c.mergeVersions),
  ("merge_delete_every", settingJson c.mergeDeleteEvery),
  ("cases", .option (.list .text) c.cases)]

/-- The settings of the latency benchmark as a document. -/
def BenchConfig.toJson (c : BenchConfig) : Json := .record [
  ("iterations", settingJson c.iterations),
  ("min_size", settingJson c.minSize),
  ("max_size", settingJson c.maxSize),
  ("report_path", .option .text c.reportPath)]

/-- The settings of the load harness as a document. -/
def LoadConfig.toJson (c : LoadConfig) : Json := .record [
  ("users", settingJson c.users),
  ("spawn_rate", .float c.spawnRate),
  ("duration_secs", settingJson c.durationSeconds),
  ("set_key", .text c.setKey),
  ("get_key", .text c.getKey),
  ("tasks", .list (fun t => .text t.word) c.tasks)]

/-- All settings as a document. -/
def Config.toJson (c : Config) : Json := .record [
  ("target", c.target.toJson),
  ("reference", .option Endpoint.toJson c.reference),
  ("conformance", c.conformance.toJson),
  ("bench", c.bench.toJson),
  ("load", c.load.toJson)]

end StoreTrial
