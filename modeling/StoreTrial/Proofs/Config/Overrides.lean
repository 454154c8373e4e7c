import StoreTrial.Config.Document
import StoreTrial.Proofs.Config.Members
import StoreTrial.Proofs.Json.Grammar

/-!
# Documents of settings override the defaults

What comes of a document of settings is stated here setting by setting: a setting is the value of
the member with its name, or else the default, and each part that is given starts from defaults of
its own.  Neither the order of members nor members under unknown names matter, to the settings or to
the problem that is found in them.

## Main results

* `Endpoint.read_eq_override`, `ConformanceConfig.read_eq_override`, `BenchConfig.read_eq_override`,
  `LoadConfig.read_eq_override`, `Config.read_eq_override` — what an object of settings is read as.
* `Config.ofJson?_alike` — documents that are alike are read alike.
* `Config.ofText_overrides` — both, from the text to the settings or the problem found in them.
-/

namespace StoreTrial

open Json (Literal)

namespace Config

/-! ## Settings and their types -/

/-- The setting that members give under a name, or else the default. -/
def setting {α : Type} (members : List (Literal × Json)) (name : String) (read : Json → Option α)
    (default : α) : α := ((valueOf? members name).bind read).getD default

/-- Whether members give settings: their names are texts, known names occur once at most, and the
values under them have the types of the settings. -/
structure Fits (types : List (String × (Json → Bool))) (members : List (Literal × Json)) :
    Prop where
  texts : ∀ m ∈ members, m.1.text?.isSome
  once : ∀ t ∈ types, members.countP (named t.1) ≤ 1
  typed : ∀ t ∈ types, ∀ v ∈ valueOf? members t.1, t.2 v

instance (types : List (String × (Json → Bool))) (members : List (Literal × Json)) :
    Decidable (Fits types members) :=
  decidable_of_iff
    ((∀ m ∈ members, m.1.text?.isSome) ∧ (∀ t ∈ types, members.countP (named t.1) ≤ 1) ∧
      ∀ t ∈ types, ∀ v ∈ valueOf? members t.1, t.2 v)
    ⟨fun ⟨htexts, honce, htyped⟩ => ⟨htexts, honce, htyped⟩,
      fun h => ⟨h.texts, h.once, h.typed⟩⟩

/-- The values that a reader takes. -/
def taken {α : Type} (read : Json → Option α) (j : Json) : Bool := (read j).isSome

/-- The objects whose members give settings, and the arrays that are read as such a record. -/
def isRecord {α : Type} (types : List (String × (Json → Bool))) (read : Json → Option α) :
    Json → Bool
  | .object members => decide (Fits types members)
  | j => taken read j

/-- Null, or else a value of a type. -/
def isNullOr (type : Json → Bool) : Json → Bool
  | .null => true
  | j => type j

/-- A record in which the members of an object override settings; an array is only read. -/
def readOverride {α : Type} (override : List (Literal × Json) → α) (read : Json → Option α) :
    Json → Option α
  | .object members => some (override members)
  | j => read j

end Config

open Config (setting taken isRecord isNullOr readOverride readRecord readUInt16 readUInt64
  readEndpoint conformanceFields benchFields loadFields)

/-! ## Settings one by one -/

/-- The settings of a server and their types. -/
def Endpoint.types : List (String × (Json → Bool)) := [
  ("name", taken Json.text?),
  ("host", taken Json.text?),
  ("port", taken readUInt16),
  ("protocol", taken (Json.word? Resp.Version.ofWord?)),
  ("connect_timeout_ms", taken readUInt64)]

/-- The settings of a server, where members replace them. -/
def Endpoint.override (e : Endpoint) (members : List (Literal × Json)) : Endpoint where
  name := setting members "name" Json.text? e.name
  host := setting members "host" Json.text? e.host
  port := setting members "port" readUInt16 e.port
  protocol := setting members "protocol" (Json.word? Resp.Version.ofWord?) e.protocol
  connectTimeoutMillis := setting members "connect_timeout_ms" readUInt64 e.connectTimeoutMillis

/-- The settings of the correctness harness and their types. -/
def ConformanceConfig.types : List (String × (Json → Bool)) := [
  ("kv_dataset_size", taken readUInt64),
  ("tx_dataset_size", taken readUInt64),
  ("str_len", taken readUInt64),
  ("expire_seconds", taken readUInt64),
  ("expire_millis", taken readUInt64),
  ("pubsub_channel", taken Json.text?),
  ("pubsub_message_count", taken readUInt64),
  ("pubsub_timeout_ms", taken readUInt64),
  ("merge_dataset_size", taken readUInt64),
  ("merge_versions", taken readUInt64),
  ("merge_delete_every", taken readUInt64),
  ("cases", taken (Json.option? (Json.list? Json.text?)))]

/-- The settings of the correctness harness, where members replace them. -/
def ConformanceConfig.override (c : ConformanceConfig) (members : List (Literal × Json)) :
    ConformanceConfig where
  kvSize := setting members "kv_dataset_size" readUInt64 c.kvSize
  txSize := setting members "tx_dataset_size" readUInt64 c.txSize
  textLength := setting members "str_len" readUInt64 c.textLength
  expireSeconds := setting members "expire_seconds" readUInt64 c.expireSeconds
  expireMillis := setting members "expire_millis" readUInt64 c.expireMillis
  channel := setting members "pubsub_channel" Json.text? c.channel
  messageCount := setting members "pubsub_message_count" readUInt64 c.messageCount
  pubsubTimeoutMillis := setting members "pubsub_timeout_ms" readUInt64 c.pubsubTimeoutMillis
  mergeSize := setting members "merge_dataset_size" readUInt64 c.mergeSize
  mergeVersions := setting members "merge_versions" readUInt64 c.mergeVersions
  mergeDeleteEvery := setting members "merge_delete_every" readUInt64 c.mergeDeleteEvery
  cases := setting members "cases" (Json.option? (Json.list? Json.text?)) c.cases

/-- The settings of the latency benchmark and their types. -/
def BenchConfig.types : List (String × (Json → Bool)) := [
  ("iterations", taken readUInt64),
  ("min_size", taken readUInt64),
  ("max_size", taken readUInt64),
  ("report_path", taken (Json.option? Json.text?))]

/-- The settings of the latency benchmark, where members replace them. -/
def BenchConfig.override (c : BenchConfig) (members : List (Literal × Json)) : BenchConfig where
  iterations := setting members "iterations" readUInt64 c.iterations
  minSize := setting members "min_size" readUInt64 c.minSize
  maxSize := setting members "max_size" readUInt64 c.maxSize
  reportPath := setting members "report_path" (Json.option? Json.text?) c.reportPath

/-- The settings of the load harness and their types. -/
def LoadConfig.types : List (String × (Json → Bool)) := [
  ("users", taken readUInt64),
  ("spawn_rate", taken Json.float?),
  ("duration_secs", taken readUInt64),
  ("set_key", taken Json.text?),
  ("get_key", taken Json.text?),
  ("tasks", taken (Json.list? (Json.word? LoadTask.ofWord?)))]

/-- The settings of the load harness, where members replace them. -/
def LoadConfig.override (c : LoadConfig) (members : List (Literal × Json)) : LoadConfig where
  users := setting members "users" readUInt64 c.users
  spawnRate := setting members "spawn_rate" Json.float? c.spawnRate
  durationSeconds := setting members "duration_secs" readUInt64 c.durationSeconds
  setKey := setting members "set_key" Json.text? c.setKey
  getKey := setting members "get_key" Json.text? c.getKey
  tasks := setting members "tasks" (Json.list? (Json.word? LoadTask.ofWord?)) c.tasks

/-- The settings of the whole bench and their types. -/
def Config.types : List (String × (Json → Bool)) := [
  ("target", isRecord Endpoint.types readEndpoint),
  ("reference", isNullOr (isRecord Endpoint.types readEndpoint)),
  ("conformance", isRecord ConformanceConfig.types (readRecord conformanceFields {})),
  ("bench", isRecord BenchConfig.types (readRecord benchFields {})),
  ("load", isRecord LoadConfig.types (readRecord loadFields {}))]

/-- All settings, where members replace them; each part that is given starts from its own
defaults. -/
def Config.override (c : Config) (members : List (Literal × Json)) : Config where
  target := setting members "target"
    (readOverride ({} : Endpoint).override readEndpoint) c.target
  reference := setting members "reference"
    (Json.option? (readOverride ({} : Endpoint).override readEndpoint)) c.reference
  conformance := setting members "conformance"
    (readOverride ({} : ConformanceConfig).override (readRecord conformanceFields {})) c.conformance
  bench := setting members "bench"
    (readOverride ({} : BenchConfig).override (readRecord benchFields {})) c.bench
  load := setting members "load"
    (readOverride ({} : LoadConfig).override (readRecord loadFields {})) c.load

/-! ## Readings -/

namespace Config

/-- A value under a name is read alike. -/
theorem setting_congr {α : Type} {members : List (Literal × Json)} {name : String}
    {read read' : Json → Option α} (h : ∀ v ∈ valueOf? members name, read v = read' v)
    (default : α) : setting members name read default = setting members name read' default := by
  unfold setting
  cases hvalue : valueOf? members name with
  | none => rfl
  | some v => rw [Option.bind_some, Option.bind_some, h v hvalue]

/-- The field that comes first is assigned its setting. -/
theorem overrideAll_cons {σ α : Type} {name : String} {read : Json → Option α} {store : σ → α → σ}
    (get : σ → α) {members : List (Literal × Json)}
    (htyped : ∀ v ∈ valueOf? members name, taken read v = true)
    (hget : ∀ s, store s (get s) = s) (fields : List (Field σ)) (s : σ) :
    overrideAll members (field name read store :: fields) s =
      overrideAll members fields (store s (setting members name read (get s))) := by
  have hfield : (field name read store).override members s =
      some (store s (setting members name read (get s))) := by
    cases hvalue : valueOf? members name with
    | none =>
      rw [Field.override_of_eq_none hvalue, setting, hvalue, Option.bind_none, Option.getD_none,
        hget]
    | some v =>
      obtain ⟨a, ha⟩ := Option.isSome_iff_exists.1 (htyped v hvalue)
      rw [Field.override_of_eq_some hvalue, setting, hvalue, Option.bind_some, ha,
        Option.getD_some]
      exact congrArg (Option.map (store s)) ha
  rw [overrideAll, hfield, Option.bind_some]

/-- An object whose members fit is read by looking up every field. -/
theorem readRecord_object {σ : Type} {fields : List (Field σ)} (hfields : Independent fields)
    {types : List (String × (Json → Bool))} (hnames : types.map (·.1) = fields.map (·.name))
    {members : List (Literal × Json)} (h : Fits types members) (s : σ) :
    readRecord fields s (.object members) = overrideAll members fields s := by
  apply assignMembers_eq_overrideAll hfields h.texts
  · intro f hf
    have hname : f.name ∈ types.map (·.1) := hnames ▸ List.mem_map_of_mem hf
    obtain ⟨t, ht, heq⟩ := List.mem_map.1 hname
    exact heq ▸ h.once t ht
  · simp

/-- A record is read as it overrides, if its members do. -/
theorem read_of_isRecord {α : Type} {types : List (String × (Json → Bool))}
    {read : Json → Option α} {override : List (Literal × Json) → α}
    (hread : ∀ members, Fits types members → read (.object members) = some (override members))
    {j : Json} (h : isRecord types read j = true) :
    taken read j = true ∧ read j = readOverride override read j := by
  cases j with
  | object members =>
    have hmembers := hread members (of_decide_eq_true h)
    simp [taken, readOverride, hmembers]
  | _ => exact ⟨h, rfl⟩

/-- Null is read as nothing, and anything else as a value of the type. -/
theorem option?_of_isNullOr {α : Type} {type : Json → Bool} {read read' : Json → Option α}
    (hread : ∀ j, type j = true → taken read j = true ∧ read j = read' j) {j : Json}
    (h : isNullOr type j = true) :
    taken (Json.option? read) j = true ∧ Json.option? read j = Json.option? read' j := by
  cases j with
  | null => exact ⟨rfl, rfl⟩
  | _ =>
    obtain ⟨htaken, hsame⟩ := hread _ h
    exact ⟨by simpa [taken, Json.option?] using htaken, congrArg (Option.map some) hsame⟩

end Config

open Config (Alike Independent Fits overrideAll overrideAll_cons readRecord_object readRecord_alike
  read_of_isRecord setting_congr option?_of_isNullOr assignMembers_cons_congr endpointFields fields)

namespace Endpoint

theorem independent_fields : Independent endpointFields where
  nodup := by decide
  commutes := by simp [endpointFields]

/-- A server is read as what its members override. -/
theorem read_eq_override {members : List (Literal × Json)} (h : Fits types members) :
    readEndpoint (.object members) = some (({} : Endpoint).override members) := by
  have htyped := h.typed
  simp only [types, List.forall_mem_cons] at htyped
  obtain ⟨hname, hhost, hport, hprotocol, htimeout, -⟩ := htyped
  rw [readEndpoint, readRecord_object independent_fields (by decide) h, endpointFields,
    overrideAll_cons Endpoint.name hname, overrideAll_cons Endpoint.host hhost,
    overrideAll_cons Endpoint.port hport, overrideAll_cons Endpoint.protocol hprotocol,
    overrideAll_cons Endpoint.connectTimeoutMillis htimeout]
  · rfl
  all_goals exact fun _ => rfl

end Endpoint

namespace ConformanceConfig

theorem independent_fields : Independent conformanceFields where
  nodup := by decide
  commutes := by simp [conformanceFields]

theorem read_eq_override {members : List (Literal × Json)} (h : Fits types members) :
    readRecord conformanceFields {} (.object members) =
      some (({} : ConformanceConfig).override members) := by
  have htyped := h.typed
  simp only [types, List.forall_mem_cons] at htyped
  obtain ⟨hkv, htx, htext, hseconds, hmillis, hchannel, hcount, htimeout, hmerge, hversions, hevery,
    hcases, -⟩ := htyped
  rw [readRecord_object independent_fields (by decide) h, conformanceFields,
    overrideAll_cons ConformanceConfig.kvSize hkv, overrideAll_cons ConformanceConfig.txSize htx,
    overrideAll_cons ConformanceConfig.textLength htext,
    overrideAll_cons ConformanceConfig.expireSeconds hseconds,
    overrideAll_cons ConformanceConfig.expireMillis hmillis,
    overrideAll_cons ConformanceConfig.channel hchannel,
    overrideAll_cons ConformanceConfig.messageCount hcount,
    overrideAll_cons ConformanceConfig.pubsubTimeoutMillis htimeout,
    overrideAll_cons ConformanceConfig.mergeSize hmerge,
    overrideAll_cons ConformanceConfig.mergeVersions hversions,
    overrideAll_cons ConformanceConfig.mergeDeleteEvery hevery,
    overrideAll_cons ConformanceConfig.cases hcases]
  · rfl
  all_goals exact fun _ => rfl

end ConformanceConfig

namespace BenchConfig

theorem independent_fields : Independent benchFields where
  nodup := by decide
  commutes := by simp [benchFields]

theorem read_eq_override {members : List (Literal × Json)} (h : Fits types members) :
    readRecord benchFields {} (.object members) =
      some (({} : BenchConfig).override members) := by
  have htyped := h.typed
  simp only [types, List.forall_mem_cons] at htyped
  obtain ⟨hiterations, hmin, hmax, hpath, -⟩ := htyped
  rw [readRecord_object independent_fields (by decide) h, benchFields,
    overrideAll_cons BenchConfig.iterations hiterations, overrideAll_cons BenchConfig.minSize hmin,
    overrideAll_cons BenchConfig.maxSize hmax, overrideAll_cons BenchConfig.reportPath hpath]
  · rfl
  all_goals exact fun _ => rfl

end BenchConfig

namespace LoadConfig

theorem independent_fields : Independent loadFields where
  nodup := by decide
  commutes := by simp [loadFields]

theorem read_eq_override {members : List (Literal × Json)} (h : Fits types members) :
    readRecord loadFields {} (.object members) = some (({} : LoadConfig).override members) := by
  have htyped := h.typed
  simp only [types, List.forall_mem_cons] at htyped
  obtain ⟨husers, hrate, hduration, hset, hget, htasks, -⟩ := htyped
  rw [readRecord_object independent_fields (by decide) h, loadFields,
    overrideAll_cons LoadConfig.users husers, overrideAll_cons LoadConfig.spawnRate hrate,
    overrideAll_cons LoadConfig.durationSeconds hduration, overrideAll_cons LoadConfig.setKey hset,
    overrideAll_cons LoadConfig.getKey hget, overrideAll_cons LoadConfig.tasks htasks]
  · rfl
  all_goals exact fun _ => rfl

end LoadConfig

namespace Config

theorem independent_fields : Independent fields where
  nodup := by decide
  commutes := by simp [fields]

/-- All settings are read as what the members override. -/
theorem read_eq_override {members : List (Literal × Json)} (h : Fits types members) :
    ofJson? (.object members) = some (({} : Config).override members) := by
  have htyped := h.typed
  simp only [types, List.forall_mem_cons] at htyped
  obtain ⟨htarget, hreference, hconformance, hbench, hload, -⟩ := htyped
  have htarget v hv := read_of_isRecord (fun _ => Endpoint.read_eq_override) (htarget v hv)
  have hreference v hv := option?_of_isNullOr
    (fun _ => read_of_isRecord fun _ => Endpoint.read_eq_override) (hreference v hv)
  have hconformance v hv :=
    read_of_isRecord (fun _ => ConformanceConfig.read_eq_override) (hconformance v hv)
  have hbench v hv := read_of_isRecord (fun _ => BenchConfig.read_eq_override) (hbench v hv)
  have hload v hv := read_of_isRecord (fun _ => LoadConfig.read_eq_override) (hload v hv)
  rw [ofJson?, readRecord_object independent_fields (by decide) h, fields,
    overrideAll_cons Config.target fun v hv => (htarget v hv).1,
    overrideAll_cons Config.reference fun v hv => (hreference v hv).1,
    overrideAll_cons Config.conformance fun v hv => (hconformance v hv).1,
    overrideAll_cons Config.bench fun v hv => (hbench v hv).1,
    overrideAll_cons Config.load fun v hv => (hload v hv).1]
  · rw [setting_congr fun v hv => (htarget v hv).2, setting_congr fun v hv => (hreference v hv).2,
      setting_congr fun v hv => (hconformance v hv).2, setting_congr fun v hv => (hbench v hv).2,
      setting_congr fun v hv => (hload v hv).2]
    rfl
  all_goals exact fun _ => rfl

/-! ## Documents that are alike -/

/-- The parts of the settings that are records themselves, and the names in them. -/
def records : List (String × List String) := [
  ("target", Endpoint.types.map (·.1)),
  ("reference", Endpoint.types.map (·.1)),
  ("conformance", ConformanceConfig.types.map (·.1)),
  ("bench", BenchConfig.types.map (·.1)),
  ("load", LoadConfig.types.map (·.1))]

/-- Members of a document of settings that differ in their order and in those under unknown names,
here or within a part that is a record itself. -/
inductive AlikeThroughout : List (Literal × Json) → List (Literal × Json) → Prop where
  | here {members members' : List (Literal × Json)}
      (h : Alike (types.map (·.1)) members members') : AlikeThroughout members members'
  | within {l : Literal} {name : String} {known : List String}
      {inner inner' : List (Literal × Json)} (hname : l.text? = some name)
      (hrecord : (name, known) ∈ records) (h : Alike known inner inner')
      (members : List (Literal × Json)) :
      AlikeThroughout ((l, .object inner) :: members) ((l, .object inner') :: members)
  | trans {members members' members'' : List (Literal × Json)}
      (h : AlikeThroughout members members') (h' : AlikeThroughout members' members'') :
      AlikeThroughout members members''

theorem assign_field_congr {σ α : Type} {name : String} {read : Json → Option α}
    {store : σ → α → σ} {j j' : Json} (h : read j = read j') :
    (field name read store).assign j = (field name read store).assign j' := by
  funext s
  exact congrArg (Option.map (store s)) h

/-- Documents that are alike are read alike. -/
theorem ofJson?_alike {members members' : List (Literal × Json)}
    (h : AlikeThroughout members members') :
    ofJson? (.object members) = ofJson? (.object members') := by
  induction h with
  | here h => exact readRecord_alike independent_fields h {}
  | @within l name known inner inner' hname hrecord h members =>
    have hendpoint (hknown : known = Endpoint.types.map (·.1)) :
        readEndpoint (.object inner) = readEndpoint (.object inner') := by
      subst hknown
      exact readRecord_alike Endpoint.independent_fields h {}
    have hobject (hassign : ∃ f, fields.find? (·.name == name) = some f ∧
        f.assign (.object inner) = f.assign (.object inner')) :
        ofJson? (.object ((l, .object inner) :: members)) =
          ofJson? (.object ((l, .object inner') :: members)) := by
      obtain ⟨f, hfind, hassign⟩ := hassign
      exact congrFun (assignMembers_cons_congr hname hfind hassign members []) {}
    apply hobject
    simp only [records, List.mem_cons, Prod.mk.injEq, List.not_mem_nil, or_false] at hrecord
    rcases hrecord with ⟨rfl, rfl⟩ | ⟨rfl, rfl⟩ | ⟨rfl, rfl⟩ | ⟨rfl, rfl⟩ | ⟨rfl, rfl⟩
    · exact ⟨_, rfl, assign_field_congr (hendpoint rfl)⟩
    · exact ⟨_, rfl, assign_field_congr (congrArg (Option.map some) (hendpoint rfl))⟩
    · exact ⟨_, rfl, assign_field_congr
        (readRecord_alike ConformanceConfig.independent_fields h {})⟩
    · exact ⟨_, rfl, assign_field_congr (readRecord_alike BenchConfig.independent_fields h {})⟩
    · exact ⟨_, rfl, assign_field_congr (readRecord_alike LoadConfig.independent_fields h {})⟩
  | trans _ _ ih ih' => exact ih.trans ih'

/-! ## From the text to the settings -/

/-- What comes of the text of a document. -/
theorem ofText_of_document {text : String} {j : Json} (h : Json.Document text j) :
    ofText text = match ofJson? j with
      | some c => c.checked
      | none => .error .malformed := by
  have hread : (Json.read? text).bind ofJson? = ofJson? j := by rw [h.read?_eq, Option.bind_some]
  cases hj : ofJson? j with
  | none => simp only [ofText, hread, hj]
  | some c => simp only [ofText, hread, hj]

/-- A note between two parts of the settings. -/
def noted : List (Literal × Json) := [
  (.ofText "target", .object [(.ofText "port", .number ⟨false, ['7', '0'], none, none⟩)]),
  (.ofText "note", .array [.null]),
  (.ofText "bench", .object [(.ofText "report_path", .text "r")])]

/-- The two parts in the other order, with an unknown name in one of them. -/
def unnoted : List (Literal × Json) := [
  (.ofText "bench", .object [(.ofText "x", .object []), (.ofText "report_path", .text "r")]),
  (.ofText "target", .object [(.ofText "port", .number ⟨false, ['7', '0'], none, none⟩)])]

theorem alike_noted : AlikeThroughout noted unnoted := by
  have hnote : (Literal.ofText "note").text? = some "note" := by decide +kernel
  have hbench : (Literal.ofText "bench").text? = some "bench" := by decide +kernel
  have hunknown : (Literal.ofText "x").text? = some "x" := by decide +kernel
  have hrecord : ("bench", BenchConfig.types.map (·.1)) ∈ records := by simp [records]
  -- the note goes to the front and out, the parts change places, and the unknown name goes in
  apply AlikeThroughout.trans (.here (.perm (List.Perm.swap _ _ _)))
  apply AlikeThroughout.trans (.here (.symm (.insert hnote (by decide) _)))
  apply AlikeThroughout.trans (.here (.perm (List.Perm.swap _ _ _)))
  exact .within hbench hrecord (.insert hunknown (by decide) _) _

end Config

end StoreTrial
