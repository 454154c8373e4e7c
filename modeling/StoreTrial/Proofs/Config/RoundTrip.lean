import StoreTrial.Proofs.Config.Overrides
import StoreTrial.Proofs.Json.Written

/-!
# Settings come back from their own document

Settings are written with all their members, in the order of the fields.  Such an object is read as
the array of its values, so nothing is left of the defaults, and every setting comes back if its
value does.  Texts, words, whole numbers and what may be missing always do.  A rate is written with
its shortest digits but read in a quick way that may miss it by a little, so that its text is read
as the rate has to be assumed; it has such a text since no document gives a rate that is not finite.

## Main results

* `readRecord_record` — an object with all the members is read as the array of their values.
* `ofJson?_toJson` — settings are found again in their document, up to what the rate is read as.
* `isFinite_of_ofJson?` — the rate that a document gives is finite.
* `ofText_written` — settings that were accepted once are accepted again, and come back the same.
-/

namespace StoreTrial

namespace Config

open Json (proper_record proper_option proper_list text?_text word?_text option?_option list?_list)

/-! ## Objects with all the members -/

section Records

variable {σ : Type} {fields : List (Field σ)} {members : List (String × Json)}

/-- Members in the order of the fields are looked up one after another. -/
theorem overrideAll_inOrder (hnodup : (fields.map (·.name)).Nodup)
    (hnames : members.map (·.1) = fields.map (·.name)) (s : σ) :
    overrideAll (members.map fun (name, value) => (.ofText name, value)) fields s =
      assignItems fields (members.map (·.2)) s := by
  induction fields generalizing members s with
  | nil =>
    obtain rfl := List.map_eq_nil_iff.1 hnames
    rfl
  | cons f fields ih =>
    cases members with
    | nil => cases hnames
    | cons m members =>
      obtain ⟨name, value⟩ := m
      simp only [List.map_cons, List.cons.injEq] at hnames
      obtain ⟨rfl, hnames⟩ := hnames
      obtain ⟨hnew, hnodup⟩ := List.nodup_cons.1 hnodup
      have hnamed : named f.name (.ofText f.name, value) = true := by simp
      have hother (g : Field σ) (hg : g ∈ fields) :
          ¬named g.name (.ofText f.name, value) = true := by
        intro h
        have heq : f.name = g.name := by simpa using h
        exact hnew (List.mem_map.2 ⟨g, hg, heq.symm⟩)
      rw [List.map_cons, overrideAll, Field.override_cons_of_named hnamed,
        overrideAll_cons_of_not_named hother, funext (ih hnodup hnames)]
      rfl

/-- An object with all the members of a record in order is read as the array of their values. -/
theorem readRecord_record (hfields : Independent fields)
    (hnames : members.map (·.1) = fields.map (·.name)) (s : σ) :
    readRecord fields s (.record members) = assignItems fields (members.map (·.2)) s := by
  have honce (f : Field σ) (_ : f ∈ fields) :
      (members.map fun (name, value) => (Json.Literal.ofText name, value)).countP (named f.name)
        ≤ 1 := by
    have hcount := List.nodup_iff_count_le_one.1 (hnames ▸ hfields.nodup) f.name
    have hnamed : (members.map fun (name, value) => (Json.Literal.ofText name, value)).countP
        (named f.name) = (members.map (·.1)).count f.name := by
      rw [List.count, List.countP_map, List.countP_map]
      apply List.countP_congr
      simp
    rw [hnamed]
    exact hcount
  have htexts : ∀ m ∈ members.map fun (name, value) => (Json.Literal.ofText name, value),
      m.1.text?.isSome := by
    simp only [List.forall_mem_map, Json.Literal.text?_ofText, Option.isSome_some, implies_true]
  rw [← overrideAll_inOrder hfields.nodup hnames]
  exact assignMembers_eq_overrideAll hfields htexts honce (by simp) s

/-- A field takes an item that it can read. -/
theorem assignItems_field {α : Type} {name : String} {read : Json → Option α} {store : σ → α → σ}
    {j : Json} {a : α} (h : read j = some a) (items : List Json) (s : σ) :
    assignItems (field name read store :: fields) (j :: items) s =
      assignItems fields items (store s a) := by
  simp [assignItems, field, h]

end Records

/-! ## Words and numbers -/

theorem readUInt64_settingJson (n : UInt64) : readUInt64 (settingJson n) = some n := by
  rw [readUInt64, settingJson, Json.natBelow?_nat n.toNat_lt, Option.map_some]
  simp

theorem readUInt16_nat (n : UInt16) : readUInt16 (.nat n.toNat) = some n := by
  rw [readUInt16, Json.natBelow?_nat n.toNat_lt, Option.map_some]
  simp

theorem ofWord?_word_version (v : Resp.Version) : Resp.Version.ofWord? v.word = some v := by
  cases v <;> decide

theorem ofWord?_word_task (t : LoadTask) : LoadTask.ofWord? t.word = some t := by
  cases t <;> decide

/-- A task is found again in its word. -/
theorem word?_task (t : LoadTask) : (Json.text t.word).word? LoadTask.ofWord? = some t := by
  rw [word?_text, ofWord?_word_task]

/-! ## Settings -/

/-- A server is found again in its document. -/
theorem readEndpoint_toJson (e : Endpoint) : readEndpoint e.toJson = some e := by
  have hprotocol : (Json.text e.protocol.word).word? Resp.Version.ofWord? = some e.protocol := by
    rw [word?_text, ofWord?_word_version]
  rw [readEndpoint, Endpoint.toJson, readRecord_record Endpoint.independent_fields rfl]
  simp only [endpointFields, List.map_cons, List.map_nil]
  rw [assignItems_field (text?_text e.name), assignItems_field (text?_text e.host),
    assignItems_field (readUInt16_nat e.port), assignItems_field hprotocol,
    assignItems_field (readUInt64_settingJson e.connectTimeoutMillis)]
  rfl

/-- The settings of the correctness harness are found again. -/
theorem readRecord_conformance (c : ConformanceConfig) :
    readRecord conformanceFields {} c.toJson = some c := by
  have hnumber := readUInt64_settingJson
  rw [ConformanceConfig.toJson, readRecord_record ConformanceConfig.independent_fields rfl]
  simp only [conformanceFields, List.map_cons, List.map_nil]
  rw [assignItems_field (hnumber c.kvSize), assignItems_field (hnumber c.txSize),
    assignItems_field (hnumber c.textLength), assignItems_field (hnumber c.expireSeconds),
    assignItems_field (hnumber c.expireMillis), assignItems_field (text?_text c.channel),
    assignItems_field (hnumber c.messageCount), assignItems_field (hnumber c.pubsubTimeoutMillis),
    assignItems_field (hnumber c.mergeSize), assignItems_field (hnumber c.mergeVersions),
    assignItems_field (hnumber c.mergeDeleteEvery),
    assignItems_field (option?_option (list?_list text?_text) (fun _ h => by cases h) c.cases)]
  rfl

/-- The settings of the latency benchmark are found again. -/
theorem readRecord_bench (c : BenchConfig) : readRecord benchFields {} c.toJson = some c := by
  have hnumber := readUInt64_settingJson
  rw [BenchConfig.toJson, readRecord_record BenchConfig.independent_fields rfl]
  simp only [benchFields, List.map_cons, List.map_nil]
  rw [assignItems_field (hnumber c.iterations), assignItems_field (hnumber c.minSize),
    assignItems_field (hnumber c.maxSize),
    assignItems_field (option?_option text?_text (fun _ h => by cases h) c.reportPath)]
  rfl

/-- The settings of the load harness are found again, with the rate that its text is read as. -/
theorem readRecord_load {c : LoadConfig} {rate : Float}
    (h : (Json.float c.spawnRate).float? = some rate) :
    readRecord loadFields {} c.toJson = some { c with spawnRate := rate } := by
  have hnumber := readUInt64_settingJson
  rw [LoadConfig.toJson, readRecord_record LoadConfig.independent_fields rfl]
  simp only [loadFields, List.map_cons, List.map_nil]
  rw [assignItems_field (hnumber c.users), assignItems_field h,
    assignItems_field (hnumber c.durationSeconds), assignItems_field (text?_text c.setKey),
    assignItems_field (text?_text c.getKey), assignItems_field (list?_list word?_task c.tasks)]
  rfl

/-- **Settings are found again in their document**, with the rate that its text is read as. -/
theorem ofJson?_toJson {c : Config} {rate : Float}
    (h : (Json.float c.load.spawnRate).float? = some rate) :
    ofJson? c.toJson = some { c with load.spawnRate := rate } := by
  rw [ofJson?, Config.toJson, readRecord_record independent_fields rfl]
  simp only [fields, List.map_cons, List.map_nil]
  rw [assignItems_field (readEndpoint_toJson c.target),
    assignItems_field (option?_option readEndpoint_toJson (fun _ h => by cases h) c.reference),
    assignItems_field (readRecord_conformance c.conformance),
    assignItems_field (readRecord_bench c.bench), assignItems_field (readRecord_load h)]
  rfl

/-! ## Documents of settings -/

theorem proper_endpoint (e : Endpoint) : e.toJson.Proper :=
  proper_record (by simp [settingJson])

/-- The document of settings has a written form, whatever they are. -/
theorem proper_toJson (c : Config) : c.toJson.Proper := by
  have hconformance : c.conformance.toJson.Proper :=
    proper_record (by simp [settingJson, proper_option, proper_list])
  have hbench : c.bench.toJson.Proper := proper_record (by simp [settingJson, proper_option])
  have hload : c.load.toJson.Proper := proper_record (by simp [settingJson, proper_list])
  exact proper_record (by simp [proper_endpoint, proper_option, hconformance, hbench, hload])

/-! ## Rates that documents give -/

section Preserved

variable {σ : Type} {fields : List (Field σ)} {P : σ → Prop}

/-- Whether a property outlasts the assignment of a field. -/
def Field.Preserves (f : Field σ) (P : σ → Prop) : Prop :=
  ∀ j s s', f.assign j s = some s' → P s → P s'

theorem preserves_field {α : Type} {name : String} {read : Json → Option α} {store : σ → α → σ}
    (h : ∀ j a s, read j = some a → P s → P (store s a)) :
    (field name read store).Preserves P := by
  intro j s s' hassign hs
  obtain ⟨a, ha, rfl⟩ := Option.map_eq_some_iff.1 hassign
  exact h j a s ha hs

theorem assignMembers_preserves (hfields : ∀ f ∈ fields, f.Preserves P)
    {members : List (Json.Literal × Json)} {seen : List String} {s s' : σ} (hs : P s)
    (h : assignMembers fields seen members s = some s') : P s' := by
  induction members generalizing seen s with
  | nil => exact Option.some.inj h ▸ hs
  | cons m members ih =>
    obtain ⟨l, value⟩ := m
    obtain ⟨name, -, h⟩ := Option.bind_eq_some_iff.1 h
    split at h
    · exact ih hs h
    · next f hfind =>
      split at h
      · cases h
      · obtain ⟨t, hassign, h⟩ := Option.bind_eq_some_iff.1 h
        have ht := hfields f (List.mem_of_find?_eq_some hfind) value s t hassign hs
        exact ih ht h

theorem assignItems_preserves (hfields : ∀ f ∈ fields, f.Preserves P) {items : List Json} {s s' : σ}
    (hs : P s) (h : assignItems fields items s = some s') : P s' := by
  induction items generalizing fields s with
  | nil =>
    rw [assignItems] at h
    exact Option.some.inj h ▸ hs
  | cons value items ih =>
    cases fields with
    | nil => cases h
    | cons f fields =>
      obtain ⟨hf, hfields⟩ := List.forall_mem_cons.1 hfields
      obtain ⟨t, hassign, h⟩ := Option.bind_eq_some_iff.1 h
      exact ih hfields (hf value s t hassign hs) h

/-- What the defaults have and every field keeps is had by each record that is read. -/
theorem readRecord_preserves (hfields : ∀ f ∈ fields, f.Preserves P) {j : Json} {s s' : σ}
    (hs : P s) (h : readRecord fields s j = some s') : P s' := by
  cases j with
  | object members => exact assignMembers_preserves hfields hs h
  | array items => exact assignItems_preserves hfields hs h
  | _ => cases h

end Preserved

theorem isFinite_of_float? {j : Json} {x : Float} (h : j.float? = some x) : x.isFinite = true := by
  cases j with
  | number n => exact Json.Number.isFinite_of_toFloat? h
  | _ => cases h

theorem isFinite_of_readRecord_load {j : Json} {c : LoadConfig}
    (h : readRecord loadFields {} j = some c) : c.spawnRate.isFinite = true := by
  have hfields : ∀ f ∈ loadFields, f.Preserves fun c => c.spawnRate.isFinite = true := by
    simp only [loadFields, List.forall_mem_cons, List.not_mem_nil, IsEmpty.forall_iff, implies_true,
      and_true]
    refine ⟨?_, preserves_field fun _ _ _ hread _ => isFinite_of_float? hread, ?_, ?_, ?_, ?_⟩
    all_goals exact preserves_field fun _ _ _ _ hs => hs
  have hdefault : ({} : LoadConfig).spawnRate.isFinite = true := by decide +kernel
  exact readRecord_preserves hfields hdefault h

/-- No document gives a rate that is not finite. -/
theorem isFinite_of_ofJson? {j : Json} {c : Config} (h : ofJson? j = some c) :
    c.load.spawnRate.isFinite = true := by
  have hfields : ∀ f ∈ fields, f.Preserves fun c => c.load.spawnRate.isFinite = true := by
    simp only [fields, List.forall_mem_cons, List.not_mem_nil, IsEmpty.forall_iff, implies_true,
      and_true]
    refine ⟨?_, ?_, ?_, ?_, preserves_field fun _ _ _ hread _ => isFinite_of_readRecord_load hread⟩
    all_goals exact preserves_field fun _ _ _ _ hs => hs
  have hdefault : ({} : Config).load.spawnRate.isFinite = true := by decide +kernel
  exact readRecord_preserves hfields hdefault h

/-! ## From settings to their text and back -/

theorem checked_eq_ok {c c' : Config} (h : c.checked = .ok c') : c = c' := by
  unfold checked at h
  split at h
  · exact Except.ok.inj h
  · cases h

/-- Settings that a text gives are those of a document, and have no problem. -/
theorem ofText_eq_ok {text : String} {c : Config} (h : ofText text = .ok c) :
    (∃ j, ofJson? j = some c) ∧ c.checked = .ok c := by
  unfold ofText at h
  split at h
  · next c' hread =>
    obtain rfl := checked_eq_ok h
    obtain ⟨j, -, hj⟩ := Option.bind_eq_some_iff.1 hread
    exact ⟨⟨j, hj⟩, h⟩
  · cases h

/--
**Settings that were accepted come back from what is written of them.**  Whatever text they were
read from, both written forms of their document are accepted and give the same settings.  The
assumption is about the text of one double, the rate, and only to be met if that is finite.
-/
theorem ofText_written {text : String} {c : Config} (h : ofText text = .ok c)
    (hrate : c.load.spawnRate.isFinite = true → Json.ReadsBack c.load.spawnRate) :
    ofText (Json.compactText c.toJson) = .ok c ∧ ofText (Json.indentedText c.toJson) = .ok c := by
  obtain ⟨⟨j, hj⟩, hchecked⟩ := ofText_eq_ok h
  have hfinite := isFinite_of_ofJson? hj
  have hread : ofJson? c.toJson = some c :=
    ofJson?_toJson (Json.float?_float hfinite (hrate hfinite))
  obtain ⟨hcompact, hindented⟩ := (proper_toJson c).document
  rw [ofText_of_document hcompact, ofText_of_document hindented, hread]
  exact ⟨hchecked, hchecked⟩

/-- Settings in the order of their fields, some of them left out. -/
def listed : String :=
  "[[\"a\\\"\",\"h\\u0001\",1,\x7b\"resp2\":null\x7d],[],[3],"
    ++ "\x7b\"max_size\":18446744073709551615\x7d,[7,2.5]]"

/-- What is listed. -/
def listedConfig : Config where
  target := { name := "a\"", host := "h\x01", port := 1, protocol := .resp2 }
  reference := some {}
  conformance := { kvSize := 3 }
  bench := { maxSize := 18446744073709551615 }
  load := { users := 7, spawnRate := 2.5 }

/-- What is listed comes back from an object with all its members. -/
theorem ofText_written_listed :
    ofText listed = .ok listedConfig ∧ Json.ReadsBack listedConfig.load.spawnRate ∧
      ofText (Json.compactText listedConfig.toJson) = .ok listedConfig ∧
      ofText (Json.indentedText listedConfig.toJson) = .ok listedConfig := by
  have hread : ofText listed = .ok listedConfig := by decide +kernel
  have hrate : Json.ReadsBack listedConfig.load.spawnRate := by decide +kernel
  exact ⟨hread, hrate, ofText_written hread fun _ => hrate⟩

end Config

end StoreTrial
