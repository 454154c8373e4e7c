import Mathlib.Data.List.Nodup
import Mathlib.Data.Nat.Basic
import StoreTrial.Config.Validate
import StoreTrial.Latency.Measure
import StoreTrial.Proofs.Dialogue

/-!
# Whose figures a report shows

A benchmark measures the servers one after another, and each series holds one mean for each
operation and payload size.  The tables do not read a column off its series: they look for a series
by the name of the server, and so two columns under one name both show the figures of the first.
Nothing keeps two servers from having one name; a reference that is given without a name has that
of the target.

## Main results

* `BenchConfig.yields_run` — what every report of a successful benchmark holds.
* `EndpointSeries.Covers.existsUnique_holds` — a series holds one mean for each operation and size.
* `BenchReport.exists_first` — what a column shows: the means of the first server of its name.
* `BenchReport.attributes_iff_of_run` — when every column shows the figures of its own server.
* `BenchReport.not_forall_attributes` — which is not always.
-/

namespace StoreTrial

open Dialogue (Yields)

/-! ## Looking things up -/

/-- Where no key occurs twice, looking for the key of a member finds the member. -/
theorem find?_key_of_mem {α κ : Type} [DecidableEq κ] {key : α → κ} {as : List α}
    (hnodup : (as.map key).Nodup) {a : α} (ha : a ∈ as) :
    as.find? (key · == key a) = some a := by
  induction as with
  | nil => cases ha
  | cons b as ih =>
    rw [List.map_cons, List.nodup_cons] at hnodup
    rcases List.mem_cons.1 ha with rfl | ha
    · simp
    · have hne : key b ≠ key a := fun h => hnodup.1 (h ▸ List.mem_map_of_mem ha)
      rw [List.find?_cons_of_neg (by simpa using hne), ih hnodup.2 ha]

/-- The ladder of payload sizes has no size twice. -/
theorem nodup_payloadSizes (least greatest : UInt64) : (payloadSizes least greatest).Nodup := by
  unfold payloadSizes
  split
  · exact List.nodup_nil
  · exact (List.nodup_range' ..).map (Nat.pow_right_injective (Nat.le_refl 2))

/-! ## What a series holds -/

namespace EndpointSeries

/-- Whether a series holds a mean for an operation and a payload size. -/
def Holds (s : EndpointSeries) (o : Operation) (size : Nat) (mean : Float) : Prop :=
  ∃ curve ∈ s.operations, curve.operation = o ∧
    ∃ p ∈ curve.points, p.size = size ∧ p.meanMillis = mean

/-- Whether a series has one curve for each operation, with one point for each of the sizes. -/
structure Covers (s : EndpointSeries) (sizes : List Nat) : Prop where
  operations : s.operations.map (·.operation) = Operation.all
  points : ∀ curve ∈ s.operations, curve.points.map (·.size) = sizes

/-- The mean that is found for an operation and a size. -/
def mean? (s : EndpointSeries) (o : Operation) (size : Nat) : Option Float :=
  (s.series? o).bind (·.mean? size)

variable {s : EndpointSeries} {sizes : List Nat} {o : Operation} {size : Nat}

/-- What a series holds is what is found in it. -/
theorem Covers.holds_iff (h : s.Covers sizes) (hsizes : sizes.Nodup) {mean : Float} :
    s.Holds o size mean ↔ s.mean? o size = some mean := by
  constructor
  · rintro ⟨curve, hcurve, rfl, p, hp, rfl, rfl⟩
    have hoperations : (s.operations.map (·.operation)).Nodup := by
      rw [h.operations]
      decide
    have hpoints : (curve.points.map (·.size)).Nodup := by
      rw [h.points curve hcurve]
      exact hsizes
    simp only [mean?, series?, OperationSeries.mean?, find?_key_of_mem hoperations hcurve,
      Option.bind_some, find?_key_of_mem hpoints hp, Option.map_some]
  · intro hmean
    obtain ⟨curve, hcurve, hmean⟩ := Option.bind_eq_some_iff.1 hmean
    obtain ⟨p, hp, rfl⟩ := Option.map_eq_some_iff.1 hmean
    refine ⟨curve, List.mem_of_find?_eq_some hcurve, ?_, p, List.mem_of_find?_eq_some hp, ?_, rfl⟩
    · simpa using List.find?_some hcurve
    · simpa using List.find?_some hp

/-- A series holds a mean for each operation and each size. -/
theorem Covers.exists_holds (h : s.Covers sizes) (o : Operation) (hsize : size ∈ sizes) :
    ∃ mean, s.Holds o size mean := by
  have ho : o ∈ s.operations.map (·.operation) := by
    rw [h.operations]
    cases o <;> decide
  obtain ⟨curve, hcurve, hoperation⟩ := List.mem_map.1 ho
  rw [← h.points curve hcurve] at hsize
  obtain ⟨p, hp, hpoint⟩ := List.mem_map.1 hsize
  exact ⟨p.meanMillis, curve, hcurve, hoperation, p, hp, hpoint, rfl⟩

theorem Covers.holds_unique (h : s.Covers sizes) (hsizes : sizes.Nodup) {mean mean' : Float}
    (hmean : s.Holds o size mean) (hmean' : s.Holds o size mean') : mean = mean' := by
  have heq := (h.holds_iff hsizes).1 hmean
  rw [(h.holds_iff hsizes).1 hmean'] at heq
  exact (Option.some.inj heq).symm

/-- A series holds one mean for each operation and each size. -/
theorem Covers.existsUnique_holds (h : s.Covers sizes) (hsizes : sizes.Nodup) (o : Operation)
    (hsize : size ∈ sizes) : ∃! mean, s.Holds o size mean := by
  obtain ⟨mean, hmean⟩ := h.exists_holds o hsize
  exact ⟨mean, hmean, fun _ hother => h.holds_unique hsizes hother hmean⟩

end EndpointSeries

/-! ## What a benchmark measures -/

namespace Measure

theorem yields_point (session calls : Nat) (o : Operation) (payload : Nat × String) :
    Yields (point session calls o payload) fun p => p.size = payload.1 ∧ True :=
  (Dialogue.yields_any _).bind fun _ _ => .pure ⟨rfl, trivial⟩

theorem yields_series (session calls : Nat) (payloads : List (Nat × String)) (o : Operation) :
    Yields (series session calls payloads o) fun curve =>
      curve.operation = o ∧ curve.points.map (·.size) = payloads.map Prod.fst :=
  (Yields.mapM (yields_point session calls o) payloads).bind fun _ hpoints => .pure ⟨rfl, hpoints.1⟩

theorem yields_endpoint (session calls : Nat) (name : String) (payloads : List (Nat × String)) :
    Yields (endpoint session calls name payloads) fun s =>
      s.endpoint = name ∧ s.Covers (payloads.map Prod.fst) := by
  refine (Yields.mapM (yields_series session calls payloads) Operation.all).bind
    fun curves hcurves => .pure ⟨rfl, ?_, hcurves.2⟩
  rw [hcurves.1, List.map_id']

end Measure

namespace BenchConfig

/-- What every report of a successful benchmark holds. -/
structure Reports (config : BenchConfig) (names : List String) (r : BenchReport) : Prop where
  sizes : r.sizes = payloadSizes config.minSize config.maxSize
  endpoints : r.endpoints = names
  covers : ∀ s ∈ r.series, s.Covers r.sizes

theorem yields_measure (config : BenchConfig) (payloads : List (Nat × String)) (e : Endpoint) :
    Yields (config.measure payloads e) fun s =>
      s.endpoint = e.name ∧ s.Covers (payloads.map Prod.fst) := by
  refine (Dialogue.yields_any _).bind fun session _ => (Dialogue.yields_any _).bind fun _ _ => ?_
  exact (Measure.yields_endpoint ..).adapt _

/-- One series for each server in turn, and in each a mean for every operation and size. -/
theorem yields_run (config : BenchConfig) (target : Endpoint) (reference : Option Endpoint)
    (draw : Nat → String) :
    Yields (config.run target reference draw)
      (config.Reports ((endpoints target reference).map (·.name))) := by
  have hfst : ∀ sizes : List Nat,
      (sizes.map fun size => (size, draw size)).map Prod.fst = sizes := by
    intro sizes
    rw [List.map_map]
    exact List.map_id _
  unfold run
  dsimp only
  split
  · exact (Yields.throw (P := fun _ => False)).bind fun _ h => h.elim
  · refine (Yields.mapM (config.yields_measure _) _).bind fun series hseries =>
      .pure ⟨rfl, hseries.1, fun s hs => ?_⟩
    have hcovers := hseries.2 s hs
    rwa [hfst] at hcovers

variable {config : BenchConfig} {names : List String} {r : BenchReport}

theorem Reports.nodup_sizes (h : config.Reports names r) : r.sizes.Nodup := by
  rw [h.sizes]
  exact nodup_payloadSizes ..

end BenchConfig

/-! ## What a report shows -/

namespace BenchReport

/-- Whether for each operation the cell in the row of a size and the column of a series shows the
mean that this series holds. -/
def Attributes (r : BenchReport) : Prop :=
  ∀ (o : Operation), ∀ size ∈ r.sizes, ∀ (j : Nat) (s : EndpointSeries), r.series[j]? = some s →
    ∃ mean, s.Holds o size mean ∧ (r.cells o size)[j]? = some (Decimal.fixed 3 mean)

/-- Whether series under one name show the same figures. -/
def AgreesByName (r : BenchReport) : Prop :=
  ∀ s ∈ r.series, ∀ t ∈ r.series, s.endpoint = t.endpoint → ∀ (o : Operation), ∀ size ∈ r.sizes,
    ∀ mean mean', s.Holds o size mean → t.Holds o size mean' →
      Decimal.fixed 3 mean = Decimal.fixed 3 mean'

section Columns

variable {r : BenchReport} {s : EndpointSeries} {o : Operation} {size j : Nat}
variable (hcovers : ∀ s ∈ r.series, s.Covers r.sizes) (hsizes : r.sizes.Nodup)
include hcovers hsizes

/-- A column shows the means of the first series of its name. -/
theorem exists_first (o : Operation) (hsize : size ∈ r.sizes) (hj : r.series[j]? = some s) :
    ∃ first mean, r.series.find? (·.endpoint == s.endpoint) = some first ∧
      first.Holds o size mean ∧ (r.cells o size)[j]? = some (Decimal.fixed 3 mean) := by
  have hfound : (r.series.find? (·.endpoint == s.endpoint)).isSome :=
    List.find?_isSome.2 ⟨s, List.mem_of_getElem? hj, beq_self_eq_true _⟩
  obtain ⟨first, hfirst⟩ := Option.isSome_iff_exists.1 hfound
  have hfirst_covers := hcovers first (List.mem_of_find?_eq_some hfirst)
  obtain ⟨mean, hmean⟩ := hfirst_covers.exists_holds o hsize
  have hshown : r.mean? s.endpoint o size = some mean := by
    rw [mean?, hfirst]
    exact (hfirst_covers.holds_iff hsizes).1 hmean
  refine ⟨first, mean, hfirst, hmean, ?_⟩
  simp only [cells, endpoints, List.getElem?_map, hj, Option.map_some, hshown, cell]

theorem agreesByName_of_nodup (h : r.endpoints.Nodup) : r.AgreesByName := by
  intro s hs t ht hname o size _ mean mean' hmean hmean'
  obtain rfl := List.inj_on_of_nodup_map h hs ht hname
  rw [(hcovers s hs).holds_unique hsizes hmean hmean']

/-- Every column shows the means of its own series if and only if series under one name show the
same figures. -/
theorem attributes_iff : r.Attributes ↔ r.AgreesByName := by
  constructor
  · intro h s hs t ht hname o size hsize mean mean' hmean hmean'
    obtain ⟨j, hj⟩ := List.getElem?_of_mem hs
    obtain ⟨k, hk⟩ := List.getElem?_of_mem ht
    obtain ⟨shown, hholds, hcell⟩ := h o size hsize j s hj
    obtain ⟨shown', hholds', hcell'⟩ := h o size hsize k t hk
    have hsame : (r.cells o size)[j]? = (r.cells o size)[k]? := by
      simp only [cells, endpoints, List.getElem?_map, hj, hk, Option.map_some, hname]
    rw [hcell, hcell', (hcovers s hs).holds_unique hsizes hholds hmean,
      (hcovers t ht).holds_unique hsizes hholds' hmean'] at hsame
    exact Option.some.inj hsame
  · intro h o size hsize j s hj
    have hs := List.mem_of_getElem? hj
    obtain ⟨first, shown, hfirst, hshown, hcell⟩ := exists_first hcovers hsizes o hsize hj
    have hname : first.endpoint = s.endpoint := by simpa using List.find?_some hfirst
    obtain ⟨mean, hmean⟩ := (hcovers s hs).exists_holds o hsize
    refine ⟨mean, hmean, ?_⟩
    rw [hcell, h first (List.mem_of_find?_eq_some hfirst) s hs hname o size hsize shown mean
      hshown hmean]

end Columns

/--
**Whose figures a report shows.**  A successful benchmark reports one series for each server in
turn, with one mean for each operation and size.  A column shows the means of the first server of
its name; so every column shows those of its own server if and only if servers under one name have
the same figures, and in any case if the reference has another name than the target.
-/
theorem attributes_iff_of_run {σ : Type} (answer : (r : Request) → σ → r.Answer × σ) (c : Config)
    (draw : Nat → String) {w w' : σ} {r : BenchReport}
    (hrun : (c.bench.run c.target c.reference draw).run.run answer w = (.ok r, w')) :
    r.endpoints = (BenchConfig.endpoints c.target c.reference).map (·.name) ∧
    (∀ s ∈ r.series, ∀ (o : Operation), ∀ size ∈ r.sizes, ∃! mean, s.Holds o size mean) ∧
    (∀ (o : Operation), ∀ size ∈ r.sizes, ∀ (j : Nat) (s : EndpointSeries),
      r.series[j]? = some s →
        ∃ first mean, r.series.find? (·.endpoint == s.endpoint) = some first ∧
          first.Holds o size mean ∧ (r.cells o size)[j]? = some (Decimal.fixed 3 mean)) ∧
    (r.Attributes ↔ r.AgreesByName) ∧
    ((∀ e ∈ c.reference, e.name ≠ c.target.name) → r.Attributes) := by
  have h := (c.bench.yields_run c.target c.reference draw).of_run answer hrun
  have hiff := attributes_iff h.covers h.nodup_sizes
  refine ⟨h.endpoints, ?_, ?_, hiff, ?_⟩
  · exact fun s hs o size hsize => (h.covers s hs).existsUnique_holds h.nodup_sizes o hsize
  · exact fun o size hsize j s hj => exists_first h.covers h.nodup_sizes o hsize hj
  · intro hnames
    refine hiff.2 (agreesByName_of_nodup h.covers h.nodup_sizes ?_)
    rw [h.endpoints]
    cases hreference : c.reference with
    | none => simp [BenchConfig.endpoints]
    | some e => simpa [BenchConfig.endpoints, eq_comm] using hnames e hreference

/-! ## Two servers under one name -/

/-- Surroundings in which every call succeeds and takes longer than the one before. -/
def slowing : (r : Request) → Nat → r.Answer × Nat
  | .dial _, n => (.ok 0, n)
  | .run _ .ping, n => (.ok (), n)
  | .run _ (.set _ _ _), n => (.ok .stored, n)
  | .run _ (.get key), n => (.ok (some key), n)
  | .run _ (.del _), n => (.ok 1, n)
  | .clock, n => (.ofMillis (n * n), n + 1)
  | r, n => (r.failing .closed, n)

/-- Settings for one call with one byte, of a target and a reference. -/
def twoServers (reference : Endpoint) : Config where
  target := { protocol := .resp2 }
  reference := some reference
  bench := { iterations := 1, minSize := 1, maxSize := 1 }

/-- A reference that is given without a name. -/
def unnamed : Endpoint := { port := 6379, protocol := .resp2 }

/-- The benchmark of two servers in those surroundings. -/
abbrev slowed (reference : Endpoint) : Except BenchError BenchReport × Nat :=
  ((twoServers reference).bench.run (twoServers reference).target (twoServers reference).reference
    fun _ => "a").run.run slowing 0

/-- Its report. -/
def slowedReport (reference : Endpoint) : BenchReport where
  sizes := [1]
  iterations := 1
  series := [
    ⟨"target", [⟨.set, [⟨1, 1⟩]⟩, ⟨.get, [⟨1, 5⟩]⟩, ⟨.del, [⟨1, 9⟩]⟩]⟩,
    ⟨reference.name, [⟨.set, [⟨1, 13⟩]⟩, ⟨.get, [⟨1, 17⟩]⟩, ⟨.del, [⟨1, 21⟩]⟩]⟩]

theorem exists_slowed {reference : Endpoint}
    (h : (slowed reference).1.toOption = some (slowedReport reference)) :
    ∃ w, slowed reference = (.ok (slowedReport reference), w) := by
  cases hslowed : slowed reference with
  | mk result w =>
    rw [hslowed] at h
    cases result with
    | ok r =>
      cases h
      exact ⟨w, rfl⟩
    | error e => cases h

/-- A stock reference has a name of its own, and so both columns show their own figures. -/
theorem attributes_slowed_stockReference :
    ∃ w, slowed .stockReference = (.ok (slowedReport .stockReference), w) ∧
      (slowedReport .stockReference).Attributes := by
  obtain ⟨w, hrun⟩ : ∃ w, slowed .stockReference = (.ok (slowedReport .stockReference), w) :=
    exists_slowed (by decide +kernel)
  exact ⟨w, hrun, (attributes_iff_of_run slowing (twoServers .stockReference) _ hrun).2.2.2.2
    (by decide)⟩

/-- A reference without a name has that of the target, and its column shows the target's figures. -/
theorem not_forall_attributes :
    ¬ ∀ (σ : Type) (answer : (r : Request) → σ → r.Answer × σ) (c : Config) (draw : Nat → String)
      (w w' : σ) (r : BenchReport), c.validate = .ok () →
      (c.bench.run c.target c.reference draw).run.run answer w = (.ok r, w') → r.Attributes := by
  intro hall
  obtain ⟨w, hrun⟩ : ∃ w, slowed unnamed = (.ok (slowedReport unnamed), w) :=
    exists_slowed (by decide +kernel)
  have hvalid : (twoServers unnamed).validate = .ok () := by decide +kernel
  have hattributes : (slowedReport unnamed).Attributes := hall _ _ _ _ _ _ _ hvalid hrun
  have hreports := ((twoServers unnamed).bench.yields_run _ _ _).of_run slowing hrun
  have hagrees := (attributes_iff hreports.covers hreports.nodup_sizes).1 hattributes
  have htexts := hagrees _ List.mem_cons_self _ (List.mem_cons_of_mem _ List.mem_cons_self) rfl
    .set 1 List.mem_cons_self _ _ ⟨_, List.mem_cons_self, rfl, _, List.mem_cons_self, rfl, rfl⟩
    ⟨_, List.mem_cons_self, rfl, _, List.mem_cons_self, rfl, rfl⟩
  exact absurd htexts (by decide +kernel)

end BenchReport

end StoreTrial
