import StoreTrial.Load.User
import StoreTrial.Proofs.Config.Accepted
import StoreTrial.Proofs.Dataset.Ladder
import StoreTrial.Proofs.Latency.Measurement
import StoreTrial.Proofs.Trial.Compaction
import StoreTrial.Trial.Suite

/-!
# What accepted settings keep from happening

The harnesses divide by settings, index lists of settings and take for granted that there is a first
pair.  None of them looks at what it was given: the one check is that of the configuration before
any of them starts.  Each use is traced back here to what was checked.

## Main results

* `Script.checkedMerge_eq` — no remainder of the case about compaction is one by zero.
* `BenchConfig.failsWith_run` — the benchmark can fail, but not for lack of sizes.
* `Config.safeguards_of_validate` — an accepted configuration keeps every harness from these ends.
-/

namespace StoreTrial

open Dialogue (Yields FailsWith)

/-! ## The benchmark -/

/-- A mean of a number of calls, which is a number. -/
structure LatencyPoint.IsMean (calls : Nat) (p : LatencyPoint) : Prop where
  mean : ∃ total, p.meanMillis = Measure.mean total calls
  number : p.meanMillis.isNaN = false

theorem Measure.yields_isMean {session calls : Nat} (hpos : 0 < calls) (hlt : calls < 2 ^ 64)
    (o : Operation) (payload : Nat × String) :
    Yields (point session calls o payload) (·.IsMean calls) := by
  apply (Dialogue.yields_any _).bind
  intro total _
  exact .pure ⟨⟨total, rfl⟩, isNaN_mean_of_pos total hpos hlt⟩

namespace BenchConfig

variable {config : BenchConfig} (target : Endpoint) (reference : Option Endpoint)
  (draw : Nat → String)

/-- With sizes to measure, a benchmark is one measurement after another. -/
theorem run_of_sizes (hsizes : payloadSizes config.minSize config.maxSize ≠ []) :
    config.run target reference draw = (do
      let sizes := payloadSizes config.minSize config.maxSize
      let series ← (endpoints target reference).mapM
        (config.measure (sizes.map fun size => (size, draw size)))
      return { sizes, iterations := config.iterations.toNat, series }) := by
  have hempty : (payloadSizes config.minSize config.maxSize).isEmpty = false :=
    List.isEmpty_eq_false_iff.2 hsizes
  unfold run
  simp only [hempty]
  rfl

/-- A measurement does not look for sizes. -/
theorem failsWith_measure (payloads : List (Nat × String)) (e : Endpoint) :
    FailsWith (config.measure payloads e) fun error =>
      ∀ least greatest, error ≠ .noSizes least greatest := by
  apply (FailsWith.adapt _ fun _ _ _ => BenchError.noConfusion).bind
  intro session
  apply (FailsWith.adapt _ fun _ _ _ => BenchError.noConfusion).bind
  intro _
  exact .adapt _ fun _ _ _ => BenchError.noConfusion

/-- With sizes to measure, a benchmark does not fail for lack of them. -/
theorem failsWith_run (hsizes : payloadSizes config.minSize config.maxSize ≠ []) :
    FailsWith (config.run target reference draw) fun error =>
      ∀ least greatest, error ≠ .noSizes least greatest := by
  rw [run_of_sizes target reference draw hsizes]
  apply (FailsWith.mapM (failsWith_measure _) _).bind
  intro series
  exact .pure _

/-- The means of a benchmark with calls to take them of. -/
theorem yields_isMean (hsizes : payloadSizes config.minSize config.maxSize ≠ [])
    (hiterations : config.iterations ≠ 0) :
    Yields (config.run target reference draw) fun r => ∀ s ∈ r.series,
      ∀ curve ∈ s.operations, ∀ p ∈ curve.points, p.IsMean config.iterations.toNat := by
  have hpos : 0 < config.iterations.toNat :=
    Nat.pos_of_ne_zero fun h => hiterations (UInt64.toNat_inj.1 h)
  rw [run_of_sizes target reference draw hsizes]
  refine (Yields.forall_mapM (fun e => ?_) _).bind fun series hseries => .pure hseries
  apply (Dialogue.yields_any _).bind
  intro session _
  apply (Dialogue.yields_any _).bind
  intro _ _
  exact (Measure.yields_points
    (Measure.yields_isMean hpos config.iterations.toNat_lt) _ _).adapt _

end BenchConfig

/-! ## Compaction -/

namespace Script

/-- The remainder of an index, if there is one. -/
def remainder? (every i : Nat) : Option Nat := if every = 0 then none else some (i % every)

/-- The check of one key after compaction, if there is a remainder that tells which. -/
def checkedCompacted (versions every : Nat) : (String × String) × Nat → Option Step
  | ((key, value), i) => (remainder? every i).map fun r =>
    if r = 0 then .absent .compaction key else .read .checker key (versioned versions i value)

/-- The case about compaction, which is none as soon as one remainder is by zero. -/
def checkedMerge (versions every : Nat) (d : Dataset) : Option (List Step) := do
  let remainders ← d.keys.zipIdx.mapM fun (key, i) => (remainder? every i).map (key, ·)
  let checks ← d.pairs.zipIdx.mapM (checkedCompacted versions every)
  return storeAll d.pairs
    ++ (List.range' 1 versions).flatMap (fun version => storeAll (versionOf d version))
    ++ (remainders.filter fun (_, r) => r == 0).map (fun (key, _) => .delete key)
    ++ .command .checker .merge :: checks

variable {versions every : Nat} {d : Dataset} {key value : String}
  {pairs : List (String × String)}

theorem remainder?_of_ne_zero (h : every ≠ 0) (i : Nat) : remainder? every i = some (i % every) :=
  if_neg h

/-- No remainder of the case is by zero. -/
theorem checkedMerge_eq (h : every ≠ 0) (versions : Nat) (d : Dataset) :
    checkedMerge versions every d = some (merge versions every d) := by
  have hremainder (x : String × Nat) :
      (remainder? every x.2).map (x.1, ·) = pure (x.1, x.2 % every) := by
    rw [remainder?_of_ne_zero h]
    rfl
  have hcompacted (x : (String × String) × Nat) :
      checkedCompacted versions every x = pure (compacted versions every x) := by
    obtain ⟨⟨key, value⟩, i⟩ := x
    rw [checkedCompacted, remainder?_of_ne_zero h]
    rfl
  rw [checkedMerge, funext hcompacted, List.mapM_pure, funext hremainder, List.mapM_pure]
  simp only [pure_bind, List.filter_map, List.map_map]
  rfl

/-- The first key is deleted, and looked for after compaction. -/
theorem first_mem_merge (versions every : Nat) (h : d.pairs = (key, value) :: pairs) :
    .delete key ∈ merge versions every d ∧ .absent .compaction key ∈ merge versions every d := by
  have hfirst : ((key, value), 0) ∈ d.pairs.zipIdx := by
    rw [h]
    exact .head _
  have hdeleted : key ∈ deletedKeys every d := (mem_deletedKeys hfirst).2 (Nat.zero_mod every)
  have hdelete : .delete key ∈ (deletedKeys every d).map Step.delete := List.mem_map_of_mem hdeleted
  have hcheck : .absent .compaction key ∈ d.pairs.zipIdx.map (compacted versions every) := by
    apply List.mem_map.2
    exact ⟨_, hfirst, by rw [compacted, if_pos (Nat.zero_mod every)]⟩
  rw [deletedKeys, List.map_map] at hdelete
  constructor
  · apply List.mem_append_left
    apply List.mem_append_right
    exact hdelete
  · apply List.mem_append_right
    exact List.mem_cons_of_mem _ hcheck

end Script

/-! ## Conditional writes -/

/-- A dataset with a pair has a first one, and so has its first half. -/
theorem Dataset.exists_first {d : Dataset} (h : d.size ≠ 0) :
    ∃ key value pairs early, d.pairs = (key, value) :: pairs ∧ d.early = (key, value) :: early ∧
      d.inFirstHalf 0 = true := by
  cases hpairs : d.pairs with
  | nil => exact absurd (congrArg List.length hpairs) h
  | cons pair pairs =>
    refine ⟨pair.1, pair.2, pairs, pairs.take (d.size / 2), rfl, ?_, ?_⟩
    · rw [early, hpairs]
      rfl
    · exact decide_eq_true (Nat.zero_le _)

namespace Case

/-- The cases about single keys and their values. -/
def aboutKeys : List Case := [setGet, setEx, setPx, setNx, setXx, setGetOption, del]

/-- Those among them that find the first half in place. -/
def aboutHalves : List Case := [setNx, setXx, setGetOption]

theorem size_of_mem_aboutKeys {c : Case} (hcase : c ∈ aboutKeys) (config : ConformanceConfig) :
    c.size config = config.kvSize.toNat := by
  cases c <;> first | rfl | exact absurd hcase (by decide)

/-- A case that finds the first half in place begins with writing it. -/
theorem exists_trial_aboutHalves {c : Case} (hcase : c ∈ aboutHalves) (e : Endpoint)
    (config : ConformanceConfig) {draw : Draw} {key value : String}
    {early : List (String × String)} (h : draw.data.early = (key, value) :: early) :
    ∃ steps, c.trial e config draw =
      performAlone e fun () => .store .checker key value :: steps := by
  rw [aboutHalves, List.mem_cons, List.mem_cons, List.mem_singleton] at hcase
  rcases hcase with rfl | rfl | rfl
  · simp only [trial, Script.setNx, h]
    exact ⟨_, rfl⟩
  · simp only [trial, Script.setXx, h]
    exact ⟨_, rfl⟩
  · simp only [trial, Script.setGetOption, h]
    exact ⟨_, rfl⟩

end Case

/-! ## The load -/

/-- With a task to choose, chance always chooses one. -/
theorem LoadConfig.exists_choice {config : LoadConfig} (h : config.tasks ≠ []) (task bids : Nat) :
    ∃ t ∈ config.tasks, config.choice? task bids = some (t.choice bids) := by
  have hlt : task % config.tasks.length < config.tasks.length :=
    Nat.mod_lt _ (List.length_pos_iff.2 h)
  refine ⟨config.tasks[task % config.tasks.length], List.getElem_mem hlt, ?_⟩
  rw [choice?, List.getElem?_eq_getElem hlt]
  rfl

/-! ## Accepted settings -/

/-- What an accepted configuration keeps from happening: a benchmark without sizes or without calls,
a remainder by zero, a deletion that spares the first key, a choice from no tasks, and a case about
keys without a first pair. -/
structure Config.Safeguards (c : Config) : Prop where
  sizes : payloadSizes c.bench.minSize c.bench.maxSize ≠ []
  notForSizes : ∀ {σ : Type} (answer : (r : Request) → σ → r.Answer × σ) (draw : Nat → String)
    (s s' : σ) (least greatest : UInt64),
    (c.bench.run c.target c.reference draw).run.run answer s ≠
      (.error (.noSizes least greatest), s')
  iterations : c.bench.iterations.toNat ≠ 0
  means : ∀ {σ : Type} (answer : (r : Request) → σ → r.Answer × σ) (draw : Nat → String)
    (s s' : σ) (r : BenchReport),
    (c.bench.run c.target c.reference draw).run.run answer s = (.ok r, s') →
      ∀ series ∈ r.series, ∀ curve ∈ series.operations, ∀ p ∈ curve.points,
        p.IsMean c.bench.iterations.toNat
  remainders : ∀ d : Dataset,
    Script.checkedMerge c.conformance.mergeVersions.toNat c.conformance.mergeDeleteEvery.toNat d =
      some (Script.merge c.conformance.mergeVersions.toNat c.conformance.mergeDeleteEvery.toNat d)
  deletion : ∀ (e : Endpoint) (draw : Draw), draw.data.size = Case.merge.size c.conformance →
    ∃ key value pairs steps, draw.data.pairs = (key, value) :: pairs ∧
      Case.merge.trial e c.conformance draw = performAlone e (fun () => steps) ∧
      .delete key ∈ steps ∧ .absent .compaction key ∈ steps
  tasks : c.load.tasks ≠ []
  choice : ∀ task bids : Nat, ∃ t ∈ c.load.tasks, c.load.choice? task bids = some (t.choice bids)
  firstHalf : ∀ k ∈ Case.aboutKeys, ∀ draw : Draw, draw.data.size = k.size c.conformance →
    ∃ key value pairs early, draw.data.pairs = (key, value) :: pairs ∧
      draw.data.early = (key, value) :: early ∧ draw.data.inFirstHalf 0 = true ∧
      (k ∈ Case.aboutHalves → ∀ e : Endpoint, ∃ steps, k.trial e c.conformance draw =
        performAlone e fun () => .store .checker key value :: steps)

/--
**What the checks are for.**  Whatever the surroundings answer and chance draws, the harnesses of an
accepted configuration meet none of the ends that its settings could bring about: the benchmark has
sizes to measure, and each mean is a number, taken of one call or more; the case about compaction
takes no remainder by zero and deletes the first key; a user chooses from at least one task; and the
first half that the cases about keys find in place has a first pair.
-/
theorem Config.safeguards_of_validate {c : Config} (h : c.validate = .ok ()) : c.Safeguards := by
  obtain ⟨-, -, hconformance, hbench, hload⟩ := validate_eq_ok_iff.1 h
  obtain ⟨hiterations, hpos, hle⟩ := BenchConfig.validate_eq_ok_iff.1 hbench
  obtain ⟨-, -, htasks⟩ := LoadConfig.validate_eq_ok_iff.1 hload
  have hsizes : payloadSizes c.bench.minSize c.bench.maxSize ≠ [] := by
    rw [Ne, payloadSizes_eq_nil_iff, not_or, UInt64.not_lt]
    exact ⟨hpos, hle⟩
  have htoNat {n : UInt64} (hn : n ≠ 0) : n.toNat ≠ 0 := fun h => hn (UInt64.toNat_inj.1 h)
  refine ⟨hsizes, ?notForSizes, htoNat hiterations, ?means, ?remainders, ?deletion, htasks,
    LoadConfig.exists_choice htasks, ?firstHalf⟩
  case notForSizes =>
    intro σ answer draw s s' least greatest hrun
    exact (BenchConfig.failsWith_run c.target c.reference draw hsizes).of_run answer hrun _ _ rfl
  case means =>
    intro σ answer draw s s' r hrun
    have hmeans := BenchConfig.yields_isMean c.target c.reference draw hsizes hiterations
    exact hmeans.of_run answer hrun
  case remainders =>
    intro d
    exact Script.checkedMerge_eq (htoNat hconformance.mergeDeleteEvery) _ d
  case deletion =>
    intro e draw hsize
    obtain ⟨key, value, pairs, -, hpairs, -⟩ := draw.data.exists_first
      (hsize ▸ htoNat hconformance.mergeSize)
    obtain ⟨hdelete, habsent⟩ := Script.first_mem_merge c.conformance.mergeVersions.toNat
      c.conformance.mergeDeleteEvery.toNat hpairs
    exact ⟨key, value, pairs, _, hpairs, rfl, hdelete, habsent⟩
  case firstHalf =>
    intro k hk draw hsize
    rw [Case.size_of_mem_aboutKeys hk] at hsize
    obtain ⟨key, value, pairs, early, hpairs, hearly, hfirst⟩ := draw.data.exists_first
      (hsize ▸ htoNat hconformance.kvSize)
    exact ⟨key, value, pairs, early, hpairs, hearly, hfirst,
      fun hhalves e => Case.exists_trial_aboutHalves hhalves e c.conformance hearly⟩

/-- The defaults are accepted. -/
theorem Config.safeguards_of_validate_default :
    ({} : Config).validate = .ok () ∧ ({} : Config).Safeguards := by
  have hvalid : ({} : Config).validate = .ok () := by decide +kernel
  exact ⟨hvalid, safeguards_of_validate hvalid⟩

end StoreTrial
