import StoreTrial.Proofs.Config.Accepted
import StoreTrial.Proofs.Trial.Draws

/-!
# Where the cases about blocks reach their limits

Two of the cases about transaction blocks lean on their draw. The case about watched keys reads the
watched key and then the pairs: if the watched key is one of theirs, the rival has replaced the
value of a pair, and the case blames a server for it. The case about failing blocks writes the first
half of its pairs before it deletes the others: half of one pair is none, so that nothing is written
and nothing can be left behind.

## Main results

* `Case.txWatch_passes_iff` — beside a server that heeds watched keys, the case passes if and only
  if the watched key is new.
* `Case.txAtomic_fails_iff` — beside a server that keeps failed blocks, the case fails if and only
  if it has more than one pair.
-/

namespace StoreTrial

open Step (payload)

section Trials

variable (e : Endpoint) (config : ConformanceConfig) {draw : Draw} (hfits : draw.Fits)
  (l : Loopback) (hd : l.server.divergence.deniesWrites = false)

include hfits hd

/-! ## Watched keys -/

/-- The case about watched keys passes if the watched key is new. -/
theorem Case.txWatch_passes_of_not_mem (hheeds : l.server.divergence.ignoresWatches = false)
    (hnew : draw.watched ∉ draw.data.keys) :
    ((Case.txWatch.trial e config draw).run.beside l).1 = .ok () := by
  refine Case.passes_of_steps e config draw l (by decide) fun session hsessions => ?_
  rw [← standsAs_newcomer]
  exact ⟨_, passes_txWatch (atRest_newcomer e _) hd hfits.pairs hfits.watched hfits.rival
    (hsessions rfl) rfl hheeds hnew⟩

/-- The case about watched keys fails if the watched key is that of a pair. -/
theorem Case.txWatch_fails_of_mem (hheeds : l.server.divergence.ignoresWatches = false)
    (hmem : draw.watched ∈ draw.data.keys)
    (hvalues : ∀ pair ∈ draw.data.pairs, pair.2 ≠ draw.rival) :
    ∃ failure, ((Case.txWatch.trial e config draw).run.beside l).1 = .error failure := by
  refine Case.fails_of_steps e config draw l (by decide) fun session hsessions => ?_
  rw [← standsAs_newcomer]
  exact fails_txWatch_of_mem (atRest_newcomer e _) hd hfits.pairs hfits.watched hfits.rival
    (hsessions rfl) rfl hheeds hmem hvalues

/-! ## Failing blocks -/

variable (hfresh : ∀ key ∈ draw.data.keys, l.server.store.live? l.now (payload key) = none)

include hfresh

/-- The case about failing blocks passes if it has one pair only. -/
theorem Case.txAtomic_passes_of_single (hsize : draw.data.size = 1) :
    ((Case.txAtomic.trial e config draw).run.beside l).1 = .ok () := by
  refine Case.passes_of_steps e config draw l (by decide) fun session _ => ?_
  rw [← standsAs_newcomer]
  exact ⟨_, passes_txAtomic_single (atRest_newcomer e _) hd hfits.pairs hsize
    fun key hkey => Store.keeps_none (hfresh key hkey)⟩

/-- The case about failing blocks fails where they are kept, if it has two pairs. -/
theorem Case.txAtomic_fails_of_two_le (hkeeps : l.server.divergence.keepsFailedBlocks = true)
    (hsize : 2 ≤ draw.data.size) :
    ∃ failure, ((Case.txAtomic.trial e config draw).run.beside l).1 = .error failure := by
  refine Case.fails_of_steps e config draw l (by decide) fun session _ => ?_
  rw [← standsAs_newcomer]
  exact fails_txAtomic (atRest_newcomer e _) hd hfits.pairs hkeeps hsize
    fun key hkey => Store.keeps_none (hfresh key hkey)

end Trials

/-! ## Settings of one pair -/

/-- Settings for one pair of texts of one character. -/
def oneLetter : Config where
  conformance := { kvSize := 1, txSize := 1, mergeSize := 1, textLength := 1, messageCount := 1 }

theorem validate_oneLetter : oneLetter.validate = .ok () := by decide +kernel

theorem inMemory_oneLetter : oneLetter.conformance.InMemory := by decide

/-- A draw of one pair beside a watched key. -/
def letters (watched : String) : Draw where
  data := ⟨[("a", "b")], by decide⟩
  fresh := fun i => ["c"].getD i ""
  watched
  rival := "other_AAAAAAAA"

/-- Any letter can be the watched key, also the key of the pair. -/
theorem possible_letters {c : Case} (hsize : c.size oneLetter.conformance = 1) {watched : String}
    (hwatched : IsRandom 1 watched) : (letters watched).Possible oneLetter.conformance c where
  drawn := by
    have hdraw : Dataset.draw 1 [] ["a", "b", watched, "c"] =
        some ([("a", "b")], [watched, "c"]) := by
      simp [Dataset.draw]
    refine ⟨["a", "b", watched, "c"], "AAAAAAAA", ?_, by decide +kernel, ?_⟩
    · intro text htext
      simp only [List.mem_cons, List.not_mem_nil, or_false] at htext
      obtain rfl | rfl | rfl | rfl := htext
      · exact (by decide +kernel : IsRandom 1 "a")
      · exact (by decide +kernel : IsRandom 1 "b")
      · exact hwatched
      · exact (by decide +kernel : IsRandom 1 "c")
    · rw [hsize, Draw.ofTexts, Dataset.generate_eq hdraw]
      rfl
  fresh := by
    intro i hi
    obtain rfl : i = 0 := by omega
    exact (by decide +kernel : IsRandom 1 "c")

/-! ## The case about watched keys -/

/-- Beside a server that heeds watched keys, the case passes if and only if the watched key is
new. -/
theorem Case.txWatch_passes_iff (e : Endpoint) {config : ConformanceConfig}
    (hmemory : config.InMemory) {draw : Draw} (hdraw : draw.Possible config .txWatch) (l : Loopback)
    (hconforms : l.server.divergence = {}) :
    ((Case.txWatch.trial e config draw).run.beside l).1 = .ok () ↔
      draw.watched ∉ draw.data.keys := by
  have hd : l.server.divergence.deniesWrites = false := by rw [hconforms]
  have hheeds : l.server.divergence.ignoresWatches = false := by rw [hconforms]
  have hfits := hdraw.fits hmemory
  constructor
  · intro hok hmem
    obtain ⟨failure, herror⟩ := Case.txWatch_fails_of_mem e config hfits l hd hheeds hmem
      hdraw.value_ne_rival
    rw [hok] at herror
    cases herror
  · exact Case.txWatch_passes_of_not_mem e config hfits l hd hheeds

/-- Another letter as the watched key does no harm. -/
theorem Case.txWatch_passes_letters :
    ((Case.txWatch.trial {} oneLetter.conformance (letters "w")).run.beside {}).1 = .ok () :=
  (Case.txWatch_passes_iff {} inMemory_oneLetter (possible_letters rfl (by decide +kernel)) {}
    rfl).2 (by decide)

/-- Accepted settings do not keep the watched key from being drawn among the keys of the pairs, and
then a server is blamed that conforms to the contract. -/
theorem Case.not_forall_txWatch_passes :
    ¬ ∀ (e : Endpoint) (config : Config) (draw : Draw) (l : Loopback),
      config.validate = .ok () → draw.Possible config.conformance .txWatch →
      l.server.divergence = {} →
      (∀ key ∈ draw.watched :: draw.data.keys,
        l.server.store.live? l.now (payload key) = none) →
      ((Case.txWatch.trial e config.conformance draw).run.beside l).1 = .ok () := by
  intro hall
  have hpossible : (letters "a").Possible oneLetter.conformance .txWatch :=
    possible_letters rfl (by decide +kernel)
  have hok := hall {} oneLetter (letters "a") {} validate_oneLetter hpossible rfl (by decide)
  obtain ⟨failure, herror⟩ := Case.txWatch_fails_of_mem {} oneLetter.conformance
    (hpossible.fits inMemory_oneLetter) {} rfl rfl (by decide) hpossible.value_ne_rival
  rw [hok] at herror
  cases herror

/-! ## The case about failing blocks -/

/-- Beside a server that keeps failed blocks, the case fails if and only if it has more than one
pair. -/
theorem Case.txAtomic_fails_iff (e : Endpoint) {config : Config} (hvalid : config.validate = .ok ())
    (hmemory : config.conformance.InMemory) {draw : Draw}
    (hdraw : draw.Possible config.conformance .txAtomic) (l : Loopback)
    (hdivergence : l.server.divergence = { keepsFailedBlocks := true })
    (hfresh : ∀ key ∈ draw.data.keys, l.server.store.live? l.now (payload key) = none) :
    (∃ failure, ((Case.txAtomic.trial e config.conformance draw).run.beside l).1 = .error failure) ↔
      config.conformance.txSize ≠ 1 := by
  have hd : l.server.divergence.deniesWrites = false := by rw [hdivergence]
  have hkeeps : l.server.divergence.keepsFailedBlocks = true := by rw [hdivergence]
  have hfits := hdraw.fits hmemory
  have hsize : draw.data.size = config.conformance.txSize.toNat := hdraw.size_eq
  constructor
  · rintro ⟨failure, herror⟩ hone
    have hsingle : draw.data.size = 1 := by rw [hsize, hone]; rfl
    have hok := Case.txAtomic_passes_of_single e config.conformance hfits l hd hfresh hsingle
    rw [hok] at herror
    cases herror
  · intro hone
    have hzero := (Config.conformance_of_validate hvalid).txSize
    refine Case.txAtomic_fails_of_two_le e config.conformance hfits l hd hfresh hkeeps ?_
    rw [hsize]
    have hne_zero : config.conformance.txSize.toNat ≠ 0 := fun h => hzero (UInt64.toNat_inj.1 h)
    have hne_one : config.conformance.txSize.toNat ≠ 1 := fun h => hone (UInt64.toNat_inj.1 h)
    omega

/-- Settings for two pairs in a block, of texts of one character. -/
def twoLetters : Config where
  conformance := { oneLetter.conformance with txSize := 2 }

theorem validate_twoLetters : twoLetters.validate = .ok () := by decide +kernel

theorem inMemory_twoLetters : twoLetters.conformance.InMemory := by decide

/-- A server that keeps failed blocks. -/
def failedBlockKeeper : Loopback := { server := { divergence := { keepsFailedBlocks := true } } }

/-- With two pairs, the first is written and found. -/
theorem Case.txAtomic_fails_twoLetters : ∃ draw : Draw,
    draw.Possible twoLetters.conformance .txAtomic ∧ draw.data.keys = ["a", "b"] ∧
      ∃ failure, ((Case.txAtomic.trial {} twoLetters.conformance draw).run.beside
        failedBlockKeeper).1 = .error failure := by
  have hnodup : ["a", "b"].Nodup := by decide
  have hkeys : ∀ key ∈ ["a", "b"], IsRandom twoLetters.conformance.textLength.toNat key := by
    decide +kernel
  obtain ⟨draw, hdraw, hkeys, -⟩ := Case.exists_draw (c := .txAtomic) rfl hnodup hkeys
    (by decide +kernel : IsRandom 1 "w")
  exact ⟨draw, hdraw, hkeys, (Case.txAtomic_fails_iff {} validate_twoLetters inMemory_twoLetters
    hdraw failedBlockKeeper rfl fun _ _ => rfl).2 (by decide)⟩

/-- Accepted settings may ask for one pair, and then a server that keeps failed blocks is not
found out. -/
theorem Case.not_forall_txAtomic_fails :
    ¬ ∀ (e : Endpoint) (config : Config) (draw : Draw) (l : Loopback),
      config.validate = .ok () → draw.Possible config.conformance .txAtomic →
      l.server.divergence = { keepsFailedBlocks := true } →
      (∀ key ∈ draw.data.keys, l.server.store.live? l.now (payload key) = none) →
      ∃ failure,
        ((Case.txAtomic.trial e config.conformance draw).run.beside l).1 = .error failure := by
  intro hall
  have hpossible : (letters "w").Possible oneLetter.conformance .txAtomic :=
    possible_letters rfl (by decide +kernel)
  obtain ⟨failure, herror⟩ := hall {} oneLetter (letters "w") failedBlockKeeper validate_oneLetter
    hpossible rfl fun _ _ => rfl
  have hok := Case.txAtomic_passes_of_single {} oneLetter.conformance
    (hpossible.fits inMemory_oneLetter) failedBlockKeeper rfl (fun _ _ => rfl) rfl
  rw [hok] at herror
  cases herror

end StoreTrial
