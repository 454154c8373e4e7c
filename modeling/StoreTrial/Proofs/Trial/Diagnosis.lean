import StoreTrial.Proofs.Trial.Blocks
import StoreTrial.Proofs.Trial.Compaction
import StoreTrial.Trial.Suite

/-!
# What the cases diagnose

Each way in which a server can diverge from the contract is the matter of one case, if of any. The
case passes beside every server that does not diverge in this way, whatever else it does; beside one
that does, it fails. So no case raises a false alarm, and a server with one fault fails one case.

The server may have stored anything, may have had any sessions before and may take any time for each
request; only the keys of the draw must not be live.

## Main results

* `Case.passes_of_spares`, `Case.fails_of_not_spares` — what a case comes to beside any server that
  answers writes.
* `Case.passes_beside_conforming` — no case fails beside a server that conforms.
* `Case.diagnoses_fault` — a server with one fault fails the case about it and no other.
-/

namespace StoreTrial

open Resp (Value)
open Step (payload)

/-! ## Opening the sessions of a case -/

/-- A session as it stands after it was opened. -/
def newcomer (e : Endpoint) (id : Nat) : ServerSession := { id, protocol := e.protocol }

theorem atRest_newcomer (e : Endpoint) (id : Nat) : (newcomer e id).AtRest := ⟨rfl, rfl, rfl⟩

/-- The sessions of a case with a rival. -/
def sessionsOf (checker rival : Nat) : Party → Nat
  | .checker => checker
  | .rival => rival

/-- A script alone starts when its session stands. -/
theorem exists_performAlone (e : Endpoint) (steps : Unit → List Step) (l : Loopback) :
    ∃ session l', (performAlone e steps).run.beside l =
        (Step.performAll session (steps ())).run.beside l' ∧
      Stands session (newcomer e) l.server.divergence l.server.store l.now l' := by
  obtain ⟨l', henter, hidle, -, hserver, hnow, -⟩ := exists_enter e l
  refine ⟨fun _ => l.peers.length, l', ?_, fun _ => hidle, by rw [hserver], by rw [hserver], hnow⟩
  rw [Dialogue.beside, performAlone, Trial.run_bind]
  rw [Dialogue.beside] at henter
  rw [henter]
  rfl

/-- A script beside a rival starts when both sessions stand. -/
theorem exists_performBeside (e : Endpoint) (steps : Unit → List Step) (l : Loopback) :
    ∃ session l', (performBeside e steps).run.beside l =
        (Step.performAll session (steps ())).run.beside l' ∧ session .rival ≠ session .checker ∧
      Stands session (newcomer e) l.server.divergence l.server.store l.now l' := by
  obtain ⟨l₁, henter₁, hidle₁, -, hserver₁, hnow₁, hlength⟩ := exists_enter e l
  obtain ⟨l₂, henter₂, hidle₂, hothers, hserver₂, hnow₂, -⟩ := exists_enter e l₁
  refine ⟨sessionsOf l.peers.length l₁.peers.length, l₂, ?_, ?_, ?_,
    by rw [hserver₂, hserver₁], by rw [hserver₂, hserver₁], hnow₁.trans hnow₂⟩
  · rw [Dialogue.beside] at henter₁ henter₂ ⊢
    rw [performBeside, Trial.run_bind, henter₁]
    simp only
    rw [Trial.run_bind, henter₂]
    rfl
  · simp only [sessionsOf, hlength]
    omega
  · rintro (_ | _)
    · obtain ⟨p, hp, hidle⟩ := hidle₁
      exact ⟨p, hothers _ _ hp, hidle⟩
    · exact hidle₂

/-- A case is its script, once its sessions stand. -/
theorem exists_trial (e : Endpoint) (config : ConformanceConfig) (draw : Draw) (l : Loopback)
    {c : Case} (hc : c ≠ .pubSub) :
    ∃ session l', (c.trial e config draw).run.beside l =
        (Step.performAll session (c.steps config draw)).run.beside l' ∧
      (c = .txWatch → session .rival ≠ session .checker) ∧
      Stands session (newcomer e) l.server.divergence l.server.store l.now l' := by
  by_cases hwatch : c = .txWatch
  · subst hwatch
    obtain ⟨session, l', hrun, hsessions, hstands⟩ := exists_performBeside e
      (fun () => Case.txWatch.steps config draw) l
    exact ⟨session, l', hrun, fun _ => hsessions, hstands⟩
  · rw [Case.trial_eq_performAlone hc hwatch]
    obtain ⟨session, l', hrun, hstands⟩ := exists_performAlone e (fun () => c.steps config draw) l
    exact ⟨session, l', hrun, fun h => absurd h hwatch, hstands⟩

/-- A case passes if its script passes from sessions that were just opened. -/
theorem Case.passes_of_steps (e : Endpoint) (config : ConformanceConfig) (draw : Draw)
    (l : Loopback) {c : Case} (hc : c ≠ .pubSub)
    (h : ∀ session : Party → Nat, (c = .txWatch → session .rival ≠ session .checker) →
      ∃ after, Passes session
        (Stands session (newcomer e) l.server.divergence l.server.store l.now)
        (c.steps config draw) after) :
    ((c.trial e config draw).run.beside l).1 = .ok () := by
  obtain ⟨session, l', hrun, hsessions, hstands⟩ := exists_trial e config draw l hc
  obtain ⟨after, hpasses⟩ := h session hsessions
  obtain ⟨l'', hok, -⟩ := hpasses l' hstands
  rw [hrun, hok]

/-- A case fails if its script fails from sessions that were just opened. -/
theorem Case.fails_of_steps (e : Endpoint) (config : ConformanceConfig) (draw : Draw)
    (l : Loopback) {c : Case} (hc : c ≠ .pubSub)
    (h : ∀ session : Party → Nat, (c = .txWatch → session .rival ≠ session .checker) →
      Fails session (Stands session (newcomer e) l.server.divergence l.server.store l.now)
        (c.steps config draw)) :
    ∃ failure, ((c.trial e config draw).run.beside l).1 = .error failure := by
  obtain ⟨session, l', hrun, hsessions, hstands⟩ := exists_trial e config draw l hc
  obtain ⟨failure, l'', herror⟩ := h session hsessions l' hstands
  exact ⟨failure, by rw [hrun, herror]⟩

/-- A session that was opened stands as the session under test. -/
theorem standsAs_newcomer (session : Party → Nat) (e : Endpoint) (d : Divergence) (s : Store)
    (moment : Nat) : StandsAs session (newcomer e) (newcomer e (session .checker)) d s moment =
      Stands session (newcomer e) d s moment := by
  rw [StandsAs, Function.update_eq_self]

/-! ## What a case needs -/

/-- Whether the settings that the cases multiply, divide or wait by are positive. -/
structure ConformanceConfig.Positive (c : ConformanceConfig) : Prop where
  kvSize : 0 < c.kvSize
  txSize : 0 < c.txSize
  mergeSize : 0 < c.mergeSize
  textLength : 0 < c.textLength
  expireSeconds : 0 < c.expireSeconds
  expireMillis : 0 < c.expireMillis
  mergeVersions : 0 < c.mergeVersions
  mergeDeleteEvery : 0 < c.mergeDeleteEvery

/-- Whether the settings provide what a case needs of them. -/
structure Case.Served (config : ConformanceConfig) (c : Case) : Prop where
  seconds : c = .setEx → config.expireSeconds ≠ 0
  millis : c = .setPx → config.expireMillis ≠ 0
  versions : c = .merge → config.mergeVersions ≠ 0

theorem ConformanceConfig.Positive.served {config : ConformanceConfig} (h : config.Positive)
    (c : Case) : c.Served config where
  seconds := fun _ => (UInt64.ne_of_lt h.expireSeconds).symm
  millis := fun _ => (UInt64.ne_of_lt h.expireMillis).symm
  versions := fun _ => (UInt64.ne_of_lt h.mergeVersions).symm

/-- Whether a draw fits into memory, with what the scripts add to its texts. -/
structure Draw.Fits (draw : Draw) : Prop where
  size : draw.data.size + 1 < 2 ^ 63
  pairs : ShortAll draw.data.pairs
  fresh : ∀ i, Short (draw.fresh i)
  watched : Short draw.watched
  rival : Short draw.rival

/-- Whether a server keeps to what a case is about. -/
def Divergence.spares (d : Divergence) : Case → Bool
  | .setNx => !d.replacesPresent
  | .txAtomic => !d.keepsFailedBlocks
  | .txDiscard => !d.appliesDiscarded
  | .txWatch => !d.ignoresWatches
  | .pubSub => !d.dropsMessages
  | .merge => !d.restoresDeleted
  | .setGet | .setEx | .setPx | .setXx | .setGetOption | .del => true
  | .txCommit | .txInvalidCommand => true

section Cases

variable {config : ConformanceConfig} (hconfig : config.Positive) {draw : Draw} (hfits : draw.Fits)
  {d : Divergence} (hd : d.deniesWrites = false) {s : Store} {moment : Nat}
  (hfresh : ∀ key ∈ draw.data.keys, s.live? moment (payload key) = none) {e : Endpoint}
  {session : Party → Nat} {c : Case} (hc : c ≠ .pubSub)

/-! ## Scripts -/

include hconfig hfits hd hfresh hc

omit hconfig in
/-- A script passes beside a server that keeps to what its case is about. -/
theorem Case.passes_steps (hserved : c.Served config) (hspares : d.spares c = true)
    (hwatch : c = .txWatch →
      draw.watched ∉ draw.data.keys ∧ session .rival ≠ session .checker) :
    ∃ after, Passes session (Stands session (newcomer e) d s moment) (c.steps config draw)
      after := by
  have hkeeps : ∀ key ∈ draw.data.keys, s.Keeps moment (payload key) none :=
    fun key hkey => Store.keeps_none (hfresh key hkey)
  have hsize : draw.data.size < 2 ^ 63 := Nat.lt_of_succ_lt hfits.size
  have hrest := atRest_newcomer e (session .checker)
  cases c with
  | setGet => exact ⟨_, passes_setGet rfl hd hfits.pairs⟩
  | setEx => exact ⟨_, passes_setEx rfl (hserved.seconds rfl) hfits.pairs⟩
  | setPx => exact ⟨_, passes_setPx rfl (hserved.millis rfl) hfits.pairs⟩
  | setNx =>
    have hkept : d.replacesPresent = false := by simpa [Divergence.spares] using hspares
    exact ⟨_, passes_setNx rfl hd hfits.pairs hkept hfits.fresh hkeeps⟩
  | setXx => exact ⟨_, passes_setXx rfl hd hfits.pairs hkeeps⟩
  | setGetOption => exact ⟨_, passes_setGetOption rfl hd hfits.pairs hkeeps⟩
  | del => exact ⟨_, passes_del rfl hd hfits.pairs⟩
  | txAtomic =>
    have hrolled : d.keepsFailedBlocks = false := by simpa [Divergence.spares] using hspares
    rw [← standsAs_newcomer]
    exact ⟨_, passes_txAtomic hrest hd hfits.pairs hrolled hkeeps⟩
  | txCommit =>
    rw [← standsAs_newcomer]
    exact ⟨_, passes_txCommit hrest hd hfits.pairs hsize⟩
  | txDiscard =>
    have hdiscarded : d.appliesDiscarded = false := by simpa [Divergence.spares] using hspares
    rw [← standsAs_newcomer]
    exact ⟨_, passes_txDiscard hrest hd hfits.pairs hdiscarded hsize⟩
  | txInvalidCommand =>
    rw [← standsAs_newcomer]
    exact ⟨_, passes_txInvalidCommand hrest hd hfits.pairs hsize⟩
  | txWatch =>
    have hheeded : d.ignoresWatches = false := by simpa [Divergence.spares] using hspares
    obtain ⟨hnew, hsessions⟩ := hwatch rfl
    rw [← standsAs_newcomer]
    exact ⟨_, passes_txWatch hrest hd hfits.pairs hfits.watched hfits.rival hsessions rfl hheeded
      hnew⟩
  | pubSub => exact absurd rfl hc
  | merge =>
    have hforgotten : d.restoresDeleted = false := by simpa [Divergence.spares] using hspares
    have hversions : 0 < config.mergeVersions.toNat :=
      Nat.pos_of_ne_zero fun h => hserved.versions rfl (UInt64.toNat_inj.1 h)
    exact ⟨_, passes_merge rfl hd hfits.pairs hsize config.mergeVersions.toNat_lt hversions
      hforgotten⟩

/-- A script fails beside a server that does not keep to what its case is about, if it has two pairs
to work with. -/
theorem Case.fails_steps (hspares : d.spares c = false) (hsize : 0 < draw.data.size)
    (hpairs : c = .txAtomic → 2 ≤ draw.data.size)
    (hwatch : c = .txWatch → session .rival ≠ session .checker) :
    Fails session (Stands session (newcomer e) d s moment) (c.steps config draw) := by
  have hkeeps : ∀ key ∈ draw.data.keys, s.Keeps moment (payload key) none :=
    fun key hkey => Store.keeps_none (hfresh key hkey)
  have hlimit : draw.data.size < 2 ^ 63 := Nat.lt_of_succ_lt hfits.size
  have hnonempty : draw.data.pairs ≠ [] := List.ne_nil_of_length_pos hsize
  have hrest := atRest_newcomer e (session .checker)
  cases c with
  | setGet | setEx | setPx | setXx | setGetOption | del | txCommit | txInvalidCommand =>
    simp [Divergence.spares] at hspares
  | setNx =>
    have hreplaced : d.replacesPresent = true := by simpa [Divergence.spares] using hspares
    exact fails_setNx rfl hd hfits.pairs hreplaced hnonempty hfits.fresh
  | txAtomic =>
    have hkept : d.keepsFailedBlocks = true := by simpa [Divergence.spares] using hspares
    rw [← standsAs_newcomer]
    exact fails_txAtomic hrest hd hfits.pairs hkept (hpairs rfl) hkeeps
  | txDiscard =>
    have happlied : d.appliesDiscarded = true := by simpa [Divergence.spares] using hspares
    rw [← standsAs_newcomer]
    exact fails_txDiscard hrest hd hfits.pairs happlied hnonempty hlimit
  | txWatch =>
    have hignored : d.ignoresWatches = true := by simpa [Divergence.spares] using hspares
    rw [← standsAs_newcomer]
    exact fails_txWatch hrest hd hfits.pairs hfits.watched hfits.rival (hwatch rfl) rfl hignored
      hfits.size
  | pubSub => exact absurd rfl hc
  | merge =>
    have hrestored : d.restoresDeleted = true := by simpa [Divergence.spares] using hspares
    exact fails_merge rfl hd hfits.pairs hlimit config.mergeVersions.toNat_lt
      (UInt64.lt_iff_toNat_lt.1 hconfig.mergeVersions) hrestored hnonempty

end Cases

/-! ## Cases -/

section Trials

variable (e : Endpoint) {config : ConformanceConfig} (hconfig : config.Positive) {draw : Draw}
  (hfits : draw.Fits) (l : Loopback)
  (hfresh : ∀ key ∈ draw.data.keys, l.server.store.live? l.now (payload key) = none)
  {c : Case} (hc : c ≠ .pubSub)

include hconfig hfits hfresh hc

omit hconfig in
/-- A case whose needs are served passes beside a server that keeps to what it is about. -/
theorem Case.passes_of_served (hserved : c.Served config)
    (hd : l.server.divergence.deniesWrites = false) (hspares : l.server.divergence.spares c = true)
    (hwatched : c = .txWatch → draw.watched ∉ draw.data.keys) :
    ((c.trial e config draw).run.beside l).1 = .ok () :=
  Case.passes_of_steps e config draw l hc fun _ hsessions =>
    Case.passes_steps hfits hd hfresh hc hserved hspares fun h => ⟨hwatched h, hsessions h⟩

/-- A case passes beside a server that keeps to what the case is about. -/
theorem Case.passes_of_spares (hd : l.server.divergence.deniesWrites = false)
    (hspares : l.server.divergence.spares c = true)
    (hwatched : c = .txWatch → draw.watched ∉ draw.data.keys) :
    ((c.trial e config draw).run.beside l).1 = .ok () :=
  Case.passes_of_served e hfits l hfresh hc (hconfig.served c) hd hspares hwatched

/-- A case fails beside a server that does not, if it has pairs enough to work with. -/
theorem Case.fails_of_not_spares (hd : l.server.divergence.deniesWrites = false)
    (hspares : l.server.divergence.spares c = false) (hsize : 0 < draw.data.size)
    (hpairs : c = .txAtomic → 2 ≤ draw.data.size) :
    ∃ failure, ((c.trial e config draw).run.beside l).1 = .error failure :=
  Case.fails_of_steps e config draw l hc fun _ hsessions =>
    Case.fails_steps hconfig hfits hd hfresh hc hspares hsize hpairs hsessions

/-- No case raises a false alarm: beside a server that conforms to the contract each one passes. -/
theorem Case.passes_beside_conforming (hconforms : l.server.divergence = {})
    (hwatched : c = .txWatch → draw.watched ∉ draw.data.keys) :
    ((c.trial e config draw).run.beside l).1 = .ok () := by
  refine Case.passes_of_spares e hconfig hfits l hfresh hc ?_ ?_ hwatched
  · rw [hconforms]
  · rw [hconforms]
    cases c <;> rfl

end Trials

/-- A draw of two pairs. -/
def twoPairs : Draw where
  data := .ofPairs [("a", "1"), ("b", "2")]
  fresh := fun _ => "fresh"
  watched := "w"
  rival := "other"

theorem fits_twoPairs : twoPairs.Fits where
  size := by decide
  pairs := by decide
  fresh := fun _ => (by decide : Short "fresh")
  watched := by decide
  rival := by decide

/-- Settings for so many pairs. -/
def twoPairsEach : ConformanceConfig := { kvSize := 2, txSize := 2, mergeSize := 2 }

theorem positive_twoPairsEach : twoPairsEach.Positive := by
  constructor <;> decide

/-- A server that holds a value under another key, and takes its time. -/
theorem Case.txWatch_passes_beside_conforming :
    ((Case.txWatch.trial {} twoPairsEach twoPairs).run.beside
      { server := { store := ({} : Store).put (payload "c") ⟨payload "3", none⟩ }
        now := 7
        lags := [1, 0, 2] }).1 = .ok () :=
  Case.passes_beside_conforming {} positive_twoPairsEach fits_twoPairs _ (by decide) (by decide) rfl
    fun _ => by decide

/-! ## Servers with one fault -/

/-- The servers with one fault, each with the case that is about the fault. -/
def Divergence.single : List (Divergence × Case) :=
  [({ replacesPresent := true }, .setNx), ({ keepsFailedBlocks := true }, .txAtomic),
    ({ ignoresWatches := true }, .txWatch), ({ appliesDiscarded := true }, .txDiscard),
    ({ restoresDeleted := true }, .merge)]

/-- A server with one fault keeps to what all cases but one are about. -/
theorem Divergence.spares_single : ∀ fault ∈ single, ∀ c ∈ Case.all, c ≠ .pubSub →
    fault.1.spares c = decide (c ≠ fault.2) := by decide

theorem Divergence.deniesWrites_single : ∀ fault ∈ single, fault.1.deniesWrites = false := by
  decide

/-- A case has pairs to work with if the settings are positive. -/
theorem Case.size_pos {config : ConformanceConfig} (hconfig : config.Positive) {c : Case}
    (hc : c ≠ .pubSub) : 0 < c.size config := by
  have hkv := UInt64.lt_iff_toNat_lt.1 hconfig.kvSize
  have htx := UInt64.lt_iff_toNat_lt.1 hconfig.txSize
  have hmerge := UInt64.lt_iff_toNat_lt.1 hconfig.mergeSize
  cases c <;> first | exact hkv | exact htx | exact hmerge | exact absurd rfl hc

/-- A server with one fault fails the case about the fault, and no other. -/
theorem Case.diagnoses_fault (e : Endpoint) {config : ConformanceConfig} (hconfig : config.Positive)
    (htx : 2 ≤ config.txSize) {draw : Draw} (hfits : draw.Fits) (l : Loopback) {victim : Case}
    (hfault : (l.server.divergence, victim) ∈ Divergence.single)
    (hfresh : ∀ key ∈ draw.data.keys, l.server.store.live? l.now (payload key) = none)
    {c : Case} (hc : c ≠ .pubSub) (hsize : draw.data.size = c.size config)
    (hwatched : c = .txWatch → draw.watched ∉ draw.data.keys) :
    if c = victim then ∃ failure, ((c.trial e config draw).run.beside l).1 = .error failure
    else ((c.trial e config draw).run.beside l).1 = .ok () := by
  have hd := Divergence.deniesWrites_single _ hfault
  have hspares := Divergence.spares_single _ hfault c (Case.mem_all c) hc
  split
  · next hvictim =>
    refine Case.fails_of_not_spares e hconfig hfits l hfresh hc hd ?_ ?_ fun h => ?_
    · rw [hspares]
      simp [hvictim]
    · rw [hsize]
      exact Case.size_pos hconfig hc
    · rw [hsize, h]
      exact UInt64.le_iff_toNat_le.1 htx
  · next hother =>
    refine Case.passes_of_spares e hconfig hfits l hfresh hc hd ?_ hwatched
    rw [hspares]
    simp [hother]

/-- A server that applies discarded blocks. -/
def discardApplier : Loopback := { server := { divergence := { appliesDiscarded := true } } }

/-- Where discarded blocks are applied, the case about them fails and the one about watched keys has
nothing to find. -/
theorem Case.diagnoses_discardApplier :
    (∃ failure,
      ((Case.txDiscard.trial {} twoPairsEach twoPairs).run.beside discardApplier).1 =
        .error failure) ∧
    ((Case.txWatch.trial {} twoPairsEach twoPairs).run.beside discardApplier).1 = .ok () :=
  have hfault : (discardApplier.server.divergence, Case.txDiscard) ∈ Divergence.single := by decide
  ⟨Case.diagnoses_fault {} positive_twoPairsEach (by decide) fits_twoPairs discardApplier hfault
      (by decide) (by decide : Case.txDiscard ≠ .pubSub) (by decide) fun h => absurd h (by decide),
    Case.diagnoses_fault {} positive_twoPairsEach (by decide) fits_twoPairs discardApplier hfault
      (by decide) (by decide : Case.txWatch ≠ .pubSub) (by decide) fun _ => by decide⟩

end StoreTrial
