import StoreTrial.Proofs.Trial.Writes
import StoreTrial.Trial.Compaction

/-!
# The case about compaction beside a server

Before the logs are compacted every key has been written in each version, the last one in the end,
and some keys have been deleted. A server that compacts keeps just that; one that writes its log
again brings the first key back, which is among those that were deleted.

## Main results

* `passes_merge`, `fails_merge` — the case tells whether deleted keys are restored.
-/

namespace StoreTrial

open Resp (Value)
open Step (payload)

/-! ## Versions and deletions -/

namespace Script

/-- The keys that are deleted. -/
def deletedKeys (every : Nat) (d : Dataset) : List String :=
  (d.keys.zipIdx.filter fun (_, i) => i % every == 0).map Prod.fst

variable {d : Dataset} {every : Nat} {pair : String × String} {i : Nat}

theorem map_fst_versionOf (d : Dataset) (version : Nat) :
    (versionOf d version).map Prod.fst = d.keys := by
  have h : (versionOf d version).map Prod.fst = (d.pairs.zipIdx.map Prod.fst).map Prod.fst := by
    rw [versionOf, List.map_map, List.map_map]
    rfl
  rw [h, List.zipIdx_map_fst, Dataset.keys]

theorem nodup_deletedKeys (every : Nat) (d : Dataset) : (deletedKeys every d).Nodup := by
  have h : (deletedKeys every d).Sublist (d.keys.zipIdx.map Prod.fst) :=
    List.filter_sublist.map Prod.fst
  rw [List.zipIdx_map_fst] at h
  exact d.nodup.sublist h

/-- A key is deleted if its index is a multiple. -/
theorem mem_deletedKeys (h : (pair, i) ∈ d.pairs.zipIdx) :
    pair.1 ∈ deletedKeys every d ↔ i % every = 0 := by
  have hget : d.keys[i]? = some pair.1 := by
    rw [Dataset.keys, List.getElem?_map, List.mk_mem_zipIdx_iff_getElem?.1 h]
    rfl
  constructor
  · intro hmem
    obtain ⟨⟨key, j⟩, hfilter, heq⟩ := List.mem_map.1 hmem
    change key = pair.1 at heq
    obtain ⟨hj, hevery⟩ := List.mem_filter.1 hfilter
    have hgetj : d.keys[j]? = some key := List.mk_mem_zipIdx_iff_getElem?.1 hj
    obtain ⟨hlt, -⟩ := List.getElem?_eq_some_iff.1 hget
    rw [(List.getElem?_inj hlt d.nodup).1 (hget.trans (heq ▸ hgetj.symm))]
    simpa using hevery
  · intro hevery
    exact List.mem_map.2 ⟨(pair.1, i), List.mem_filter.2
      ⟨List.mk_mem_zipIdx_iff_getElem?.2 hget, by simpa using hevery⟩, rfl⟩

end Script

section Cases

variable {session : Party → Nat} {σ : Nat → ServerSession} {d : Divergence} {s : Store}
  {moment : Nat} {data : Dataset} {versions every : Nat}

/-! ## What is stored before the logs are compacted -/

/-- The store after all versions of all pairs have been written. -/
def versionedStore (s : Store) (data : Dataset) (versions : List Nat) : Store :=
  (s.putAll data.pairs).putAll (versions.flatMap (Script.versionOf data))

/-- The store after the deletions. -/
def thinnedStore (s : Store) (data : Dataset) (versions every : Nat) : Store :=
  (versionedStore s data (List.range' 1 versions)).removeAll (Script.deletedKeys every data)

/-- Before the deletions every key holds its last version. -/
theorem keeps_versionedStore (hversions : 0 < versions) {key value : String} {i : Nat}
    (h : ((key, value), i) ∈ data.pairs.zipIdx) :
    (versionedStore s data (List.range' 1 versions)).Keeps moment (payload key)
      (some (payload (Script.versioned versions i value))) := by
  obtain ⟨n, rfl⟩ : ∃ n, versions = n + 1 := ⟨versions - 1, by omega⟩
  have hlast : List.range' 1 (n + 1) = List.range' 1 n ++ [n + 1] := by
    rw [List.range'_1_concat, Nat.add_comm 1 n]
  have hmem : (key, Script.versioned (n + 1) i value) ∈ Script.versionOf data (n + 1) :=
    List.mem_map.2 ⟨((key, value), i), h, rfl⟩
  have hnodup : ((Script.versionOf data (n + 1)).map Prod.fst).Nodup := by
    rw [Script.map_fst_versionOf]
    exact data.nodup
  rw [versionedStore, hlast, List.flatMap_append, List.flatMap_singleton, Store.putAll_append]
  exact Store.keeps_putAll hnodup hmem _ moment

/-- After the deletions every other key does. -/
theorem keeps_thinnedStore (hversions : 0 < versions) {key value : String} {i : Nat}
    (h : ((key, value), i) ∈ data.pairs.zipIdx) (hevery : i % every ≠ 0) :
    (thinnedStore s data versions every).Keeps moment (payload key)
      (some (payload (Script.versioned versions i value))) :=
  (keeps_versionedStore hversions h).removeAll fun hmem =>
    hevery ((Script.mem_deletedKeys h).1 hmem)

/-- The deleted keys have no entry. -/
theorem get?_thinnedStore {key value : String} {i : Nat}
    (h : ((key, value), i) ∈ data.pairs.zipIdx) (hevery : i % every = 0) :
    (thinnedStore s data versions every).entries.get? (payload key) = none :=
  (Store.get?_removeAll _ _ key).trans (if_pos ((Script.mem_deletedKeys h).2 hevery))

section Run

variable (hblock : (σ (session .checker)).block = none) (hd : d.deniesWrites = false)
  (hshort : ShortAll data.pairs) (hsize : data.size < 2 ^ 63) (hlimit : versions < 2 ^ 64)

include hshort hsize in
theorem sendable_versioned {version : Nat} (h : version < 2 ^ 64) {key value : String} {i : Nat}
    (hmem : ((key, value), i) ∈ data.pairs.zipIdx) :
    Sendable (Script.versioned version i value) := by
  have hvalue : Short value := (hshort _ (List.fst_mem_of_mem_zipIdx hmem)).2
  have hi : i < data.size := by
    have := List.snd_lt_of_mem_zipIdx hmem
    simpa [Dataset.size] using this
  have hmark : (payload "_").length = 1 := by decide
  have hversion := length_payload_ofNat_le h
  have hindex := length_payload_ofNat_le (n := i) (by omega)
  show (payload (Decimal.ofNat version ++ "_" ++ Decimal.ofNat i ++ "_" ++ value)).length < 2 ^ 63
  simp only [payload_append, List.length_append]
  unfold Short at hvalue
  omega

include hshort hsize in
theorem sendable_versionOf {version : Nat} (h : version < 2 ^ 64) :
    ∀ pair ∈ Script.versionOf data version, Sendable pair.1 ∧ Sendable pair.2 := by
  intro pair hpair
  obtain ⟨⟨⟨key, value⟩, i⟩, hmem, rfl⟩ := List.mem_map.1 hpair
  exact ⟨(hshort _ (List.fst_mem_of_mem_zipIdx hmem)).1.sendable,
    sendable_versioned hshort hsize h hmem⟩

include hblock hd hshort hsize hlimit

/-- Everything up to the deletions. -/
theorem passes_thinned (hversions : 0 < versions) :
    Passes session (Stands session σ d s moment)
      (Script.storeAll data.pairs
        ++ (List.range' 1 versions).flatMap
          (fun version => Script.storeAll (Script.versionOf data version))
        ++ (data.keys.zipIdx.filter fun (_, i) => i % every == 0).map (fun (key, _) => .delete key))
      (Stands session σ d (thinnedStore s data versions every) moment) := by
  have hwrites : Passes session (Stands session σ d (s.putAll data.pairs) moment)
      ((List.range' 1 versions).flatMap
        fun version => Script.storeAll (Script.versionOf data version))
      (Stands session σ d (versionedStore s data (List.range' 1 versions)) moment) := by
    refine .flatMap (fun done => Stands session σ d (versionedStore s data done) moment) ?_
    intro done version rest hversions
    have hmem : version ∈ List.range' 1 versions := by simp [hversions]
    have hlt : version < 2 ^ 64 := by
      have := List.mem_range'_1.1 hmem
      omega
    rw [versionedStore, versionedStore, List.flatMap_append, List.flatMap_singleton,
      Store.putAll_append]
    exact passes_storeAll hd hblock (sendable_versionOf hshort hsize hlt)
  refine ((passes_storeAll hd hblock hshort.sendable).append hwrites).append (.map
    (fun done => Stands session σ d ((versionedStore s data (List.range' 1 versions)).removeAll
      (done.map Prod.fst)) moment) ?_)
  rintro done ⟨key, i⟩ rest hitems
  have hmem : (key, i) ∈ data.keys.zipIdx :=
    (List.mem_filter.1 (hitems ▸ List.mem_append_right _ (.head _))).1
  have hget := List.mk_mem_zipIdx_iff_getElem?.1 hmem
  rw [Dataset.keys, List.getElem?_map] at hget
  obtain ⟨⟨key, value⟩, hpair, rfl⟩ := Option.map_eq_some_iff.1 hget
  have hpairs := List.mk_mem_zipIdx_iff_getElem?.2 hpair
  have hnew : key ∉ done.map Prod.fst := by
    have hnodup := Script.nodup_deletedKeys every data
    rw [Script.deletedKeys, hitems, List.map_append, List.map_cons] at hnodup
    exact not_mem_behind hnodup
  rw [List.map_append, Store.removeAll_append]
  exact passes_delete hblock (hshort _ (List.mem_of_getElem? hpair)).1.sendable
    ((keeps_versionedStore hversions hpairs).removeAll hnew)

/-! ## Compaction -/

/-- Compaction keeps the latest values and no deleted key. -/
theorem passes_merge (hversions : 0 < versions) (hrestores : d.restoresDeleted = false) :
    Passes session (Stands session σ d s moment) (Script.merge versions every data)
      (fun l => ∃ s, Stands session σ d s moment l) := by
  -- what is expired when the logs are compacted depends on the clock, but not what is kept
  let compacted (l : Loopback) : Prop :=
    ∃ s, Stands session σ d s moment l ∧ ∀ key value i, ((key, value), i) ∈ data.pairs.zipIdx →
      s.Keeps moment (payload key)
        (if i % every = 0 then none else some (payload (Script.versioned versions i value)))
  have hmerge : Passes session (Stands session σ d (thinnedStore s data versions every) moment)
      [.command .checker .merge] compacted := by
    intro l h
    have hexecute : (thinnedStore s data versions every).execute d l.tick.now false
        Command.merge.parts =
          (Store.ok, (thinnedStore s data versions every).compact l.tick.now) := by
      refine (Store.execute_merge (Store.word_ofText "MERGE" (by decide))).trans ?_
      simp [Store.merge, hrestores]
    obtain ⟨l', hrun, -, h'⟩ := h.exists_onKeys hblock Command.onKeys_merge
      (Command.plain_bare rfl (by decide : Sendable "MERGE")) plain_ok rfl hexecute fun _ => none
    have hresult : Command.merge.result Store.ok = .ok () := expectText_ok "MERGE"
    refine ⟨l', by rw [hresult] at hrun; exact hrun, _, h', fun key value i hmem => ?_⟩
    split
    · next hevery => exact Store.keeps_compact_none (get?_thinnedStore hmem hevery) _ moment
    · next hevery => exact (keeps_thinnedStore hversions hmem hevery).compact _
  have hreads : Passes session compacted
      (data.pairs.zipIdx.map (Script.compacted versions every))
      (fun l => ∃ s, Stands session σ d s moment l) := by
    rintro l ⟨s, h, hkeeps⟩
    have hall : Passes session (Stands session σ d s moment)
        (data.pairs.zipIdx.map (Script.compacted versions every))
        (Stands session σ d s moment) := by
      refine .map_of_forall ?_
      rintro ⟨⟨key, value⟩, i⟩ hmem
      have hkey : Sendable key := (hshort _ (List.fst_mem_of_mem_zipIdx hmem)).1.sendable
      have hkeep := hkeeps key value i hmem
      by_cases hevery : i % every = 0
      · rw [if_pos hevery] at hkeep
        simpa [Script.compacted, hevery] using passes_absent hblock hkey hkeep .compaction
      · rw [if_neg hevery] at hkeep
        simpa [Script.compacted, hevery] using
          passes_read hblock hkey (sendable_versioned hshort hsize hlimit hmem) hkeep
    obtain ⟨l', hrun, h'⟩ := hall l h
    exact ⟨l', hrun, s, h'⟩
  exact (passes_thinned hblock hd hshort hsize hlimit hversions).append (hmerge.cons hreads)

/-- Where deleted keys are restored, the first key shows it. -/
theorem fails_merge (hversions : 0 < versions) (hrestores : d.restoresDeleted = true)
    (hpairs : data.pairs ≠ []) :
    Fails session (Stands session σ d s moment) (Script.merge versions every data) := by
  have hresult : Command.merge.result Store.ok = .ok () := expectText_ok "MERGE"
  have hexecute : ∀ now, moment ≤ now → (thinnedStore s data versions every).execute d now false
      Command.merge.parts = (Store.ok, (thinnedStore s data versions every).restore) := by
    intro now _
    refine (Store.execute_merge (Store.word_ofText "MERGE" (by decide))).trans ?_
    simp [Store.merge, hrestores]
  have hmerge : Passes session (Stands session σ d (thinnedStore s data versions every) moment)
      [.command .checker .merge]
      (Stands session σ d (thinnedStore s data versions every).restore moment) :=
    passes_onKeys hblock Command.onKeys_merge
      (Command.plain_bare rfl (by decide : Sendable "MERGE")) plain_ok rfl hexecute
      (by rw [hresult]; rfl)
  obtain ⟨⟨key, value⟩, rest, hcons⟩ := List.exists_cons_of_ne_nil hpairs
  have hmem : (key, value) ∈ data.pairs := by simp [hcons]
  -- the first write of the first key is still in the log
  have hlog : (payload key, some (payload value)) ∈ (thinnedStore s data versions every).log := by
    rw [thinnedStore, versionedStore, Store.log_removeAll, Store.log_putAll, Store.log_putAll]
    exact List.mem_append_left _ (List.mem_append_left _ (List.mem_append_right _
      (List.mem_map_of_mem hmem)))
  have habsent : Fails session
      (Stands session σ d (thinnedStore s data versions every).restore moment)
      (data.pairs.zipIdx.map (Script.compacted versions every)) := by
    have hfirst : Script.compacted versions every ((key, value), 0) = .absent .compaction key := by
      simp [Script.compacted]
    rw [hcons, List.zipIdx_cons, List.map_cons, hfirst]
    refine (fails_absent hblock (hshort _ hmem).1.sendable (fun now _ => ?_) .compaction).cons _
    obtain ⟨e, he⟩ := Store.exists_live?_restore hlog now
    rw [he]
    rfl
  exact (passes_thinned hblock hd hshort hsize hlimit hversions).fails_append
    (hmerge.fails_cons habsent)

end Run

end Cases

end StoreTrial
