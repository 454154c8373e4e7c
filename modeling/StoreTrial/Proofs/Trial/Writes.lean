import StoreTrial.Proofs.Trial.Steps

/-!
# Cases about writes beside a server

Each of these cases passes beside a server that keeps to what the case is about, whatever the server
stored before; the ones about conditions only need that the keys are not live. The loops carry the
pairs behind them: the store is the one in which just these have been written.

## Main results

* `passes_setGet`, `passes_del`, `passes_expiring`, `passes_setXx`, `passes_setGetOption` — these
  cases only depend on writes being answered.
* `passes_setNx`, `fails_setNx` — the case about absent keys tells whether they are replaced.
-/

namespace StoreTrial

open Resp (Value)
open Step (payload)

/-! ## Halves -/

namespace Dataset

variable {d : Dataset}

theorem mem_early {pair : String × String} (h : pair ∈ d.early) : pair ∈ d.pairs :=
  List.mem_of_mem_take h

theorem mem_late {pair : String × String} (h : pair ∈ d.late) : pair ∈ d.pairs :=
  List.mem_of_mem_drop h

theorem nodup_halves (d : Dataset) : ((d.early ++ d.late).map Prod.fst).Nodup := by
  rw [early_append_late]
  exact d.nodup

theorem nodup_early (d : Dataset) : (d.early.map Prod.fst).Nodup := by
  have h := d.nodup_halves
  rw [List.map_append] at h
  exact (List.nodup_append.1 h).1

theorem nodup_late (d : Dataset) : (d.late.map Prod.fst).Nodup := by
  have h := d.nodup_halves
  rw [List.map_append] at h
  exact (List.nodup_append.1 h).2.1

/-- No key of the second half is one of the first. -/
theorem not_mem_early {pair : String × String} (h : pair ∈ d.late) :
    pair.1 ∉ d.early.map Prod.fst := by
  have hnodup := d.nodup_halves
  rw [List.map_append] at hnodup
  exact fun hearly => (List.nodup_append.1 hnodup).2.2 _ hearly _ (List.mem_map_of_mem h) rfl

end Dataset

/-- What a round is about is none of what is behind it. -/
theorem not_mem_behind {α : Type} {done rest : List α} {x : α} (h : (done ++ x :: rest).Nodup) :
    x ∉ done :=
  fun hdone => (List.nodup_append.1 h).2.2 x hdone x (.head _) rfl

/-- The key of a round is none of those behind it. -/
theorem not_mem_done {done rest : List (String × String)} {pair : String × String}
    (h : ((done ++ pair :: rest).map Prod.fst).Nodup) : pair.1 ∉ done.map Prod.fst := by
  rw [List.map_append, List.map_cons] at h
  exact not_mem_behind h

theorem modifiedAll_append (xs ys : List (String × String)) :
    Script.modifiedAll (xs ++ ys) = Script.modifiedAll xs ++ Script.modifiedAll ys :=
  List.map_append

theorem map_fst_modifiedAll (pairs : List (String × String)) :
    (Script.modifiedAll pairs).map Prod.fst = pairs.map Prod.fst := by
  simp [Script.modifiedAll]

theorem nodup_modifiedAll {pairs : List (String × String)} (h : (pairs.map Prod.fst).Nodup) :
    ((Script.modifiedAll pairs).map Prod.fst).Nodup := by
  rwa [map_fst_modifiedAll]

section Cases

variable {session : Party → Nat} {σ : Nat → ServerSession} {d : Divergence} {s : Store}
  {moment : Nat} {data : Dataset} (hblock : (σ (session .checker)).block = none)

include hblock

/-! ## Plain writes and deletions -/

/-- What is written can be read. -/
theorem passes_setGet (hd : d.deniesWrites = false) (hshort : ShortAll data.pairs) :
    Passes session (Stands session σ d s moment) (Script.setGet data)
      (Stands session σ d (s.putAll data.pairs) moment) :=
  (passes_storeAll hd hblock hshort.sendable).append <|
    passes_readAll hblock hshort.sendable fun _ hpair =>
      Store.keeps_putAll data.nodup hpair s moment

theorem passes_deleteAgain {key : String} (hkey : Sendable key)
    (h : s.Keeps moment (payload key) none) :
    Passes session (Stands session σ d s moment) (Script.deleteAgain key)
      (Stands session σ d s moment) := by
  refine .cons ?_ (passes_absent hblock hkey h .deletion)
  refine passes_onKeys hblock (Command.onKeys_del _)
    (Command.plain_del hkey) (Value.plain_integer 0) rfl (fun now hnow => ?_) rfl
  have hlive : s.live? now (payload key) = none := h now hnow
  refine (Store.execute_del (Store.word_ofText "DEL" (by decide)) _ _).trans ?_
  simp [Store.delete, hlive]

/-- What is deleted is gone, and is deleted once. -/
theorem passes_del (hd : d.deniesWrites = false) (hshort : ShortAll data.pairs) :
    Passes session (Stands session σ d s moment) (Script.del data)
      (Stands session σ d ((s.putAll data.pairs).removeAll data.keys) moment) := by
  have hsend : ∀ key ∈ data.keys, Sendable key := by
    intro key hkey
    obtain ⟨pair, hpair, rfl⟩ := List.mem_map.1 hkey
    exact (hshort pair hpair).1.sendable
  refine .append (.append (passes_storeAll hd hblock hshort.sendable) (.map
    (fun done => Stands session σ d ((s.putAll data.pairs).removeAll done) moment)
    fun done key rest hkeys => ?_)) ?_
  · have hmem : key ∈ data.keys := by simp [hkeys]
    have hnodup : data.keys.Nodup := data.nodup
    have hnew : key ∉ done := not_mem_behind (hkeys ▸ hnodup)
    rw [Store.removeAll_append]
    obtain ⟨pair, hpair, rfl⟩ := List.mem_map.1 hmem
    exact passes_delete hblock (hsend _ hmem)
      ((Store.keeps_putAll data.nodup hpair s moment).removeAll hnew)
  · refine .flatMap (fun _ => Stands session σ d _ moment) fun done key rest hkeys => ?_
    have hmem : key ∈ data.keys := by simp [hkeys]
    exact passes_deleteAgain hblock (hsend _ hmem) (Store.keeps_removeAll hmem _ moment)

/-! ## Values with a life -/

/-- Every value is gone when its life is over. -/
theorem passes_expiring {life : Expiration} {span : Duration}
    (hset : ∀ now (s : Store) key value,
      Store.set d now s (key :: value :: SetOptions.args { expiration := some life }) =
        (Store.ok, s.put key ⟨value, some (now + span.nanos)⟩))
    (hshort : ShortAll data.pairs) :
    Passes session (Stands session σ d s moment) (Script.expiring life span data)
      (fun l => ∃ s moment, Stands session σ d s moment l) := by
  -- how long a value lives is known from the clock, which has gone on when the next is written
  let expiring (done : List (String × String)) (l : Loopback) : Prop :=
    ∃ s, Stands session σ d s moment l ∧
      ∀ pair ∈ done, s.Keeps (l.now + span.nanos) (payload pair.1) none
  have hwrites : Passes session (expiring [])
      (data.pairs.map fun pair => Script.storeExpiring life pair.1 pair.2)
      (expiring data.pairs) := by
    refine .map expiring ?_
    rintro done ⟨key, value⟩ rest hpairs l ⟨s, h, hdone⟩
    obtain ⟨hkey, hvalue⟩ := hshort.sendable (key, value) (by simp [hpairs])
    have hexecute : s.execute d l.tick.now false
        (Command.set (payload key) (payload value) { expiration := some life }).parts = _ :=
      (Store.execute_set (Store.word_ofText "SET" (by decide)) _).trans
        (hset l.tick.now s (payload key) (payload value))
    obtain ⟨l', hrun, hnow, h'⟩ := h.exists_onKeys hblock (Command.onKeys_set ..)
      (Command.plain_set hkey hvalue _) plain_ok rfl hexecute
      fun reply => faultUnless (reply == .stored) (.expiringWrite key (some life) reply)
    rw [Command.result_set_ok rfl] at hrun
    refine ⟨l', hrun, _, h', fun pair hpair => ?_⟩
    rw [hnow]
    by_cases heq : payload pair.1 = payload key
    · rw [heq]
      refine Store.keeps_none ?_
      simp [Store.live?_put_self, Entry.isLive]
    · have hmem : pair ∈ done := by
        rcases List.mem_append.1 hpair with hmem | hmem
        · exact hmem
        · exact absurd (by rw [List.mem_singleton.1 hmem]) heq
      exact ((hdone pair hmem).of_le (Nat.add_le_add_right (Nat.le_add_right ..) _)).put heq _
  let gone (l : Loopback) : Prop :=
    ∃ s moment, Stands session σ d s moment l ∧
      ∀ pair ∈ data.pairs, s.Keeps moment (payload pair.1) none
  have hpause : Passes session (expiring data.pairs) [.pause span] gone := by
    rintro l ⟨s, h, hall⟩
    obtain ⟨l', hrun, h'⟩ := h.exists_pause span
    exact ⟨l', hrun, s, _, h', hall⟩
  have habsent : Passes session gone (Script.absentAll .expiry data.pairs)
      (fun l => ∃ s moment, Stands session σ d s moment l) := by
    rintro l ⟨s, moment, h, hall⟩
    obtain ⟨l', hrun, h'⟩ := passes_absentAll hblock
      (fun pair hpair => (hshort.sendable pair hpair).1) hall .expiry l h
    exact ⟨l', hrun, s, moment, h'⟩
  intro l h
  exact (hwrites.append (hpause.cons habsent)) l
    ⟨s, h, fun _ hpair => absurd hpair List.not_mem_nil⟩

theorem passes_setEx {config : ConformanceConfig} (hlife : config.expireSeconds ≠ 0)
    (hshort : ShortAll data.pairs) :
    Passes session (Stands session σ d s moment) (Script.setEx config data)
      (fun l => ∃ s moment, Stands session σ d s moment l) := by
  refine passes_expiring hblock (fun now s key value => ?_) hshort
  have hword := Store.word_ofText "EX" (by decide)
  exact Store.set_expiring (fun o => by rw [hword]; rfl) (by rw [hword]; rfl) hlife

theorem passes_setPx {config : ConformanceConfig} (hlife : config.expireMillis ≠ 0)
    (hshort : ShortAll data.pairs) :
    Passes session (Stands session σ d s moment) (Script.setPx config data)
      (fun l => ∃ s moment, Stands session σ d s moment l) := by
  refine passes_expiring hblock (fun now s key value => ?_) hshort
  have hword := Store.word_ofText "PX" (by decide)
  exact Store.set_expiring (fun o => by rw [hword]; rfl) (by rw [hword]; rfl) hlife

/-- A life that the server refuses fails the first write. -/
theorem fails_expiring {life : Expiration} {span : Duration}
    (hset : ∀ now (s : Store) key value,
      Store.set d now s (key :: value :: SetOptions.args { expiration := some life }) =
        (.error Store.badLife, s))
    (hshort : ShortAll data.pairs) (hnonempty : data.pairs ≠ []) :
    Fails session (Stands session σ d s moment) (Script.expiring life span data) := by
  obtain ⟨⟨key, value⟩, rest, hpairs⟩ := List.exists_cons_of_ne_nil hnonempty
  obtain ⟨hkey, hvalue⟩ := hshort.sendable (key, value) (by simp [hpairs])
  have hrefused : (Value.error Store.badLife).Plain := Value.plain_error (by decide +kernel)
  have hwrite : Fails session (Stands session σ d s moment)
      [Script.storeExpiring life key value] :=
    fails_onKeys hblock (Command.onKeys_set ..) (Command.plain_set hkey hvalue _) hrefused rfl
      (fun now _ => (Store.execute_set (Store.word_ofText "SET" (by decide)) _).trans
        (hset now s (payload key) (payload value))) rfl
  rw [Script.expiring, hpairs]
  exact hwrite.cons _

theorem fails_setEx {config : ConformanceConfig} (hlife : config.expireSeconds = 0)
    (hshort : ShortAll data.pairs) (hnonempty : data.pairs ≠ []) :
    Fails session (Stands session σ d s moment) (Script.setEx config data) := by
  rw [Script.setEx, hlife]
  refine fails_expiring hblock (fun now s key value => ?_) hshort hnonempty
  have hword := Store.word_ofText "EX" (by decide)
  exact Store.set_lifeless (fun o => by rw [hword]; rfl) (by rw [hword]; rfl)

theorem fails_setPx {config : ConformanceConfig} (hlife : config.expireMillis = 0)
    (hshort : ShortAll data.pairs) (hnonempty : data.pairs ≠ []) :
    Fails session (Stands session σ d s moment) (Script.setPx config data) := by
  rw [Script.setPx, hlife]
  refine fails_expiring hblock (fun now s key value => ?_) hshort hnonempty
  have hword := Store.word_ofText "PX" (by decide)
  exact Store.set_lifeless (fun o => by rw [hword]; rfl) (by rw [hword]; rfl)

/-! ## Conditional writes -/

section StoreIf

variable {key value : String} {failure : String → SetReply → CaseFailure} (hkey : Sendable key)
  (hvalue : Sendable value)

include hkey hvalue

/-- A write on the condition of absence keeps a value that is held. -/
theorem passes_kept (hd : d.replacesPresent = false) {bytes : Bytes}
    (h : s.Keeps moment (payload key) (some bytes)) :
    Passes session (Stands session σ d s moment)
      [Script.storeIf .ifAbsent .notStored failure key value] (Stands session σ d s moment) := by
  refine passes_set hblock hkey hvalue Value.plain_null rfl (fun now hnow => ?_)
    (Command.result_set_null rfl) rfl
  refine (Store.set_ifAbsent (Store.word_ofText "NX" (by decide))).trans ?_
  simp [h now hnow, hd]

/-- A write on the condition of absence that is applied all the same is at fault. -/
theorem fails_kept (hd : d.replacesPresent = true) :
    Fails session (Stands session σ d s moment)
      [Script.storeIf .ifAbsent .notStored failure key value] := by
  have hexecute : ∀ now, moment ≤ now → s.execute d now false (Command.set (payload key)
      (payload value) { condition := some .ifAbsent }).parts =
        (Store.ok, s.put (payload key) ⟨payload value, none⟩) := by
    intro now _
    refine (Store.execute_set (Store.word_ofText "SET" (by decide)) _).trans ?_
    refine (Store.set_ifAbsent (Store.word_ofText "NX" (by decide))).trans ?_
    simp [hd]
  have hfault : verdict (fun reply => faultUnless (reply == .notStored) (failure key reply))
      ((Command.set (payload key) (payload value) { condition := some .ifAbsent }).result
        Store.ok) = .error (failure key .stored) := by
    rw [Command.result_set_ok rfl]
    rfl
  exact fails_onKeys hblock (Command.onKeys_set ..) (Command.plain_set hkey hvalue _) plain_ok rfl
    hexecute hfault

/-- A write on the condition of absence creates a key. -/
theorem passes_created (h : s.Keeps moment (payload key) none) :
    Passes session (Stands session σ d s moment)
      [Script.storeIf .ifAbsent .stored failure key value]
      (Stands session σ d (s.put (payload key) ⟨payload value, none⟩) moment) := by
  refine passes_set hblock hkey hvalue plain_ok rfl (fun now hnow => ?_)
    (Command.result_set_ok rfl) rfl
  have hlive : s.live? now (payload key) = none := h now hnow
  refine (Store.set_ifAbsent (Store.word_ofText "NX" (by decide))).trans ?_
  simp [hlive]

/-- A write on the condition of presence replaces a value. -/
theorem passes_replaced {bytes : Bytes} (h : s.Keeps moment (payload key) (some bytes)) :
    Passes session (Stands session σ d s moment)
      [Script.storeIf .ifPresent .stored failure key value]
      (Stands session σ d (s.put (payload key) ⟨payload value, none⟩) moment) := by
  refine passes_set hblock hkey hvalue plain_ok rfl (fun now hnow => ?_)
    (Command.result_set_ok rfl) rfl
  refine (Store.set_ifPresent (Store.word_ofText "XX" (by decide))).trans ?_
  simp [h now hnow]

/-- A write on the condition of presence creates nothing. -/
theorem passes_refused (h : s.Keeps moment (payload key) none) :
    Passes session (Stands session σ d s moment)
      [Script.storeIf .ifPresent .notStored failure key value] (Stands session σ d s moment) := by
  refine passes_set hblock hkey hvalue Value.plain_null rfl (fun now hnow => ?_)
    (Command.result_set_null rfl) rfl
  have hlive : s.live? now (payload key) = none := h now hnow
  refine (Store.set_ifPresent (Store.word_ofText "XX" (by decide))).trans ?_
  simp [hlive]

end StoreIf

omit hblock in
/-- The first pairs are written, and the others are still absent. -/
theorem keeps_late (hfresh : ∀ key ∈ data.keys, s.Keeps moment (payload key) none)
    {pair : String × String} (hpair : pair ∈ data.late) :
    (s.putAll data.early).Keeps moment (payload pair.1) none :=
  (hfresh _ (List.mem_map_of_mem (Dataset.mem_late hpair))).putAll (Dataset.not_mem_early hpair)

section Conditions

variable (hd : d.deniesWrites = false) (hshort : ShortAll data.pairs)

include hd hshort

theorem passes_storeEarly :
    Passes session (Stands session σ d s moment) (Script.storeAll data.early)
      (Stands session σ d (s.putAll data.early) moment) :=
  passes_storeAll hd hblock fun pair hpair => hshort.sendable pair (Dataset.mem_early hpair)

/-- A write on the condition of absence keeps what is there and creates the rest. -/
theorem passes_setNx (hkept : d.replacesPresent = false) {fresh : Nat → String}
    (hvalues : ∀ i, Short (fresh i))
    (hfresh : ∀ key ∈ data.keys, s.Keeps moment (payload key) none) :
    Passes session (Stands session σ d s moment) (Script.setNx fresh data)
      (Stands session σ d (s.putAll data.pairs) moment) := by
  have hlate : Passes session (Stands session σ d (s.putAll data.early) moment)
      (data.late.map fun pair => Script.storeIf .ifAbsent .stored .notCreated pair.1 pair.2)
      (Stands session σ d (s.putAll data.pairs) moment) := by
    rw [← data.early_append_late, Store.putAll_append]
    refine .map (fun done => Stands session σ d ((s.putAll data.early).putAll done) moment) ?_
    rintro done ⟨key, value⟩ rest hitems
    have hmem : (key, value) ∈ data.late := by simp [hitems]
    obtain ⟨hkey, hvalue⟩ := hshort.sendable _ (Dataset.mem_late hmem)
    rw [Store.putAll_append]
    exact passes_created hblock hkey hvalue
      ((keeps_late hfresh hmem).putAll (not_mem_done (hitems ▸ data.nodup_late)))
  refine .append (.append (.append (passes_storeEarly hblock hd hshort) (.map_of_forall ?_)) hlate)
    (passes_readAll hblock hshort.sendable fun pair hpair =>
      Store.keeps_putAll data.nodup hpair s moment)
  rintro ⟨⟨key, value⟩, i⟩ hmem
  have hearly : (key, value) ∈ data.early := List.fst_mem_of_mem_zipIdx hmem
  exact passes_kept hblock (hshort.sendable _ (Dataset.mem_early hearly)).1 (hvalues i).sendable
    hkept (Store.keeps_putAll data.nodup_early hearly s moment)

/-- Where a write on the condition of absence replaces what is there, the first pair shows it. -/
theorem fails_setNx (hkept : d.replacesPresent = true) (hsize : data.pairs ≠ [])
    {fresh : Nat → String} (hvalues : ∀ i, Short (fresh i)) :
    Fails session (Stands session σ d s moment) (Script.setNx fresh data) := by
  have hearly : data.early ≠ [] := by
    intro h
    rcases List.take_eq_nil_iff.1 h with h | h
    · exact absurd h (Nat.succ_ne_zero _)
    · exact hsize h
  obtain ⟨⟨key, value⟩, rest, hpairs⟩ := List.exists_cons_of_ne_nil hearly
  have hmem : (key, value) ∈ data.early := by simp [hpairs]
  have hfails : Fails session (Stands session σ d (s.putAll data.early) moment)
      (data.early.zipIdx.map fun x =>
        Script.storeIf .ifAbsent .notStored .replaced x.1.1 (fresh x.2)) := by
    rw [hpairs, List.zipIdx_cons, List.map_cons]
    exact (fails_kept hblock (hshort.sendable _ (Dataset.mem_early hmem)).1 (hvalues 0).sendable
      hkept).cons _
  exact (((passes_storeEarly hblock hd hshort).fails_append hfails).append _).append _

/-- A write on the condition of presence replaces what is there and creates nothing. -/
theorem passes_setXx (hfresh : ∀ key ∈ data.keys, s.Keeps moment (payload key) none) :
    Passes session (Stands session σ d s moment) (Script.setXx data)
      (Stands session σ d ((s.putAll data.early).putAll (Script.modifiedAll data.early))
        moment) := by
  have hearly : ShortAll data.early := fun pair hpair => hshort pair (Dataset.mem_early hpair)
  have hlate : ShortAll data.late := fun pair hpair => hshort pair (Dataset.mem_late hpair)
  have hnodup := nodup_modifiedAll data.nodup_early
  have hkeep : ∀ pair ∈ data.late,
      ((s.putAll data.early).putAll (Script.modifiedAll data.early)).Keeps moment
        (payload pair.1) none := by
    intro pair hpair
    refine (keeps_late hfresh hpair).putAll ?_
    rw [map_fst_modifiedAll]
    exact Dataset.not_mem_early hpair
  refine .append (.append (.append (.append (passes_storeEarly hblock hd hshort)
    (.map (fun done => Stands session σ d ((s.putAll data.early).putAll done) moment) ?_))
    (.map_of_forall ?_))
    (passes_readAll hblock hearly.sendable_modifiedAll fun pair hpair =>
      Store.keeps_putAll hnodup hpair _ moment))
    (passes_absentAll hblock (fun pair hpair => (hlate.sendable pair hpair).1) hkeep _)
  · rintro done ⟨key, value⟩ rest hitems
    have hmem : (key, value) ∈ Script.modifiedAll data.early := by simp [hitems]
    obtain ⟨hkey, hvalue⟩ := hearly.sendable_modifiedAll _ hmem
    have hnew := not_mem_done (hitems ▸ hnodup)
    obtain ⟨original, horiginal, heq⟩ := List.mem_map.1 hmem
    cases heq
    rw [Store.putAll_append]
    exact passes_replaced hblock hkey hvalue
      ((Store.keeps_putAll data.nodup_early horiginal s moment).putAll hnew)
  · intro pair hpair
    obtain ⟨hkey, hvalue⟩ := hlate.sendable_modifiedAll _ hpair
    obtain ⟨original, horiginal, rfl⟩ := List.mem_map.1 hpair
    exact passes_refused hblock hkey hvalue (hkeep original horiginal)

/-! ## Writes that return the value held before -/

omit hd hshort in
/-- A write returns what was held before. -/
theorem passes_exchange {key value : String} (hkey : Sendable key)
    (hvalue : Sendable (Script.modified value)) {expected : Option String}
    (hexpected : ∀ text ∈ expected, Sendable text)
    (h : s.Keeps moment (payload key) (expected.map payload)) :
    Passes session (Stands session σ d s moment) [Script.exchange key value expected]
      (Stands session σ d (s.put (payload key) ⟨payload (Script.modified value), none⟩)
        moment) := by
  have hheld : ∀ bytes ∈ expected.map payload, bytes.length < 2 ^ 63 := by
    intro bytes hbytes
    obtain ⟨text, htext, rfl⟩ := Option.mem_map.1 hbytes
    exact hexpected text htext
  refine passes_set hblock hkey hvalue (plain_held _ hheld) ?_ (fun now hnow => ?_)
    (Command.result_set_previous rfl _) ?_
  · cases expected <;> rfl
  · rw [← h now hnow]
    exact Store.set_previous (Store.word_ofText "GET" (by decide))
  · simp [Script.previousFault]

/-- A write can return the value held before, or its absence. -/
theorem passes_setGetOption (hfresh : ∀ key ∈ data.keys, s.Keeps moment (payload key) none) :
    Passes session (Stands session σ d s moment) (Script.setGetOption data)
      (Stands session σ d ((s.putAll data.early).putAll (Script.modifiedAll data.pairs))
        moment) := by
  have hearly : Passes session (Stands session σ d (s.putAll data.early) moment)
      (data.early.map fun pair => Script.exchange pair.1 pair.2 (some pair.2))
      (Stands session σ d ((s.putAll data.early).putAll (Script.modifiedAll data.early))
        moment) := by
    refine .map (fun done =>
      Stands session σ d ((s.putAll data.early).putAll (Script.modifiedAll done)) moment) ?_
    rintro done ⟨key, value⟩ rest hitems
    have hmem : (key, value) ∈ data.early := by simp [hitems]
    obtain ⟨hkey, hvalue⟩ := hshort _ (Dataset.mem_early hmem)
    have hnew : key ∉ (Script.modifiedAll done).map Prod.fst := by
      rw [map_fst_modifiedAll]
      exact not_mem_done (hitems ▸ data.nodup_early)
    rw [modifiedAll_append, Store.putAll_append]
    refine passes_exchange hblock hkey.sendable hvalue.sendable_modified ?_
      ((Store.keeps_putAll data.nodup_early hmem s moment).putAll hnew)
    rintro text ⟨⟩
    exact hvalue.sendable
  have hlate : Passes session
      (Stands session σ d ((s.putAll data.early).putAll (Script.modifiedAll data.early)) moment)
      (data.late.map fun pair => Script.exchange pair.1 pair.2 none)
      (Stands session σ d ((s.putAll data.early).putAll (Script.modifiedAll data.pairs))
        moment) := by
    rw [← data.early_append_late, modifiedAll_append, Store.putAll_append]
    refine .map (fun done => Stands session σ d
      (((s.putAll data.early).putAll (Script.modifiedAll data.early)).putAll
        (Script.modifiedAll done)) moment) ?_
    rintro done ⟨key, value⟩ rest hitems
    have hmem : (key, value) ∈ data.late := by simp [hitems]
    obtain ⟨hkey, hvalue⟩ := hshort _ (Dataset.mem_late hmem)
    have hnew : key ∉ (Script.modifiedAll done).map Prod.fst := by
      rw [map_fst_modifiedAll]
      exact not_mem_done (hitems ▸ data.nodup_late)
    have hother : key ∉ (Script.modifiedAll data.early).map Prod.fst := by
      rw [map_fst_modifiedAll]
      exact Dataset.not_mem_early hmem
    rw [modifiedAll_append, Store.putAll_append]
    exact passes_exchange hblock hkey.sendable hvalue.sendable_modified (by simp)
      (((keeps_late hfresh hmem).putAll hother).putAll hnew)
  refine (((passes_storeEarly hblock hd hshort).append hearly).append hlate).append
    (passes_readAll hblock hshort.sendable_modifiedAll fun pair hpair =>
      Store.keeps_putAll (nodup_modifiedAll data.nodup) hpair _ moment)

end Conditions

end Cases

end StoreTrial
