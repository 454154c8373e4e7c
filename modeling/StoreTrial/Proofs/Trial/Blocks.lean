import StoreTrial.Proofs.Trial.Writes
import StoreTrial.Trial.Blocks

/-!
# Cases about transaction blocks beside a server

The session under test opens a block, queues requests and ends it; in between the store stands still
and only the session changes. Each case comes down to what the end of the block does to the store,
and the reads after it tell whether that was right.

## Main results

* `passes_txCommit`, `passes_txInvalidCommand` — these cases do not depend on how a server diverges,
  as long as it answers writes.
* `passes_txAtomic`, `fails_txAtomic` — the case about failing blocks tells whether they are kept,
  if there are two pairs.
* `passes_txDiscard`, `fails_txDiscard` — the case about discarded blocks tells whether they are
  applied.
* `passes_txWatch`, `fails_txWatch` — the case about watched keys tells whether they are ignored, if
  the watched key is new.
-/

namespace StoreTrial

open Resp (Value)
open Step (payload)
open Store (storeRequest deleteRequest)

/-! ## What answers mean -/

theorem plain_queued : (Value.simple "QUEUED").Plain := Value.plain_simple (by decide +kernel)

theorem result_queued (c : Command) :
    (Command.queued c).result (.simple "QUEUED") = .ok .queued := by
  have hreads : (Value.simple "QUEUED").reads "QUEUED" = true := by decide +kernel
  show expectQueued c.name (.simple "QUEUED") = _
  simp [expectQueued, hreads]

/-- Whether a session has no block open and watches nothing. -/
structure ServerSession.AtRest (τ : ServerSession) : Prop where
  block : τ.block = none
  watched : τ.watched = []
  spoiled : τ.spoiled = false

/-- A session that watches nothing finds nothing changed. -/
theorem ServerSession.AtRest.hasChanged_eq {τ : ServerSession} (h : τ.AtRest) (s : Store) :
    Server.hasChanged s τ.watched = false := by
  rw [h.watched]
  rfl

section Blocks

variable {session : Party → Nat} {σ : Nat → ServerSession} {τ : ServerSession} {d : Divergence}
  {s : Store} {moment : Nat} {data : Dataset} {requests : List (List Bytes)}

/-! ## Steps of the session under test -/

/-- What is known when the session under test stands in one way, and the others in theirs. -/
abbrev StandsAs (session : Party → Nat) (σ : Nat → ServerSession) (τ : ServerSession)
    (d : Divergence) (s : Store) (moment : Nat) : Loopback → Prop :=
  Stands session (Function.update σ (session .checker) τ) d s moment

section Checker

variable {c : Command} (hc : c.toFrame.Plain) {v : Value} (hv : v.Plain) (hpush : v.isPush = false)
  {τ' : ServerSession} {s' : Store}
  (hhandle : ∀ now (server : Server), moment ≤ now → server.divergence = d → server.store = s →
    server.handle now τ c.toFrame = Server.reply v τ' { server with store := s' })
  {fault : c.Output → Option CaseFailure}

include hc hv hpush hhandle

theorem passes_checker (hfault : verdict fault (c.result v) = .ok ()) :
    Passes session (StandsAs session σ τ d s moment)
      [.expect .checker c fault]
      (StandsAs session σ τ' d s' moment) := by
  have h := passes_expect (σ := Function.update σ (session .checker) τ) hc hv hpush
    (fun now server hnow hd hs => by
      rw [Function.update_self]
      exact hhandle now server hnow hd hs) hfault
  rwa [Function.update_idem] at h

theorem fails_checker {failure : CaseFailure}
    (hfault : verdict fault (c.result v) = .error failure) :
    Fails session (StandsAs session σ τ d s moment)
      [.expect .checker c fault] :=
  fails_expect (σ := Function.update σ (session .checker) τ) hc hv hpush
    (fun now server hnow hd hs => by
      rw [Function.update_self]
      exact hhandle now server hnow hd hs) hfault

end Checker

theorem block_closed : (Function.update σ (session .checker) (Server.closed τ)
    (session .checker)).block = none := by
  rw [Function.update_self]
  rfl

/-- A session with a block open in which requests are queued. -/
def opened (τ : ServerSession) (requests : List (List Bytes)) : ServerSession :=
  { τ with block := some requests }

theorem passes_multi (hblock : τ.block = none) (hspoiled : τ.spoiled = false) :
    Passes session (StandsAs session σ τ d s moment) [.command .checker .multi]
      (StandsAs session σ (opened τ []) d s moment) := by
  have hsend : Command.multi.toFrame.Plain :=
    Command.plain_bare rfl (by decide : Sendable "MULTI")
  refine passes_checker hsend plain_ok rfl (fun now server _ hd hs => ?_) ?_
  · rw [Server.handle_multi hblock, ← hs, opened, ← hspoiled]
  · show verdict _ (expectText "OK" "MULTI" Store.ok) = _
    rw [expectText_ok]
    rfl

/-- A request on keys is queued. -/
theorem passes_queued {c : Command} (hkeys : c.OnKeys) (hc : c.toFrame.Plain)
    {fault : QueueReply → Option CaseFailure} (hfault : fault .queued = none) :
    Passes session
      (StandsAs session σ (opened τ requests) d s moment)
      [.expect .checker (.queued c) fault]
      (StandsAs session σ (opened τ (requests ++ [c.parts])) d s
        moment) := by
  refine passes_checker (c := .queued c) hc plain_queued rfl (fun now server _ hd hs => ?_) ?_
  · subst hs
    have hblock : (opened τ requests).block = some requests := rfl
    exact Server.handle_queued hblock hkeys
  · rw [result_queued, verdict, hfault]
    rfl

/-- Requests on keys are queued one by one. -/
theorem passes_queueEach {α : Type} {items : List α} {step : α → Step} {c : α → Command}
    (hkeys : ∀ x, (c x).OnKeys) (hsend : ∀ x ∈ items, (c x).toFrame.Plain)
    (hstep : ∀ x, ∃ fault, fault .queued = none ∧ step x = .expect .checker (.queued (c x)) fault) :
    Passes session (StandsAs session σ (opened τ requests) d s moment) (items.map step)
      (StandsAs session σ (opened τ (requests ++ items.map fun x => (c x).parts)) d s moment) := by
  let queued (done : List α) : Loopback → Prop :=
    StandsAs session σ (opened τ (requests ++ done.map fun x => (c x).parts)) d s moment
  have hloop : Passes session (queued []) (items.map step) (queued items) := by
    refine .map queued ?_
    rintro done x rest rfl
    obtain ⟨fault, hfault, hx⟩ := hstep x
    simp only [queued]
    rw [hx, List.map_append, ← List.append_assoc]
    exact passes_queued (hkeys x) (hsend x (by simp)) hfault
  simpa [queued] using hloop

section Stores

variable {pairs : List (String × String)}
  (hsend : ∀ pair ∈ pairs, Sendable pair.1 ∧ Sendable pair.2)

include hsend

theorem passes_queueAll :
    Passes session (StandsAs session σ (opened τ requests) d s moment) (Script.queueAll pairs)
      (StandsAs session σ (opened τ (requests ++ pairs.map storeRequest)) d s moment) :=
  passes_queueEach (fun _ => Command.onKeys_set ..)
    (fun pair hpair => Command.plain_set (hsend pair hpair).1 (hsend pair hpair).2 {})
    fun _ => ⟨_, rfl, rfl⟩

theorem passes_tryStores :
    Passes session (StandsAs session σ (opened τ requests) d s moment)
      (pairs.map fun (key, value) => .tryStore key value)
      (StandsAs session σ (opened τ (requests ++ pairs.map storeRequest)) d s moment) :=
  passes_queueEach (fun _ => Command.onKeys_set ..)
    (fun pair hpair => Command.plain_set (hsend pair hpair).1 (hsend pair hpair).2 {})
    fun _ => ⟨_, rfl, rfl⟩

end Stores

theorem passes_tryDeletes {keys : List String} (hsend : ∀ key ∈ keys, Sendable key) :
    Passes session (StandsAs session σ (opened τ requests) d s moment)
      (keys.map fun key => .command .checker (.queued (.del [payload key])))
      (StandsAs session σ (opened τ (requests ++ keys.map deleteRequest)) d s moment) :=
  passes_queueEach (fun _ => Command.onKeys_del _)
    (fun key hkey => Command.plain_del (hsend key hkey))
    fun _ => ⟨_, rfl, rfl⟩

/-! ## The end of a block -/

theorem plain_exec : Command.exec.toFrame.Plain :=
  Command.plain_bare rfl (by decide : Sendable "EXEC")

section Exec

variable (hspoiled : τ.spoiled = false) {v : Value} (hv : v.Plain) (hpush : v.isPush = false)
  {s' : Store}
  (happly : ∀ now (server : Server), moment ≤ now → server.divergence = d → server.store = s →
    Server.applyBlock now server τ.watched requests = (v, { server with store := s' }))
  {fault : ExecOutcome → Option CaseFailure} {outcome : ExecOutcome}
  (hresult : Command.exec.result v = .ok outcome)

include hspoiled happly in
theorem handle_exec_opened {now : Nat} {server : Server} (hnow : moment ≤ now)
    (hd : server.divergence = d) (hs : server.store = s) :
    server.handle now (opened τ requests) Command.exec.toFrame =
      Server.reply v (Server.closed τ) { server with store := s' } := by
  have hblock : (opened τ requests).block = some requests := rfl
  rw [Server.handle_exec hblock hspoiled]
  show Server.reply (Server.applyBlock now server τ.watched requests).1 _
    (Server.applyBlock now server τ.watched requests).2 = _
  rw [happly now server hnow hd hs]
  rfl

include hspoiled hv hpush happly hresult

/-- The end of a block that was queued as a whole, whatever becomes of it. -/
theorem passes_exec (hfault : fault outcome = none) :
    Passes session (StandsAs session σ (opened τ requests) d s moment)
      [.expect .checker .exec fault] (StandsAs session σ (Server.closed τ) d s' moment) := by
  refine passes_checker plain_exec hv hpush
    (fun now server hnow hd hs => handle_exec_opened hspoiled happly hnow hd hs) ?_
  rw [hresult, verdict, hfault]
  rfl

theorem fails_exec {failure : CaseFailure} (hfault : fault outcome = some failure) :
    Fails session (StandsAs session σ (opened τ requests) d s moment)
      [.expect .checker .exec fault] := by
  have hverdict : verdict fault (Command.exec.result v) = .error failure := by
    rw [hresult, verdict, hfault]
    rfl
  exact fails_checker plain_exec hv hpush
    (fun now server hnow hd hs => handle_exec_opened hspoiled happly hnow hd hs) hverdict

end Exec

/-- The answers to a block of plain writes. -/
theorem plain_replies {n : Nat} (h : n < 2 ^ 63) :
    (Value.array (List.replicate n Store.ok)).Plain := by
  refine Value.plain_array (by rwa [List.length_replicate]) fun v hv => ?_
  rw [List.eq_of_mem_replicate hv]
  exact plain_ok

/-- A block of plain writes is run to its end. -/
theorem runBlock_storeRequests (hd : d.deniesWrites = false) (now : Nat)
    (pairs : List (String × String)) (s : Store) :
    Server.runBlock d now (pairs.map storeRequest) s =
      (some (List.replicate pairs.length Store.ok), s.putAll pairs) := by
  have h := @Server.runBlock_stores now d hd pairs [] s
  rw [List.append_nil] at h
  rw [h]
  simp [Server.runBlock]

section Cases

variable (hrest : τ.AtRest) (hd : d.deniesWrites = false) (hshort : ShortAll data.pairs)

/-! ### Blocks of writes -/

include hrest hd hshort

/-- A block of writes is applied. -/
theorem passes_txCommit (hsize : data.size < 2 ^ 63) :
    Passes session (StandsAs session σ τ d s moment) (Script.txCommit data)
      (StandsAs session σ (Server.closed τ) d (s.putAll data.pairs) moment) := by
  have hqueue : Passes session (StandsAs session σ (opened τ []) d s moment)
      (Script.queueAll data.pairs)
      (StandsAs session σ (opened τ (data.pairs.map storeRequest)) d s moment) :=
    passes_queueAll hshort.sendable
  have hexec : Passes session
      (StandsAs session σ (opened τ (data.pairs.map storeRequest)) d s moment)
      [.expect .checker .exec (Script.commitFault data.size)]
      (StandsAs session σ (Server.closed τ) d (s.putAll data.pairs) moment) := by
    refine passes_exec hrest.spoiled (plain_replies hsize) rfl (fun now server _ h hs => ?_) rfl ?_
    · subst h hs
      exact Server.applyBlock_of_some (by rw [hrest.hasChanged_eq, Bool.false_and])
        (runBlock_storeRequests hd now data.pairs server.store)
    · simp [Script.commitFault, Dataset.size]
  refine (passes_multi hrest.block hrest.spoiled).cons (hqueue.append (hexec.cons ?_))
  exact passes_readAll block_closed hshort.sendable fun pair hpair =>
    Store.keeps_putAll data.nodup hpair s moment

/-! ### Failing blocks -/

/-- A block that fails at the deletion of an absent key, up to its end. -/
theorem passes_failingBlock {half : Nat} (hhalf : half < data.size)
    (hfresh : ∀ key ∈ data.keys, s.Keeps moment (payload key) none) :
    Passes session (StandsAs session σ τ d s moment)
      (Script.block ((data.pairs.take half).map (fun (key, value) => .tryStore key value)
        ++ (data.keys.drop half).map fun key =>
          .command .checker (.queued (.del [payload key]))) .exec)
      (StandsAs session σ (Server.closed τ) d
        (if d.keepsFailedBlocks then s.putAll (data.pairs.take half)
          else Server.rollBack s (s.putAll (data.pairs.take half))) moment) := by
  have hstores : ∀ pair ∈ data.pairs.take half, Sendable pair.1 ∧ Sendable pair.2 :=
    fun pair hpair => hshort.sendable pair (List.mem_of_mem_take hpair)
  have hdeletes : ∀ key ∈ data.keys.drop half, Sendable key := by
    intro key hkey
    obtain ⟨pair, hpair, rfl⟩ := List.mem_map.1 (List.mem_of_mem_drop hkey)
    exact (hshort.sendable pair hpair).1
  refine (passes_multi hrest.block hrest.spoiled).cons (((passes_tryStores hstores).append
    (passes_tryDeletes hdeletes)).append ?_)
  -- the first deletion finds nothing, since its key is none of those just written
  have hdrop : data.keys.drop half ≠ [] := by simpa [Dataset.keys, Dataset.size] using hhalf
  obtain ⟨key, keys, hkeys⟩ := List.exists_cons_of_ne_nil hdrop
  have hmem : key ∈ data.keys.drop half := by simp [hkeys]
  have hnodup : (data.keys.take half ++ key :: keys).Nodup := by
    rw [← hkeys, List.take_append_drop]
    exact data.nodup
  have hnew : key ∉ (data.pairs.take half).map Prod.fst := by
    rw [List.map_take]
    exact not_mem_behind hnodup
  have habsent : (s.putAll (data.pairs.take half)).Keeps moment (payload key) none :=
    (hfresh key (List.mem_of_mem_drop hmem)).putAll hnew
  refine passes_exec hrest.spoiled Value.plain_null rfl (fun now server hnow h hs => ?_) rfl rfl
  subst h hs
  refine Server.applyBlock_of_none (by rw [hrest.hasChanged_eq, Bool.false_and]) ?_
  rw [hkeys, List.map_cons, List.nil_append, Server.runBlock_stores hd,
    Server.runBlock_deletion (habsent now hnow)]
  rfl

/-- A block that fails is rolled back. -/
theorem passes_txAtomic (hkeeps : d.keepsFailedBlocks = false)
    (hfresh : ∀ key ∈ data.keys, s.Keeps moment (payload key) none) :
    Passes session (StandsAs session σ τ d s moment) (Script.txAtomic data)
      (fun l => ∃ s, StandsAs session σ (Server.closed τ) d s moment l) := by
  rcases Nat.eq_zero_or_pos data.size with hsize | hsize
  · -- without pairs the block is empty and applied, and there is nothing to ask for
    have hpairs : data.pairs = [] := List.length_eq_zero_iff.1 hsize
    have hempty : Passes session (StandsAs session σ τ d s moment)
        [.command .checker .multi, .command .checker .exec]
        (StandsAs session σ (Server.closed τ) d s moment) := by
      refine (passes_multi hrest.block hrest.spoiled).cons (passes_exec hrest.spoiled
        (plain_replies (by decide : 0 < 2 ^ 63)) rfl (fun now server _ h hs => ?_) rfl rfl)
      subst h hs
      exact Server.applyBlock_of_some (by rw [hrest.hasChanged_eq, Bool.false_and]) rfl
    intro l h
    obtain ⟨l', hrun, h'⟩ := hempty l h
    refine ⟨l', ?_, s, h'⟩
    simpa [Script.txAtomic, Script.block, Script.absentAll, Dataset.keys, hpairs] using hrun
  · have hfail : Passes session (StandsAs session σ τ d s moment) _ _ :=
      passes_failingBlock hrest hd hshort (Nat.div_lt_self hsize one_lt_two) hfresh
    simp only [hkeeps, Bool.false_eq_true, if_false] at hfail
    exact (hfail.append (passes_absentAll block_closed
      (fun pair hpair => (hshort.sendable pair hpair).1)
      (fun pair hpair => Server.keeps_rollBack (hfresh _ (List.mem_map_of_mem hpair)) _)
      .rollback)).weaken fun l h => ⟨_, h⟩

/-- Half of one pair is none: a block that holds no write leaves nothing behind, kept or not. -/
theorem passes_txAtomic_single (hsize : data.size = 1)
    (hfresh : ∀ key ∈ data.keys, s.Keeps moment (payload key) none) :
    Passes session (StandsAs session σ τ d s moment) (Script.txAtomic data)
      (fun l => ∃ s, StandsAs session σ (Server.closed τ) d s moment l) := by
  cases hkeeps : d.keepsFailedBlocks with
  | false => exact passes_txAtomic hrest hd hshort hkeeps hfresh
  | true =>
    have hhalf : data.size / 2 < data.size := by omega
    have hfail : Passes session (StandsAs session σ τ d s moment) _ _ :=
      passes_failingBlock hrest hd hshort hhalf hfresh
    have hkept : s.putAll (data.pairs.take (data.size / 2)) = s := by
      rw [hsize]
      rfl
    simp only [hkeeps, if_true, hkept] at hfail
    exact (hfail.append (passes_absentAll block_closed
      (fun pair hpair => (hshort.sendable pair hpair).1)
      (fun pair hpair => hfresh _ (List.mem_map_of_mem hpair)) .rollback)).weaken fun l h => ⟨_, h⟩

/-- Where a failing block is kept, the first pair shows it. -/
theorem fails_txAtomic (hkeeps : d.keepsFailedBlocks = true) (hsize : 2 ≤ data.size)
    (hfresh : ∀ key ∈ data.keys, s.Keeps moment (payload key) none) :
    Fails session (StandsAs session σ τ d s moment) (Script.txAtomic data) := by
  have hfail : Passes session (StandsAs session σ τ d s moment) _ _ :=
    passes_failingBlock hrest hd hshort (Nat.div_lt_self (by omega) one_lt_two) hfresh
  simp only [hkeeps, if_true] at hfail
  have hpairs : data.pairs ≠ [] := fun h => absurd hsize (by simp [Dataset.size, h])
  obtain ⟨pair, rest, hcons⟩ := List.exists_cons_of_ne_nil hpairs
  have hmem : pair ∈ data.pairs.take (data.size / 2) := by
    obtain ⟨n, hn⟩ : ∃ n, data.size / 2 = n + 1 := ⟨data.size / 2 - 1, by omega⟩
    rw [hn, hcons]
    exact .head _
  have hnodup : ((data.pairs.take (data.size / 2)).map Prod.fst).Nodup := by
    rw [List.map_take]
    exact data.nodup.sublist (List.take_sublist ..)
  have hlive : ∀ now, moment ≤ now →
      ((s.putAll (data.pairs.take (data.size / 2))).live? now (payload pair.1)).isSome := by
    intro now hnow
    rw [Store.keeps_putAll hnodup hmem s moment now hnow]
    rfl
  have habsent : Fails session (StandsAs session σ (Server.closed τ) d
      (s.putAll (data.pairs.take (data.size / 2))) moment)
      (Script.absentAll .rollback (pair :: rest)) :=
    (fails_absent block_closed (hshort.sendable pair (List.mem_of_mem_take hmem)).1
      hlive .rollback).cons _
  exact hfail.fails_append (hcons ▸ habsent)

/-! ### Discarded blocks -/

omit hrest hd hshort in
theorem map_fst_numbered : (Script.numbered data).map Prod.fst = data.keys := by
  rw [Script.numbered, List.map_map]
  exact List.zipIdx_map_fst ..

omit hrest hd in
/-- The keys and their indices can be sent. -/
theorem sendable_numbered (hsize : data.size < 2 ^ 63) :
    ∀ pair ∈ Script.numbered data, Sendable pair.1 ∧ Sendable pair.2 := by
  intro pair hpair
  obtain ⟨⟨key, i⟩, hmem, rfl⟩ := List.mem_map.1 hpair
  obtain ⟨original, horiginal, rfl⟩ := List.mem_map.1 (List.fst_mem_of_mem_zipIdx hmem)
  have hi : i < data.size := by
    have := List.snd_lt_of_mem_zipIdx hmem
    simpa [Dataset.keys, Dataset.size] using this
  refine ⟨(hshort.sendable original horiginal).1, ?_⟩
  have hlength := length_payload_ofNat_le (n := i) (by omega)
  show (payload (Decimal.ofNat i)).length < 2 ^ 63
  omega

/-- A discarded block, from the first write to its end. -/
theorem passes_discardedBlock (hsize : data.size < 2 ^ 63) :
    Passes session (StandsAs session σ τ d s moment)
      (Script.storeAll (Script.numbered data)
        ++ Script.block (Script.queueAll (Script.modifiedAll data.pairs)) .discard)
      (StandsAs session σ (Server.closed τ) d
        (if d.appliesDiscarded
          then (s.putAll (Script.numbered data)).putAll (Script.modifiedAll data.pairs)
          else s.putAll (Script.numbered data)) moment) := by
  have hsend : Command.discard.toFrame.Plain :=
    Command.plain_bare rfl (by decide : Sendable "DISCARD")
  refine (passes_storeAll hd (by simpa using hrest.block) (sendable_numbered hshort hsize)).append
    ((passes_multi hrest.block hrest.spoiled).cons
      ((passes_queueAll hshort.sendable_modifiedAll).append
        (passes_checker hsend plain_ok rfl (fun now server _ h hs => ?_) ?_)))
  · have hblock' : (opened τ ([] ++ (Script.modifiedAll data.pairs).map storeRequest)).block =
        some ((Script.modifiedAll data.pairs).map storeRequest) := rfl
    have hclosed : Server.closed τ =
        { opened τ ([] ++ (Script.modifiedAll data.pairs).map storeRequest) with
          block := none, watched := [] } := by
      rw [Server.closed, ← hrest.spoiled]
      rfl
    rw [Server.handle_discard hblock', Server.applyAll_stores, hclosed, ← hs]
    subst h
    cases hflag : server.divergence.appliesDiscarded <;> rfl
  · show verdict _ (expectText "OK" "DISCARD" Store.ok) = _
    rw [expectText_ok]
    rfl

/-- A discarded block leaves nothing behind. -/
theorem passes_txDiscard (happlies : d.appliesDiscarded = false) (hsize : data.size < 2 ^ 63) :
    Passes session (StandsAs session σ τ d s moment) (Script.txDiscard data)
      (StandsAs session σ (Server.closed τ) d (s.putAll (Script.numbered data)) moment) := by
  have hdiscard : Passes session (StandsAs session σ τ d s moment) _ _ :=
    passes_discardedBlock hrest hd hshort hsize
  simp only [happlies, Bool.false_eq_true, if_false] at hdiscard
  refine hdiscard.append (passes_readAll block_closed
    (sendable_numbered hshort hsize) fun pair hpair => Store.keeps_putAll ?_ hpair s moment)
  rw [map_fst_numbered]
  exact data.nodup

/-- Where a discarded block is applied, the first pair shows it. -/
theorem fails_txDiscard (happlies : d.appliesDiscarded = true) (hpairs : data.pairs ≠ [])
    (hsize : data.size < 2 ^ 63) :
    Fails session (StandsAs session σ τ d s moment) (Script.txDiscard data) := by
  have hdiscard : Passes session (StandsAs session σ τ d s moment) _ _ :=
    passes_discardedBlock hrest hd hshort hsize
  simp only [happlies, if_true] at hdiscard
  obtain ⟨⟨key, value⟩, rest, hcons⟩ := List.exists_cons_of_ne_nil hpairs
  have hmem : (key, value) ∈ data.pairs := by simp [hcons]
  have hkeeps := Store.keeps_putAll (nodup_modifiedAll data.nodup) (List.mem_map_of_mem hmem)
    (s.putAll (Script.numbered data)) moment
  have hne : payload (Script.modified value) ≠ payload (Decimal.ofNat 0) := by
    intro h
    have htext : "modify_" ++ value = Decimal.ofNat 0 := Bytes.ofText_injective h
    have hzero : Decimal.ofNat 0 = "0" := by decide +kernel
    have hlist := congrArg String.toList (htext.trans hzero)
    simp at hlist
  have hscript : ∃ steps, Script.readAll (Script.numbered data) =
      .read .checker key (Decimal.ofNat 0) :: steps := by
    rw [Script.numbered, Dataset.keys, hcons, List.map_cons, List.zipIdx_cons, List.map_cons]
    exact ⟨_, rfl⟩
  obtain ⟨steps, hscript⟩ := hscript
  refine hdiscard.fails_append ?_
  rw [hscript]
  exact (fails_read block_closed (hshort.sendable _ hmem).1
    (hshort.sendable_modifiedAll _ (List.mem_map_of_mem hmem)).2 hkeeps hne).cons _

/-! ### Unknown commands -/

/-- The requests that a void block queues. -/
def voidRequest : (String × String) × Nat → List Bytes
  | ((key, value), i) => storeRequest (key, Script.voidValue value i)

omit hrest hd hshort in
/-- A request that is not known spoils the block. -/
theorem passes_unknown {key : String} (hkey : Sendable key) :
    Passes session (StandsAs session σ (opened τ requests) d s moment)
      [.command .checker (.queued (Script.unknownCommand key))]
      (StandsAs session σ (opened { τ with spoiled := true } requests) d s moment) := by
  have hsend : (Command.queued (Script.unknownCommand key)).toFrame.Plain :=
    Command.plain_onKey hkey rfl (by decide : Sendable "NOSUCHCOMMAND")
  have hreply : (Store.unknown "NOSUCHCOMMAND").Plain := Value.plain_error (by decide +kernel)
  refine passes_checker hsend hreply rfl (fun now server _ _ hs => ?_) rfl
  have hblock : (opened τ requests).block = some requests := rfl
  subst hs
  exact Server.handle_unqueued (c := .queued (Script.unknownCommand key)) hblock rfl
    (Store.word_ofText "NOSUCHCOMMAND" (by decide)) (by decide) (by decide)

omit hrest hd hshort in
theorem sendable_voidValue {value : String} (h : Short value) {i : Nat} (hi : i < 2 ^ 64) :
    Sendable (Script.voidValue value i) := by
  have hmark : (payload "#").length = 1 := by decide
  have hlength := length_payload_ofNat_le hi
  show (payload (value ++ "#" ++ Decimal.ofNat i)).length < 2 ^ 63
  rw [payload_append, payload_append, List.length_append, List.length_append]
  unfold Short at h
  omega

omit hrest hd in
/-- An unknown command in the middle spoils its block, and nothing that is queued mends it. -/
theorem passes_voidSteps (hsize : data.size < 2 ^ 63) (middle : Nat) :
    Passes session (StandsAs session σ (opened τ []) d s moment)
      (data.pairs.zipIdx.flatMap (Script.voidSteps middle))
      (fun l => ∃ spoiled, StandsAs session σ
        (opened { τ with spoiled } (data.pairs.zipIdx.map voidRequest)) d s moment l ∧
          (middle < data.size → spoiled = true)) := by
  let void (done : List ((String × String) × Nat)) (l : Loopback) : Prop :=
    ∃ spoiled, StandsAs session σ (opened { τ with spoiled } (done.map voidRequest)) d s moment l ∧
      (middle < done.length → spoiled = true)
  have hloop : Passes session (void []) (data.pairs.zipIdx.flatMap (Script.voidSteps middle))
      (void data.pairs.zipIdx) := by
    refine .flatMap void ?_
    rintro done ⟨⟨key, value⟩, i⟩ rest hitems l ⟨spoiled, h, hspoiled⟩
    have hmem : ((key, value), i) ∈ data.pairs.zipIdx := by simp [hitems]
    obtain ⟨hkey, hvalue⟩ := hshort _ (List.fst_mem_of_mem_zipIdx hmem)
    have hi : i = done.length := by
      have hget := congrArg (·[done.length]?) hitems
      simp only [List.getElem?_zipIdx, List.getElem?_append_right (Nat.le_refl _), Nat.sub_self,
        List.getElem?_cons_zero, Option.map_eq_some_iff] at hget
      obtain ⟨pair, -, heq⟩ := hget
      simpa using (congrArg Prod.snd heq).symm
    have hlt : i < data.size := by
      have := List.snd_lt_of_mem_zipIdx hmem
      simpa [Dataset.size] using this
    let spoiled' := spoiled || i == middle
    have hspoil : Passes session
        (StandsAs session σ (opened { τ with spoiled } (done.map voidRequest)) d s moment)
        (if i = middle then [.command .checker (.queued (Script.unknownCommand key))] else [])
        (StandsAs session σ (opened { τ with spoiled := spoiled' } (done.map voidRequest)) d s
          moment) := by
      by_cases heq : i = middle
      · have hspoiled' : spoiled' = true := by simp [spoiled', heq]
        rw [if_pos heq, hspoiled']
        exact passes_unknown hkey.sendable
      · have hspoiled' : spoiled' = spoiled := by simp [spoiled', heq]
        rw [if_neg heq, hspoiled']
        exact .nil
    have hqueue : Passes session
        (StandsAs session σ (opened { τ with spoiled := spoiled' } (done.map voidRequest)) d s
          moment)
        [.tryStore key (Script.voidValue value i)]
        (StandsAs session σ (opened { τ with spoiled := spoiled' }
          ((done ++ [((key, value), i)]).map voidRequest)) d s moment) := by
      rw [List.map_append]
      exact passes_queued (Command.onKeys_set ..) (Command.plain_set hkey.sendable
        (sendable_voidValue hvalue (by omega)) {}) rfl
    obtain ⟨l', hrun, h'⟩ := (hspoil.append hqueue) l h
    refine ⟨l', hrun, spoiled', h', fun hmiddle => ?_⟩
    rw [List.length_append, List.length_singleton] at hmiddle
    simp only [spoiled', Bool.or_eq_true, beq_iff_eq]
    by_cases heq : i = middle
    · exact .inr heq
    · exact .inl (hspoiled (by omega))
  intro l h
  obtain ⟨l', hrun, spoiled, h', hspoiled⟩ := hloop l ⟨τ.spoiled, h, fun h => absurd h (by simp)⟩
  exact ⟨l', hrun, spoiled, h', by simpa [Dataset.size] using hspoiled⟩

omit hrest hd hshort in
/-- A block that was spoiled is refused. -/
theorem passes_exec_spoiled (hspoiled : τ.spoiled = true) :
    Passes session (StandsAs session σ (opened τ requests) d s moment)
      [.command .checker .exec] (StandsAs session σ (Server.closed τ) d s moment) := by
  have hreply : (Value.error "EXECABORT Transaction discarded because of previous errors.").Plain :=
    Value.plain_error (by decide +kernel)
  refine passes_checker plain_exec hreply rfl (fun now server _ _ hs => ?_) rfl
  have hblock : (opened τ requests).block = some requests := rfl
  subst hs
  exact Server.handle_exec_spoiled hblock hspoiled

/-- An unknown command in the middle voids its block. -/
theorem passes_txInvalidCommand (hsize : data.size < 2 ^ 63) :
    Passes session (StandsAs session σ τ d s moment) (Script.txInvalidCommand data)
      (StandsAs session σ (Server.closed τ) d (s.putAll data.pairs) moment) := by
  have hexec : Passes session
      (fun l => ∃ spoiled, StandsAs session σ
        (opened { τ with spoiled } (data.pairs.zipIdx.map voidRequest)) d (s.putAll data.pairs)
          moment l ∧ (data.size / 2 < data.size → spoiled = true))
      [.command .checker .exec]
      (StandsAs session σ (Server.closed τ) d (s.putAll data.pairs) moment) := by
    rintro l ⟨spoiled, h, hspoiled⟩
    cases spoiled with
    | true => exact passes_exec_spoiled (τ := { τ with spoiled := true }) rfl l h
    | false =>
      -- only a block without a middle is not spoiled, and it is empty
      have hempty : data.size = 0 := by
        by_contra hne
        exact absurd (hspoiled (Nat.div_lt_self (Nat.pos_of_ne_zero hne) one_lt_two)) (by decide)
      have hpairs : data.pairs = [] := List.length_eq_zero_iff.1 hempty
      rw [hpairs] at h ⊢
      exact passes_exec (τ := { τ with spoiled := false }) rfl
        (plain_replies (by decide : 0 < 2 ^ 63)) rfl (fun now server _ h hs => by
          subst hs
          exact Server.applyBlock_of_some (by rw [hrest.hasChanged_eq, Bool.false_and]) rfl) rfl rfl
        l h
  refine ((passes_storeAll hd (by simpa using hrest.block) hshort.sendable).append
    ((passes_multi hrest.block hrest.spoiled).cons ((passes_voidSteps hshort hsize _).append
      hexec))).append (passes_readAll block_closed hshort.sendable fun pair hpair =>
        Store.keeps_putAll data.nodup hpair s moment)

/-! ### Watched keys -/

section Watched

variable {watched rival : String} (hwatched : Short watched) (hrival : Short rival)
  (hsessions : session .rival ≠ session .checker) (hrivalBlock : (σ (session .rival)).block = none)

/-- The store after the watched key was written, in the version that is watched. -/
def watchedStore (s : Store) (data : Dataset) (watched : String) : Store :=
  (s.putAll data.pairs).put (payload watched) ⟨payload "original", none⟩

/-- The session that watches the key. -/
def watching (τ : ServerSession) (s : Store) (watched : String) : ServerSession :=
  { τ with watched := [(payload watched, s.version (payload watched))] }

omit hd hshort in
theorem passes_watch (hkey : Sendable watched) :
    Passes session (StandsAs session σ τ d s moment) [.command .checker (.watch [payload watched])]
      (StandsAs session σ (watching τ s watched) d s moment) := by
  have hsend : (Command.watch [payload watched]).toFrame.Plain :=
    Command.plain_onKey hkey rfl (by decide : Sendable "WATCH")
  refine passes_checker hsend plain_ok rfl (fun now server _ _ hs => ?_) ?_
  · subst hs
    rw [Server.handle_watch hrest.block, hrest.watched]
    rfl
  · show verdict _ (expectText "OK" "WATCH" Store.ok) = _
    rw [expectText_ok]
    rfl

include hwatched hrival hsessions hrivalBlock

/-- A block that a rival interferes with, up to the last write that is queued for all pairs. -/
theorem passes_watchedBlock :
    Passes session (StandsAs session σ τ d s moment)
      (Script.storeAll data.pairs ++ [
          .store .checker watched "original",
          .command .checker (.watch [payload watched]),
          .command .checker .multi,
          .store .rival watched rival]
        ++ (Script.modifiedAll data.pairs).map fun (key, value) => .tryStore key value)
      (StandsAs session σ (opened (watching τ (watchedStore s data watched) watched)
          ((Script.modifiedAll data.pairs).map storeRequest)) d
        ((watchedStore s data watched).put (payload watched) ⟨payload rival, none⟩) moment) := by
  have hchecker : (Function.update σ (session .checker) τ (session .checker)).block = none := by
    simpa using hrest.block
  have hqueue : Passes session
      (StandsAs session σ (opened (watching τ (watchedStore s data watched) watched) []) d
        ((watchedStore s data watched).put (payload watched) ⟨payload rival, none⟩) moment) _
      (StandsAs session σ (opened (watching τ (watchedStore s data watched) watched)
          ((Script.modifiedAll data.pairs).map storeRequest)) d
        ((watchedStore s data watched).put (payload watched) ⟨payload rival, none⟩) moment) :=
    passes_tryStores hshort.sendable_modifiedAll
  refine ((passes_storeAll hd hchecker hshort.sendable).append ((passes_store hd hchecker
    hwatched.sendable (by decide)).cons ((passes_watch hrest hwatched.sendable).cons
      ((passes_multi (τ := watching τ _ watched) hrest.block hrest.spoiled).cons ?_)))).append
        hqueue
  refine passes_store hd ?_ hwatched.sendable hrival.sendable
  rw [Function.update_of_ne hsessions]
  exact hrivalBlock

omit hrest hd hshort hrival hsessions hrivalBlock in
/-- The write of the watched key itself is queued last. -/
theorem passes_tryWatched {requests : List (List Bytes)} :
    Passes session (StandsAs session σ (opened τ requests) d s moment)
      [.tryStore watched "from_watcher"]
      (StandsAs session σ (opened τ (requests ++ [storeRequest (watched, "from_watcher")])) d s
        moment) :=
  passes_queued (Command.onKeys_set ..) (Command.plain_set hwatched.sendable (by decide) {}) rfl

/-- The store after a rival wrote under the watched key. -/
def rivalStore (s : Store) (data : Dataset) (watched rival : String) : Store :=
  (watchedStore s data watched).put (payload watched) ⟨payload rival, none⟩

/-- A block that a rival voids, up to the reading of the watched key. -/
theorem passes_voidedBlock (hignores : d.ignoresWatches = false) :
    Passes session (StandsAs session σ τ d s moment)
      (Script.storeAll data.pairs ++ [
          .store .checker watched "original",
          .command .checker (.watch [payload watched]),
          .command .checker .multi,
          .store .rival watched rival]
        ++ (Script.modifiedAll data.pairs).map (fun (key, value) => .tryStore key value) ++ [
          .tryStore watched "from_watcher",
          .expect .checker .exec fun outcome =>
            faultUnless (!outcome.isCommitted) (.committed outcome),
          .read .checker watched rival])
      (StandsAs session σ (Server.closed τ) d (rivalStore s data watched rival) moment) := by
  have hexec (requests : List (List Bytes)) : Passes session
      (StandsAs session σ (opened (watching τ (watchedStore s data watched) watched) requests) d
        (rivalStore s data watched rival) moment)
      [.expect .checker .exec fun outcome =>
        faultUnless (!outcome.isCommitted) (.committed outcome)]
      (StandsAs session σ (Server.closed τ) d (rivalStore s data watched rival) moment) := by
    refine passes_exec (τ := watching τ _ watched) hrest.spoiled Value.plain_null rfl
      (fun now server _ h hs => ?_) rfl rfl
    subst h
    rw [← hs]
    refine Server.applyBlock_of_changed ?_ hignores
    rw [hs]
    exact Server.hasChanged_put ..
  exact (passes_watchedBlock hrest hd hshort hwatched hrival hsessions hrivalBlock).append
    ((passes_tryWatched hwatched).cons ((hexec _).cons (passes_read block_closed hwatched.sendable
      hrival.sendable (Store.keeps_put _ _ _ _))))

omit hrest hd hshort hwatched hrival hsessions hrivalBlock in
/-- The rival's write leaves the other pairs alone. -/
theorem keeps_rivalStore {pair : String × String} (hpair : pair ∈ data.pairs)
    (hne : pair.1 ≠ watched) :
    (rivalStore s data watched rival).Keeps moment (payload pair.1) (some (payload pair.2)) := by
  have hne' : payload pair.1 ≠ payload watched := fun heq => hne (Bytes.ofText_injective heq)
  exact ((Store.keeps_putAll data.nodup hpair s moment).put hne' _).put hne' _

/-- A watched key that a rival changes voids the block. -/
theorem passes_txWatch (hignores : d.ignoresWatches = false) (hnew : watched ∉ data.keys) :
    Passes session (StandsAs session σ τ d s moment) (Script.txWatch watched rival data)
      (StandsAs session σ (Server.closed τ) d (rivalStore s data watched rival) moment) := by
  refine (passes_voidedBlock hrest hd hshort hwatched hrival hsessions hrivalBlock hignores).append
    (passes_readAll block_closed hshort.sendable fun pair hpair => keeps_rivalStore hpair ?_)
  rintro rfl
  exact hnew (List.mem_map_of_mem hpair)

/-- A pair under the watched key is found to hold what the rival wrote. -/
theorem fails_txWatch_of_mem (hignores : d.ignoresWatches = false) (hmem : watched ∈ data.keys)
    (hvalues : ∀ pair ∈ data.pairs, pair.2 ≠ rival) :
    Fails session (StandsAs session σ τ d s moment) (Script.txWatch watched rival data) := by
  obtain ⟨pair, hpair, rfl⟩ := List.mem_map.1 hmem
  obtain ⟨before, after, hpairs⟩ := List.append_of_mem hpair
  refine (passes_voidedBlock hrest hd hshort hwatched hrival hsessions hrivalBlock
    hignores).fails_append (fails_readAll block_closed hshort.sendable hpairs
      (fun other hother => ?_) hrival.sendable (Store.keeps_put _ _ _ _) fun heq => ?_)
  · -- the pairs before it have keys of their own
    refine keeps_rivalStore (hpairs ▸ List.mem_append_left _ hother) fun heq => ?_
    have hnodup := data.nodup
    rw [hpairs, List.map_append, List.map_cons, List.nodup_append] at hnodup
    exact hnodup.2.2 _ (List.mem_map_of_mem hother) _ (.head _) heq
  · exact hvalues pair hpair (Bytes.ofText_injective heq).symm

/-- Where watched keys are ignored, the end of the block shows it. -/
theorem fails_txWatch (hignores : d.ignoresWatches = true) (hsize : data.size + 1 < 2 ^ 63) :
    Fails session (StandsAs session σ τ d s moment) (Script.txWatch watched rival data) := by
  let pairs := Script.modifiedAll data.pairs ++ [(watched, "from_watcher")]
  have hlength : pairs.length = data.size + 1 := by
    simp [pairs, Script.modifiedAll, Dataset.size]
  have hrequests : (Script.modifiedAll data.pairs).map storeRequest
      ++ [storeRequest (watched, "from_watcher")] = pairs.map storeRequest := by simp [pairs]
  have hexec : Fails session
      (StandsAs session σ (opened (watching τ (watchedStore s data watched) watched)
        (pairs.map storeRequest)) d
        ((watchedStore s data watched).put (payload watched) ⟨payload rival, none⟩) moment)
      [.expect .checker .exec fun outcome =>
        faultUnless (!outcome.isCommitted) (.committed outcome)] := by
    have happly : ∀ now (server : Server), moment ≤ now → server.divergence = d →
        server.store = (watchedStore s data watched).put (payload watched) ⟨payload rival, none⟩ →
        Server.applyBlock now server (watching τ (watchedStore s data watched) watched).watched
          (pairs.map storeRequest) = (.array (List.replicate pairs.length Store.ok),
            { server with store := ((watchedStore s data watched).put (payload watched)
              ⟨payload rival, none⟩).putAll pairs }) := by
      intro now server _ h hs
      subst h
      rw [← hs]
      exact Server.applyBlock_of_some (by simp [hignores])
        (runBlock_storeRequests hd now pairs server.store)
    exact fails_exec (τ := watching τ _ watched) hrest.spoiled (plain_replies (hlength ▸ hsize)) rfl
      happly rfl rfl
  rw [← hrequests] at hexec
  exact ((passes_watchedBlock hrest hd hshort hwatched hrival hsessions hrivalBlock).fails_append
    ((passes_tryWatched hwatched).fails_cons (hexec.cons _))).append _

end Watched

end Cases

end Blocks

end StoreTrial
