import StoreTrial.Proofs.Latency.Measurement
import StoreTrial.Proofs.Trial.Steps

/-!
# What a measurement leaves in a store

Beside a store a measurement gets to its end, whatever is stored before it.  It is told by what is
found under each key: a write puts the payload there, a deletion clears it, and a read changes
nothing.  All payloads are written before the first is read, and none is deleted before the last has
been read, so that each read finds its payload however often payloads repeat; and what is cleared in
the end are the payloads and no other key.

## Main results

* `Operation.exists_execute` — what one call is answered with, and what it does to the store.
* `Measure.Calls.beside` — a row of calls of one operation.
* `Measure.endpoint_cleans_up` — a measurement from its first call to its last.
-/

namespace StoreTrial

open Resp (Value)
open Step (payload)

/-! ## Deletions -/

namespace Store

/-- A deletion finds the key or does not; it is gone in either case. -/
theorem Shows.exists_delete {s : Store} {now : Nat} {view : View} (h : s.Shows now view)
    (key : Bytes) : ∃ n s',
      delete now false [key] 0 s = (.integer n, s') ∧ s'.Shows now (view.write key none) := by
  cases hlive : s.live? now key with
  | some e => exact ⟨1, s.remove key, by simp [delete, hlive], h.remove key⟩
  | none => exact ⟨0, s, by simp [delete, hlive], h.write (keeps_none hlive) fun _ _ _ => rfl⟩

end Store

/-! ## Calls -/

namespace Operation

/-- What a call does to what is found under its payload. -/
def effect (o : Operation) (view : View) (key : Bytes) : View :=
  match o with
  | set => view.write key (some key)
  | get => view
  | del => view.write key none

/-- Whether the call of an operation with a payload will find what it needs. -/
def Finds (o : Operation) (view : View) (key : Bytes) : Prop :=
  o = get → view key = fun _ => some ⟨key, none⟩

/-- A call writes nothing that a later call of the same operation needs. -/
theorem Finds.effect {o : Operation} {view : View} {key : Bytes} (h : o.Finds view key)
    (other : Bytes) : o.Finds (o.effect view other) key := by
  rintro rfl
  exact h rfl

/-- What a row of calls does to what is found under keys. -/
def effectAll (o : Operation) (view : View) (texts : List String) : View :=
  texts.foldl (fun view text => o.effect view (payload text)) view

theorem effectAll_set (view : View) (texts : List String) (key : Bytes) :
    set.effectAll view texts key =
      if key ∈ texts.map payload then fun _ => some ⟨key, none⟩ else view key := by
  have hwrite := View.foldl_write some (texts.map payload) view key
  rwa [List.foldl_map] at hwrite

theorem effectAll_get (view : View) (texts : List String) : get.effectAll view texts = view :=
  List.foldl_fixed texts

theorem effectAll_del (view : View) (texts : List String) (key : Bytes) :
    del.effectAll view texts key =
      if key ∈ texts.map payload then fun _ => none else view key := by
  have hwrite := View.foldl_write (fun _ => none) (texts.map payload) view key
  rwa [List.foldl_map] at hwrite

theorem onKeys_clause (o : Operation) (key : Bytes) : (o.clause key).command.OnKeys := by
  cases o
  · exact Command.onKeys_set ..
  · exact Command.onKeys_get _
  · exact Command.onKeys_del _

theorem plain_clause (o : Operation) {text : String} (h : Sendable text) :
    (o.clause (payload text)).command.toFrame.Plain := by
  cases o
  · exact Command.plain_set h h _
  · exact Command.plain_get h
  · exact Command.plain_del h

/-- What one call is answered with, and what it does to the store.  A server may diverge from the
contract in any way. -/
theorem exists_execute (o : Operation) {text : String} (htext : Sendable text) {d : Divergence}
    {s : Store} {now : Nat} {view : View} (hshows : s.Shows now view)
    (hfinds : o.Finds view (payload text)) :
    ∃ v s', s.execute d now false (o.clause (payload text)).command.parts = (v, s') ∧
      v.Plain ∧ v.isPush = false ∧
      (o.clause (payload text)).Met ⟨_, (o.clause (payload text)).command.result v⟩ ∧
      s'.Shows now (o.effect view (payload text)) := by
  cases o with
  | set =>
    refine ⟨_, _, Store.execute_store (text, text), ?_, ?_, ?_, hshows.put _ _⟩
    all_goals cases d.deniesWrites
    · exact plain_ok
    · exact Value.plain_null
    · rfl
    · rfl
    · exact Clause.met_mk.2 ⟨_, Command.result_set_ok rfl, trivial⟩
    · exact Clause.met_mk.2 ⟨_, Command.result_set_null rfl, trivial⟩
  | get =>
    have hlive : s.live? now (payload text) = some ⟨payload text, none⟩ := by
      rw [hshows _ now (Nat.le_refl _), hfinds rfl]
    have hexecute : s.execute d now false (Command.get (payload text)).parts =
        (.bulk (payload text), s) := by
      refine (Store.execute_get (Store.word_ofText "GET" (by decide)) _).trans ?_
      rw [hlive]
      rfl
    exact ⟨_, _, hexecute, Value.plain_bulk htext, rfl,
      Clause.met_mk.2 ⟨some (payload text), rfl, rfl⟩, hshows⟩
  | del =>
    obtain ⟨n, s', hdelete, hshows'⟩ := hshows.exists_delete (payload text)
    have hexecute : s.execute d now false (Command.del [payload text]).parts = (.integer n, s') :=
      (Store.execute_del (Store.word_ofText "DEL" (by decide)) _ _).trans hdelete
    exact ⟨_, _, hexecute, Value.plain_integer n, rfl, Clause.met_mk.2 ⟨n, rfl, trivial⟩, hshows'⟩

end Operation

/-! ## One call beside a store -/

/-- Whether a session is between two calls, beside a store that shows a view. -/
structure Loopback.Beside (l : Loopback) (i : Nat) (session : ServerSession) (view : View) :
    Prop where
  idle : l.Idle i session
  shows : l.server.store.Shows l.now view

namespace Loopback

variable {l : Loopback} {i : Nat} {session : ServerSession} {view : View}

/-- A look at the clock changes nothing that is stored. -/
theorem Beside.clock (h : l.Beside i session view) :
    (answer .clock l).2.Beside i session view :=
  ⟨h.idle, h.shows.of_le (now_le_answer .clock l)⟩

/-- A call is answered as it has to be, and does to the store what its operation does. -/
theorem Beside.exists_call (h : l.Beside i session view) (hblock : session.block = none)
    (o : Operation) {text : String} (htext : Sendable text)
    (hfinds : o.Finds view (payload text)) :
    ∃ result l', answer (.run i (o.clause (payload text)).command) l = (result, l') ∧
      (o.clause (payload text)).Met ⟨_, result⟩ ∧
      l'.Beside i session (o.effect view (payload text)) := by
  have hshows : l.server.store.Shows l.tick.now view := h.shows.of_le (Nat.le_add_right ..)
  obtain ⟨v, s', hexecute, hv, hpush, hmet, hshows'⟩ :=
    o.exists_execute htext (d := l.server.divergence) hshows hfinds
  have hhandle : l.server.handle l.tick.now session (o.clause (payload text)).command.toFrame =
      Server.reply v session { l.server with store := s' } := by
    rw [Server.handle_onKeys hblock (o.onKeys_clause _), hexecute]
  obtain ⟨p, hanswer, hp⟩ := exists_answer_run h.idle (o.plain_clause htext) hhandle hv hpush
  obtain ⟨p', hp', -⟩ := h.idle
  exact ⟨_, _, hanswer, hmet, idle_moved (l := l.tick) hp' hp, hshows'⟩

end Loopback

/-! ## Calls in a row -/

namespace Measure

section Calls

variable {σ : Type} {answer : (r : Request) → σ → r.Answer × σ} {session : Nat} {s s' : σ}
  {ks ks' : List Clause} {ok : Bool}

/-- Calls in two parts: the first ends them, or the second goes on from where it got to. -/
theorem Calls.of_append (h : Calls answer session s (ks ++ ks') ok s') :
    (ok = false ∧ Calls answer session s ks false s') ∨
      ∃ s₁, Calls answer session s ks true s₁ ∧ Calls answer session s₁ ks' ok s' := by
  induction ks generalizing s with
  | nil => exact .inr ⟨s, .done s, h⟩
  | cons k ks ih =>
    cases h with
    | stop hrun hnot => exact .inl ⟨rfl, .stop hrun hnot⟩
    | next hrun hmet hrest =>
      obtain ⟨hok, hfirst⟩ | ⟨s₁, hfirst, hsecond⟩ := ih hrest
      · exact .inl ⟨hok, .next hrun hmet hfirst⟩
      · exact .inr ⟨s₁, .next hrun hmet hfirst, hsecond⟩

end Calls

/-- The payloads of the calls of one operation, in their order. -/
def texts (calls : Nat) (payloads : List (Nat × String)) : List String :=
  payloads.flatMap fun payload => List.replicate calls payload.2

/-- The calls of one operation. -/
def row (o : Operation) (texts : List String) : List Clause :=
  texts.map fun text => o.clause (payload text)

theorem clauses_eq (calls : Nat) (payloads : List (Nat × String)) :
    clauses calls payloads = Operation.all.flatMap fun o => row o (texts calls payloads) := by
  simp [clauses, row, texts, List.map_flatMap, payload]

theorem mem_texts {calls : Nat} (hcalls : 0 < calls) {payloads : List (Nat × String)}
    {text : String} : text ∈ texts calls payloads ↔ text ∈ payloads.map Prod.snd := by
  simp only [texts, List.mem_flatMap, List.mem_replicate, List.mem_map]
  exact exists_congr fun payload => and_congr_right fun _ =>
    ⟨fun h => h.2.symm, fun h => ⟨hcalls.ne', h.symm⟩⟩

section Rows

variable {i : Nat} {session : ServerSession} (hblock : session.block = none) {l l' : Loopback}
  {view : View} {texts : List String} (hsend : ∀ text ∈ texts, Sendable text)
  {ks : List Clause} {ok : Bool}

include hblock hsend

/-- A row of calls of one operation gets to its end if each call will find what it needs, and does
to the store what its calls do. -/
theorem Calls.beside {o : Operation} (hfinds : ∀ text ∈ texts, o.Finds view (payload text))
    (hbeside : l.Beside i session view) (h : Calls Loopback.answer i l (row o texts) ok l') :
    ok = true ∧ l'.Beside i session (o.effectAll view texts) := by
  induction texts generalizing l view with
  | nil =>
    cases h
    exact ⟨rfl, hbeside⟩
  | cons text texts ih =>
    obtain ⟨htext, htexts⟩ := List.forall_mem_cons.1 hsend
    obtain ⟨hfind, hfinds⟩ := List.forall_mem_cons.1 hfinds
    obtain ⟨result, l₁, hcall, hmet, hbeside₁⟩ :=
      hbeside.clock.exists_call hblock o htext hfind
    cases h with
    | stop hrun hnot =>
      cases hcall.symm.trans hrun
      exact absurd hmet hnot
    | next hrun _ hrest =>
      cases hcall.symm.trans hrun
      exact ih htexts (fun other hother => (hfinds other hother).effect _) hbeside₁.clock hrest

/-- After such a row the calls go on. -/
theorem Calls.exists_beside {o : Operation}
    (hfinds : ∀ text ∈ texts, o.Finds view (payload text)) (hbeside : l.Beside i session view)
    (h : Calls Loopback.answer i l (row o texts ++ ks) ok l') :
    ∃ l₁, l₁.Beside i session (o.effectAll view texts) ∧
      Calls Loopback.answer i l₁ ks ok l' := by
  obtain ⟨-, hrow⟩ | ⟨l₁, hrow, hrest⟩ := h.of_append
  · cases (hrow.beside hblock hsend hfinds hbeside).1
  · exact ⟨l₁, (hrow.beside hblock hsend hfinds hbeside).2, hrest⟩

/-- Of all rows, only the payloads are gone afterwards. -/
theorem Calls.beside_all (hbeside : l.Beside i session view)
    (h : Calls Loopback.answer i l (Operation.all.flatMap (row · texts)) ok l') :
    ok = true ∧ l'.Beside i session fun key =>
      if key ∈ texts.map payload then fun _ => none else view key := by
  obtain ⟨l₁, hwritten, h⟩ := h.exists_beside hblock hsend (fun _ _ h => by cases h) hbeside
  -- all payloads are there when the first is read
  have hfinds : ∀ text ∈ texts,
      Operation.get.Finds (Operation.set.effectAll view texts) (payload text) := by
    intro text htext _
    rw [Operation.effectAll_set, if_pos (List.mem_map_of_mem htext)]
  obtain ⟨l₂, hread, h⟩ := h.exists_beside hblock hsend hfinds hwritten
  obtain ⟨l₃, hdeleted, h⟩ := h.exists_beside hblock hsend (fun _ _ h => by cases h) hread
  cases h
  refine ⟨rfl, hdeleted.idle, fun key moment hmoment => ?_⟩
  rw [hdeleted.shows key moment hmoment, Operation.effectAll_del, Operation.effectAll_get,
    Operation.effectAll_set]
  split <;> rfl

end Rows

/-! ## A measurement -/

/--
**A measurement succeeds and cleans up.**  Beside any store, in a session of either version that has
no block open, every measurement with a call of each kind returns its means, however often payloads
repeat and whatever is stored under them before.  Afterwards there is nothing under the payloads,
and under every other key there is at any moment what would have been there without the measurement:
if no entry expires, the entries of the beginning.  No text in memory is too long to be sent.
-/
theorem endpoint_cleans_up {l : Loopback} {i : Nat} {session : ServerSession}
    (hidle : l.Idle i session) (hblock : session.block = none) {calls : Nat} (hcalls : 0 < calls)
    (name : String) {payloads : List (Nat × String)}
    (hsend : ∀ payload ∈ payloads, Sendable payload.2) :
    ∃ series l', (endpoint i calls name payloads).run.beside l = (.ok series, l') ∧
      (∀ moment, l'.now ≤ moment → ∀ key, l'.server.store.live? moment key =
        if key ∈ payloads.map (Bytes.ofText ·.2) then none
        else l.server.store.live? moment key) ∧
      (l.server.store.Lasting → ∀ moment, l'.now ≤ moment → ∀ key,
        l'.server.store.live? moment key =
          if key ∈ payloads.map (Bytes.ofText ·.2) then none
          else l.server.store.entries.get? key) := by
  obtain ⟨result, l', hrun⟩ : ∃ result l',
    (endpoint i calls name payloads).run.beside l = (result, l') := ⟨_, _, rfl⟩
  have hmakes : Makes i (endpoint i calls name payloads) (clauses calls payloads) :=
    makes_endpoint calls name payloads
  have hmade := hmakes.of_run Loopback.answer l
  rw [← Dialogue.beside, hrun, clauses_eq] at hmade
  have htexts : ∀ text ∈ texts calls payloads, Sendable text := by
    intro text htext
    obtain ⟨payload, hpayload, rfl⟩ := List.mem_map.1 ((mem_texts hcalls).1 htext)
    exact hsend payload hpayload
  have hbeside : l.Beside i session fun key moment => l.server.store.live? moment key :=
    ⟨hidle, fun _ _ _ => rfl⟩
  obtain ⟨hok, -, hshows⟩ := hmade.beside_all hblock htexts hbeside
  have hkeys (key : Bytes) : key ∈ (texts calls payloads).map payload ↔
      key ∈ payloads.map (Bytes.ofText ·.2) := by
    show _ ↔ key ∈ payloads.map (payload ∘ Prod.snd)
    rw [← List.map_map, List.mem_map, List.mem_map]
    simp only [mem_texts hcalls]
  have hleft : ∀ moment, l'.now ≤ moment → ∀ key, l'.server.store.live? moment key =
      if key ∈ payloads.map (Bytes.ofText ·.2) then none
      else l.server.store.live? moment key := by
    intro moment hmoment key
    rw [hshows key moment hmoment]
    simp only [hkeys]
    split <;> rfl
  cases result with
  | error e => cases hok
  | ok series =>
    refine ⟨series, l', hrun, hleft, fun hlasting moment hmoment key => ?_⟩
    rw [hleft moment hmoment, hlasting.live?_eq]

/-- A server that holds a value under one of the payloads and one under another key, with a session
in version 3. -/
def occupied : Loopback where
  server :=
    { store := (({} : Store).put (Bytes.ofText "ab") ⟨Bytes.ofText "old", none⟩).put
        (Bytes.ofText "other") ⟨Bytes.ofText "kept", none⟩ }
  peers := [{ session := { id := 0, protocol := .resp3 } }]
  lags := [3, 0, 1]

/-- A payload that repeats is cleared, and with it what was stored there before. -/
theorem endpoint_cleans_up_occupied :
    ∃ series l', (endpoint 0 2 "target" [(2, "ab"), (1, "c"), (2, "ab")]).run.beside occupied =
        (.ok series, l') ∧
      ∀ moment, l'.now ≤ moment →
        l'.server.store.live? moment (Bytes.ofText "ab") = none ∧
        l'.server.store.live? moment (Bytes.ofText "other") =
          some ⟨Bytes.ofText "kept", none⟩ := by
  have hidle : occupied.Idle 0 { id := 0, protocol := .resp3 } :=
    ⟨_, rfl, rfl, rfl, rfl, rfl, rfl, rfl, rfl, rfl⟩
  have hlasting : occupied.server.store.Lasting := by
    intro key e he
    simp only [occupied, Store.put, Store.touch, Table.get?_insert] at he
    split_ifs at he <;> cases he <;> rfl
  have hsend : ∀ payload ∈ [(2, "ab"), (1, "c"), (2, "ab")], Sendable payload.2 := by decide
  obtain ⟨series, l', hrun, -, hleft⟩ :=
    endpoint_cleans_up hidle rfl (by decide : 0 < 2) "target" hsend
  refine ⟨series, l', hrun, fun moment hmoment => ⟨?_, ?_⟩⟩
  · rw [hleft hlasting moment hmoment, if_pos (by decide)]
  · rw [hleft hlasting moment hmoment, if_neg (by decide)]
    rfl

end Measure

end StoreTrial
