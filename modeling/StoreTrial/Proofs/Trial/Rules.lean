import Mathlib.Data.List.Induction
import Mathlib.Logic.Function.Basic
import StoreTrial.Proofs.Store.Exchange
import StoreTrial.Proofs.Trial.Performance

/-!
# Rules about scripts

A script that runs beside a server either passes, and leaves the server in some state, or fails. The
rules here are those of a small logic: what holds before a script, what holds after it, and how
scripts are put together from parts and loops. The rule about a command needs to know how the server
handles it, and nothing of connections.

## Main results

* `Passes.append`, `Passes.flatMap` — parts in sequence, and loops with an invariant on what is
  behind.
* `Passes.fails_append` — a script fails if a part fails after the others have passed.
* `Stands.exists_expect` — what a command does to what is known of the server.
* `exists_enter` — a session that is opened is idle.
-/

namespace StoreTrial

open Resp (Value)

/-! ## Passing and failing -/

section Rules

variable {session : Party → Nat} {before middle after : Loopback → Prop} {xs ys : List Step}
  {α : Type}

/-- Whether a script passes from every state of one kind and leaves a state of another kind. -/
def Passes (session : Party → Nat) (before : Loopback → Prop) (steps : List Step)
    (after : Loopback → Prop) : Prop :=
  ∀ l, before l → ∃ l', (Step.performAll session steps).run.beside l = (.ok (), l') ∧ after l'

/-- Whether a script fails from every state of a kind. -/
def Fails (session : Party → Nat) (before : Loopback → Prop) (steps : List Step) : Prop :=
  ∀ l, before l →
    ∃ failure l', (Step.performAll session steps).run.beside l = (.error failure, l')

theorem Passes.nil : Passes session before [] before := fun l h => ⟨l, rfl, h⟩

/-- What is left may be described more loosely. -/
theorem Passes.weaken (hxs : Passes session before xs middle) (h : ∀ l, middle l → after l) :
    Passes session before xs after := by
  intro l hl
  obtain ⟨l', hrun, h'⟩ := hxs l hl
  exact ⟨l', hrun, h l' h'⟩

theorem Passes.append (hxs : Passes session before xs middle)
    (hys : Passes session middle ys after) :
    Passes session before (xs ++ ys) after := by
  intro l hl
  obtain ⟨l₁, hrun, h₁⟩ := hxs l hl
  obtain ⟨l₂, hrun', h₂⟩ := hys l₁ h₁
  refine ⟨l₂, ?_, h₂⟩
  simp only [Dialogue.beside] at hrun hrun' ⊢
  rw [Step.run_performAll_append, hrun]
  exact hrun'

theorem Passes.cons {step : Step} (hstep : Passes session before [step] middle)
    (hys : Passes session middle ys after) : Passes session before (step :: ys) after :=
  hstep.append hys

/-- A loop passes if each round carries an invariant on the rounds behind it one round further. -/
theorem Passes.flatMap {items : List α} {f : α → List Step} (invariant : List α → Loopback → Prop)
    (h : ∀ done x rest, items = done ++ x :: rest →
      Passes session (invariant done) (f x) (invariant (done ++ [x]))) :
    Passes session (invariant []) (items.flatMap f) (invariant items) := by
  -- rounds are added at the end, where the invariant has just got to
  induction items using List.reverseRecOn with
  | nil => exact .nil
  | append_singleton items x ih =>
    rw [List.flatMap_append, List.flatMap_singleton]
    refine .append (ih fun done y rest hitems => h done y (rest ++ [x]) ?_) (h items x [] rfl)
    rw [hitems, List.append_assoc, List.cons_append]

theorem Passes.map {items : List α} {f : α → Step} (invariant : List α → Loopback → Prop)
    (h : ∀ done x rest, items = done ++ x :: rest →
      Passes session (invariant done) [f x] (invariant (done ++ [x]))) :
    Passes session (invariant []) (items.map f) (invariant items) := by
  rw [List.map_eq_flatMap]
  exact .flatMap invariant h

/-- A loop passes if no round changes what is known. -/
theorem Passes.map_of_forall {items : List α} {f : α → Step}
    (h : ∀ x ∈ items, Passes session before [f x] before) :
    Passes session before (items.map f) before :=
  .map (fun _ => before) fun _ x _ hitems => h x (hitems ▸ List.mem_append_right _ (.head _))

/-- A script fails if its end fails after the rest has passed. -/
theorem Passes.fails_append (hxs : Passes session before xs middle)
    (hys : Fails session middle ys) : Fails session before (xs ++ ys) := by
  intro l hl
  obtain ⟨l₁, hrun, h₁⟩ := hxs l hl
  obtain ⟨failure, l₂, hrun'⟩ := hys l₁ h₁
  refine ⟨failure, l₂, ?_⟩
  simp only [Dialogue.beside] at hrun hrun' ⊢
  rw [Step.run_performAll_append, hrun]
  exact hrun'

theorem Passes.fails_cons {step : Step} (hstep : Passes session before [step] middle)
    (hys : Fails session middle ys) : Fails session before (step :: ys) :=
  hstep.fails_append hys

/-- A script fails if its start fails. -/
theorem Fails.append (hxs : Fails session before xs) (ys : List Step) :
    Fails session before (xs ++ ys) := by
  intro l hl
  obtain ⟨failure, l', hrun⟩ := hxs l hl
  refine ⟨failure, l', ?_⟩
  simp only [Dialogue.beside] at hrun ⊢
  rw [Step.run_performAll_append, hrun]

theorem Fails.cons {step : Step} (hstep : Fails session before [step]) (ys : List Step) :
    Fails session before (step :: ys) :=
  hstep.append ys

end Rules

/-! ## What is known of the server -/

/-- What is known between two steps: how the sessions stand, in what way the server diverges, what
it stores, and a moment that has come. -/
structure Stands (session : Party → Nat) (σ : Nat → ServerSession) (d : Divergence) (s : Store)
    (moment : Nat) (l : Loopback) : Prop where
  idle : ∀ p, l.Idle (session p) (σ (session p))
  divergence : l.server.divergence = d
  store : l.server.store = s
  le_now : moment ≤ l.now

section Stands

variable {session : Party → Nat} {σ : Nat → ServerSession} {d : Divergence} {s : Store}
  {moment : Nat} {l : Loopback} {party : Party} {c : Command}
  {fault : c.Output → Option CaseFailure}

/-- What a command does to what is known of the server. -/
theorem Stands.exists_expect (h : Stands session σ d s moment l) (hc : c.toFrame.Plain) {v : Value}
    (hv : v.Plain) (hpush : v.isPush = false) {session' : ServerSession} {s' : Store}
    (hhandle : l.server.handle l.tick.now (σ (session party)) c.toFrame =
      Server.reply v session' { l.server with store := s' }) :
    ∃ l', (Step.performAll session [.expect party c fault]).run.beside l =
        (verdict fault (c.result v), l') ∧
      l'.now = l.tick.now ∧
      Stands session (Function.update σ (session party) session') d s' moment l' := by
  obtain ⟨p, hanswer, hp⟩ := Loopback.exists_answer_run (h.idle party) hc hhandle hv hpush
  refine ⟨l.tick.moved (session party) p { l.server with store := s' }, ?_, rfl, ?_, h.divergence,
    rfl, h.le_now.trans (Nat.le_add_right ..)⟩
  · rw [Dialogue.beside, Step.run_performAll_cons, Step.run_perform_expect, hanswer]
    cases verdict fault (c.result v) <;> rfl
  · intro q
    by_cases hq : session q = session party
    · obtain ⟨p', hp', -⟩ := h.idle party
      rw [hq, Function.update_self]
      exact Loopback.idle_moved (l := l.tick) hp' hp
    · rw [Function.update_of_ne hq]
      exact (h.idle q).moved_of_ne (l := l.tick) hq

/-- A command whose answer is not at fault passes. -/
theorem passes_expect (hc : c.toFrame.Plain) {v : Value} (hv : v.Plain) (hpush : v.isPush = false)
    {session' : ServerSession} {s' : Store}
    (hhandle : ∀ now (server : Server), moment ≤ now → server.divergence = d → server.store = s →
      server.handle now (σ (session party)) c.toFrame =
        Server.reply v session' { server with store := s' })
    (hfault : verdict fault (c.result v) = .ok ()) :
    Passes session (Stands session σ d s moment) [.expect party c fault]
      (Stands session (Function.update σ (session party) session') d s' moment) := by
  intro l h
  obtain ⟨l', hrun, -, h'⟩ := h.exists_expect hc hv hpush
    (hhandle l.tick.now l.server (h.le_now.trans (Nat.le_add_right ..)) h.divergence h.store)
  exact ⟨l', hfault ▸ hrun, h'⟩

/-- A command whose answer is at fault fails. -/
theorem fails_expect (hc : c.toFrame.Plain) {v : Value} (hv : v.Plain) (hpush : v.isPush = false)
    {session' : ServerSession} {s' : Store}
    (hhandle : ∀ now (server : Server), moment ≤ now → server.divergence = d → server.store = s →
      server.handle now (σ (session party)) c.toFrame =
        Server.reply v session' { server with store := s' })
    {failure : CaseFailure} (hfault : verdict fault (c.result v) = .error failure) :
    Fails session (Stands session σ d s moment) [.expect party c fault] := by
  intro l h
  obtain ⟨l', hrun, -, -⟩ := h.exists_expect hc hv hpush
    (hhandle l.tick.now l.server (h.le_now.trans (Nat.le_add_right ..)) h.divergence h.store)
  exact ⟨failure, l', hfault ▸ hrun⟩

/-- A pause moves the clock by its length at least. -/
theorem Stands.exists_pause (h : Stands session σ d s moment l) (span : Duration) :
    ∃ l', (Step.performAll session [.pause span]).run.beside l = (.ok (), l') ∧
      Stands session σ d s (l.now + span.nanos) l' := by
  refine ⟨(Loopback.answer (.pause span) l).2, ?_, h.idle, h.divergence, h.store, ?_⟩
  · rw [Dialogue.beside, Step.run_performAll_cons, Step.run_perform_pause]
    rfl
  · exact Nat.add_le_add_right (Nat.le_add_right ..) _

end Stands

/-! ## Opening a session -/

theorem enter_of_resp2 {e : Endpoint} (h : e.protocol = .resp2) :
    e.enter.run = .ask (.dial e) fun
      | .error cause => .done (.error (.unreachable e.address cause))
      | .ok session => .done (.ok session) := by
  simp only [Endpoint.enter, Endpoint.connect, h]
  show Dialogue.ask (.dial e) _ = _
  congr 1
  funext dialed
  cases dialed <;> rfl

theorem enter_of_resp3 {e : Endpoint} (h : e.protocol = .resp3) :
    e.enter.run = .ask (.dial e) fun
      | .error cause => .done (.error (.unreachable e.address cause))
      | .ok session => .ask (.greet session .resp3) fun
        | .error cause => .done (.error (.unreachable e.address cause))
        | .ok _ => .done (.ok session) := by
  simp only [Endpoint.enter, Endpoint.connect, h]
  show Dialogue.ask (.dial e) _ = _
  congr 1
  funext dialed
  cases dialed with
  | error cause => rfl
  | ok session =>
    show Dialogue.ask (.greet session .resp3) _ = _
    congr 1
    funext greeted
    cases greeted <;> rfl

/-- A session that is opened is idle, and nothing else has changed. -/
theorem exists_enter (e : Endpoint) (l : Loopback) :
    ∃ l', e.enter.run.beside l = (.ok l.peers.length, l') ∧
      l'.Idle l.peers.length { id := l.peers.length, protocol := e.protocol } ∧
      (∀ (i : Nat) (p : Peer), l.peers[i]? = some p → l'.peers[i]? = some p) ∧
      l'.server = l.server ∧ l.now ≤ l'.now ∧ l'.peers.length = l.peers.length + 1 := by
  obtain ⟨l₁, hdial, hidle, hothers, hserver, hlength⟩ := Loopback.exists_answer_dial l e
  have hnow : l.now ≤ l₁.now := by
    have := Loopback.now_le_answer (.dial e) l
    rwa [hdial] at this
  cases h : e.protocol with
  | resp2 =>
    refine ⟨l₁, ?_, hidle, hothers, hserver, hnow, hlength⟩
    rw [enter_of_resp2 h, Dialogue.beside, Dialogue.run, hdial]
    rfl
  | resp3 =>
    obtain ⟨reply, p, hgreet, hp⟩ := Loopback.exists_answer_greet hidle rfl
    have ⟨p', hp', _⟩ := hidle
    refine ⟨l₁.tick.moved l.peers.length p l₁.server, ?_,
      Loopback.idle_moved (l := l₁.tick) hp' hp, fun i q hq => ?_, hserver,
      hnow.trans (Nat.le_add_right ..), (List.length_set ..).trans hlength⟩
    · rw [enter_of_resp3 h, Dialogue.beside, Dialogue.run, hdial]
      simp only [Dialogue.run, hgreet]
    · -- a session that stood there before is not the new one
      obtain ⟨hlt, -⟩ := List.getElem?_eq_some_iff.1 hq
      exact (List.getElem?_set_ne hlt.ne').trans (hothers i q hq)

end StoreTrial
