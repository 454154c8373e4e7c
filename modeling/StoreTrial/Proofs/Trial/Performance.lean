import StoreTrial.Proofs.Dialogue
import StoreTrial.Trial.Suite

/-!
# How a script runs

In any surroundings a trial runs as a sequence that the first failure ends: what comes after it is
not asked for. A step asks for one thing only, and its check alone decides whether the script goes
on.

## Main results

* `Trial.run_bind` — what follows a failure is not asked for.
* `Step.run_performAll_append` — a script runs part by part.
* `Case.trial_eq_performAlone` — most cases are a script alone.
-/

namespace StoreTrial

variable {σ : Type} (answer : (r : Request) → σ → r.Answer × σ)

/-! ## Sequences -/

/-- What follows a failure is not asked for. -/
theorem Trial.run_bind {α β : Type} (t : Trial α) (f : α → Trial β) (s : σ) :
    (t >>= f).run.run answer s =
      match t.run.run answer s with
      | (.ok a, s) => (f a).run.run answer s
      | (.error e, s) => (.error e, s) := by
  rw [Dialogue.run_bind_or_fail]
  cases t.run.run answer s with
  | mk result s => cases result <;> rfl

/-- What succeeds is followed by what depends on its result. -/
theorem Trial.run_bind_of_ok {α β : Type} {t : Trial α} {f : α → Trial β} {s s' : σ} {a : α}
    (h : t.run.run answer s = (.ok a, s')) :
    (t >>= f).run.run answer s = (f a).run.run answer s' := by
  rw [run_bind, h]

/-- Where a sequence succeeds its parts do. -/
theorem Trial.exists_of_run_bind {α β : Type} {t : Trial α} {f : α → Trial β} {s s' : σ} {b : β}
    (h : (t >>= f).run.run answer s = (.ok b, s')) :
    ∃ a s₁, t.run.run answer s = (.ok a, s₁) ∧ (f a).run.run answer s₁ = (.ok b, s') := by
  rw [run_bind] at h
  split at h
  · next a s₁ ht => exact ⟨a, s₁, ht, h⟩
  · cases h

/-- What cannot fail succeeds. -/
theorem Trial.run_liftM {α : Type} (d : Dialogue α) (s : σ) :
    (liftM d : Trial α).run.run answer s = (.ok (d.run answer s).1, (d.run answer s).2) := by
  have hrun : (liftM d : Trial α).run = Except.ok <$> d := rfl
  rw [hrun, Dialogue.run_map]

namespace Step

variable (session : Party → Nat)

/-! ## Steps -/

/-- A command is run, and its answer checked. -/
theorem run_perform_expect (party : Party) (c : Command) (fault : c.Output → Option CaseFailure)
    (s : σ) :
    ((expect party c fault).perform session).run.run answer s =
      (verdict fault (answer (.run (session party) c) s).1,
        (answer (.run (session party) c) s).2) := rfl

/-- A pause is made. -/
theorem run_perform_pause (d : Duration) (s : σ) :
    ((pause d).perform session).run.run answer s = (.ok (), (answer (.pause d) s).2) := rfl

/-! ## Scripts -/

theorem run_performAll_nil (s : σ) :
    (performAll session []).run.run answer s = (.ok (), s) := rfl

theorem run_performAll_cons (step : Step) (steps : List Step) (s : σ) :
    (performAll session (step :: steps)).run.run answer s =
      match (step.perform session).run.run answer s with
      | (.ok _, s) => (performAll session steps).run.run answer s
      | (.error e, s) => (.error e, s) := by
  rw [performAll_cons, Trial.run_bind]
  cases (step.perform session).run.run answer s with
  | mk result s => cases result <;> rfl

/-- A script runs part by part. -/
theorem run_performAll_append (xs ys : List Step) (s : σ) :
    (performAll session (xs ++ ys)).run.run answer s =
      match (performAll session xs).run.run answer s with
      | (.ok _, s) => (performAll session ys).run.run answer s
      | (.error e, s) => (.error e, s) := by
  induction xs generalizing s with
  | nil => rw [List.nil_append, run_performAll_nil]
  | cons step steps ih =>
    rw [List.cons_append, run_performAll_cons, run_performAll_cons]
    cases (step.perform session).run.run answer s with
    | mk result s =>
      cases result with
      | ok _ => exact ih s
      | error e => rfl

end Step

/-! ## Cases that are a script -/

namespace Case

/-- The script of a case; the case about published messages has none. -/
def steps (config : ConformanceConfig) (draw : Draw) : Case → List Step
  | setGet => Script.setGet draw.data
  | setEx => Script.setEx config draw.data
  | setPx => Script.setPx config draw.data
  | setNx => Script.setNx draw.fresh draw.data
  | setXx => Script.setXx draw.data
  | setGetOption => Script.setGetOption draw.data
  | del => Script.del draw.data
  | txAtomic => Script.txAtomic draw.data
  | txCommit => Script.txCommit draw.data
  | txDiscard => Script.txDiscard draw.data
  | txInvalidCommand => Script.txInvalidCommand draw.data
  | txWatch => Script.txWatch draw.watched draw.rival draw.data
  | pubSub => []
  | merge => Script.merge config.mergeVersions.toNat config.mergeDeleteEvery.toNat draw.data

variable {c : Case} {e : Endpoint} {config : ConformanceConfig} {draw : Draw}

/-- A case without a rival is a script alone. -/
theorem trial_eq_performAlone (hpubSub : c ≠ pubSub) (hwatch : c ≠ txWatch) :
    c.trial e config draw = performAlone e fun () => c.steps config draw := by
  cases c <;> first | rfl | contradiction

end Case

end StoreTrial
