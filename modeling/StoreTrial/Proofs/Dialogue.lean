import StoreTrial.Dialogue

/-!
# What dialogues that can fail come to

A dialogue that can fail runs as a sequence that the first failure ends.  `Dialogue.Yields` says
what is known of every result with which it can succeed, whatever the surroundings answer, and
`Dialogue.FailsWith` what is known of every error with which it can fail.

## Main results

* `Dialogue.run_bind_or_fail` — what follows a failure is not asked for.
* `Dialogue.Yields.bind`, `Dialogue.Yields.mapM`, `Dialogue.Yields.forall_mapM` — results of
  sequences and of lists.
* `Dialogue.FailsWith.bind`, `Dialogue.FailsWith.mapM` — errors of sequences and of lists.
-/

namespace StoreTrial.Dialogue

/-- What follows a failure is not asked for. -/
theorem run_bind_or_fail {σ ε α β : Type} (answer : (r : Request) → σ → r.Answer × σ)
    (t : ExceptT ε Dialogue α) (f : α → ExceptT ε Dialogue β) (s : σ) :
    (t >>= f).run.run answer s =
      match t.run.run answer s with
      | (.ok a, s) => (f a).run.run answer s
      | (.error e, s) => (.error e, s) := by
  rw [ExceptT.run_bind, run_bind]
  cases t.run.run answer s with
  | mk result s => cases result <;> rfl

/-- Whether all results with which a dialogue can succeed satisfy a predicate. -/
structure Yields {ε α : Type} (t : ExceptT ε Dialogue α) (P : α → Prop) : Prop where
  of_run : ∀ {σ : Type} (answer : (r : Request) → σ → r.Answer × σ) {s s' : σ} {a : α},
    t.run.run answer s = (.ok a, s') → P a

section Rules

variable {ε ε' α β γ : Type} {P : α → Prop} {Q : β → Prop}

theorem Yields.pure {a : α} (h : P a) : Yields (Pure.pure a : ExceptT ε Dialogue α) P := by
  refine ⟨fun answer s s' b hrun => ?_⟩
  cases hrun
  exact h

/-- A failure has no result. -/
theorem Yields.throw {e : ε} : Yields (throw e : ExceptT ε Dialogue α) P := by
  refine ⟨fun answer s s' a hrun => ?_⟩
  cases hrun

theorem yields_any (t : ExceptT ε Dialogue α) : Yields t fun _ => True :=
  ⟨fun _ _ _ _ _ => trivial⟩

/-- The result of a sequence is that of what comes last. -/
theorem Yields.bind {t : ExceptT ε Dialogue α} {f : α → ExceptT ε Dialogue β} (h : Yields t P)
    (hf : ∀ a, P a → Yields (f a) Q) : Yields (t >>= f) Q := by
  refine ⟨fun answer s s' b hrun => ?_⟩
  rw [run_bind_or_fail] at hrun
  split at hrun
  · next a s₁ ht => exact (hf a (h.of_run answer ht)).of_run answer hrun
  · cases hrun

/-- An error that is only renamed does not touch success. -/
theorem Yields.adapt {t : ExceptT ε Dialogue α} (h : Yields t P) (f : ε → ε') :
    Yields (t.adapt f) P := by
  refine ⟨fun answer s s' a hrun => ?_⟩
  have hmap : (t.adapt f).run = Except.mapError f <$> t.run := rfl
  rw [hmap, run_map] at hrun
  cases hresult : t.run.run answer s with
  | mk result s₁ =>
    rw [hresult] at hrun
    cases result with
    | ok b =>
      cases hrun
      exact h.of_run answer hresult
    | error e => cases hrun

/-- The results for a list, one by one. -/
theorem Yields.mapM {f : α → ExceptT ε Dialogue β} {key : β → γ} {key' : α → γ}
    (h : ∀ a, Yields (f a) fun b => key b = key' a ∧ Q b) (as : List α) :
    Yields (as.mapM f) fun bs => bs.map key = as.map key' ∧ ∀ b ∈ bs, Q b := by
  induction as with
  | nil => exact .pure ⟨rfl, by simp⟩
  | cons a as ih =>
    rw [List.mapM_cons]
    refine (h a).bind fun b hb => ih.bind fun bs hbs => .pure ⟨?_, ?_⟩
    · rw [List.map_cons, List.map_cons, hb.1, hbs.1]
    · exact List.forall_mem_cons.2 ⟨hb.2, hbs.2⟩

/-- What holds of the result for each element holds of all the results for a list. -/
theorem Yields.forall_mapM {f : α → ExceptT ε Dialogue β} (h : ∀ a, Yields (f a) Q)
    (as : List α) : Yields (as.mapM f) fun bs => ∀ b ∈ bs, Q b := by
  induction as with
  | nil => exact .pure (by simp)
  | cons a as ih =>
    rw [List.mapM_cons]
    exact (h a).bind fun b hb => ih.bind fun bs hbs => .pure (List.forall_mem_cons.2 ⟨hb, hbs⟩)

end Rules

/-- Whether all errors with which a dialogue can fail satisfy a predicate. -/
structure FailsWith {ε α : Type} (t : ExceptT ε Dialogue α) (P : ε → Prop) : Prop where
  of_run : ∀ {σ : Type} (answer : (r : Request) → σ → r.Answer × σ) {s s' : σ} {e : ε},
    t.run.run answer s = (.error e, s') → P e

section ErrorRules

variable {ε ε' α β : Type} {P : ε → Prop}

theorem FailsWith.pure (a : α) : FailsWith (Pure.pure a : ExceptT ε Dialogue α) P := by
  refine ⟨fun answer s s' e hrun => ?_⟩
  cases hrun

/-- A sequence fails with an error of one of its parts. -/
theorem FailsWith.bind {t : ExceptT ε Dialogue α} {f : α → ExceptT ε Dialogue β}
    (h : FailsWith t P) (hf : ∀ a, FailsWith (f a) P) : FailsWith (t >>= f) P := by
  refine ⟨fun answer s s' e hrun => ?_⟩
  rw [run_bind_or_fail] at hrun
  split at hrun
  · next a s₁ ht => exact (hf a).of_run answer hrun
  · next error s₁ ht =>
    cases hrun
    exact h.of_run answer ht

/-- An error that is renamed is one of the new names. -/
theorem FailsWith.adapt (t : ExceptT ε Dialogue α) {f : ε → ε'} {P : ε' → Prop}
    (h : ∀ e, P (f e)) : FailsWith (t.adapt f) P := by
  refine ⟨fun answer s s' e hrun => ?_⟩
  have hmap : (t.adapt f).run = Except.mapError f <$> t.run := rfl
  rw [hmap, run_map] at hrun
  cases hresult : t.run.run answer s with
  | mk result s₁ =>
    rw [hresult] at hrun
    cases result with
    | ok a => cases hrun
    | error e' =>
      cases hrun
      exact h e'

/-- A list fails with an error for one of its elements. -/
theorem FailsWith.mapM {f : α → ExceptT ε Dialogue β} (h : ∀ a, FailsWith (f a) P)
    (as : List α) : FailsWith (as.mapM f) P := by
  induction as with
  | nil => exact .pure []
  | cons a as ih =>
    rw [List.mapM_cons]
    exact (h a).bind fun b => ih.bind fun bs => .pure (b :: bs)

end ErrorRules

end StoreTrial.Dialogue
