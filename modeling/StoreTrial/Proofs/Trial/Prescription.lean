import Mathlib.Data.List.Forall2
import StoreTrial.Proofs.Session.Clauses
import StoreTrial.Proofs.Trial.Performance

/-!
# What a case prescribes

A case stands for a table: command by command, the answers that are right. The tables below go
through the pairs by their indices, as the contract is worded, and know nothing of scripts. A server
may answer with whatever it likes, or close the connection; the case passes if and only if every
answer is right. Otherwise it fails at the first answer that is not, and the requests that follow
are never written.

## Main results

* `Step.run_performAll_of_enforces` — a script that enforces clauses ends at the first one not met.
* `Case.enforces_clauses` — the script of a case enforces its table.
* `Case.passes_iff_complies` — a case passes exactly when every answer is right.
-/

namespace StoreTrial

open Step (payload)

/-! ## Clauses -/

namespace Clause

/-- A plain write is applied. -/
def set (key value : String) : Clause :=
  ⟨.set (payload key) (payload value) {}, (· = .stored)⟩

/-- A conditional write has a certain reply. -/
def setIf (condition : Condition) (key value : String) (reply : SetReply) : Clause :=
  ⟨.set (payload key) (payload value) { condition := some condition }, (· = reply)⟩

/-- A write returns the value held before, or its absence. -/
def replace (key value : String) (before : Option String) : Clause :=
  ⟨.set (payload key) (payload value) { previous := true }, (· = .previous (before.map payload))⟩

/-- A key holds exactly the bytes of a value. -/
def get (key value : String) : Clause := ⟨.get (payload key), (· = some (payload value))⟩

/-- A deletion removes so many keys. -/
def del (key : String) (n : Int64) : Clause := ⟨.del [payload key], (· = n)⟩

/-- A key is not counted among those that exist. -/
def gone (key : String) : Clause := ⟨.present [payload key], (· ≤ 0)⟩

/-- A write is queued in a block. -/
def queued (key value : String) : Clause :=
  ⟨.queued (.set (payload key) (payload value) {}), (· = .queued)⟩

/-- A block is applied, with so many replies. -/
def committed (n : Nat) : Clause :=
  ⟨.exec, fun outcome => ∃ replies, outcome = .committed replies ∧ replies.length = n⟩

end Clause

/-! ## Tables -/

namespace Prescription

/-- The keys up to the middle are put in place. -/
def preset (d : Dataset) : List Clause :=
  (d.pairs.zipIdx.filter fun (_, i) => d.inFirstHalf i).map fun ((key, value), _) =>
    Clause.set key value

/-- All pairs are written. -/
def written (d : Dataset) : List Clause := d.pairs.map fun (key, value) => Clause.set key value

/-- All pairs are found. -/
def found (d : Dataset) : List Clause := d.pairs.map fun (key, value) => Clause.get key value

/-- What is written is found. -/
def setGet (d : Dataset) : List Clause := written d ++ found d

/-- Writes on the condition of absence are refused up to the middle and applied after it. -/
def setNx (fresh : Nat → String) (d : Dataset) : List Clause :=
  preset d
    ++ d.pairs.zipIdx.map (fun ((key, value), i) =>
      if d.inFirstHalf i then Clause.setIf .ifAbsent key (fresh i) .notStored
      else Clause.setIf .ifAbsent key value .stored)
    ++ found d

/-- Writes on the condition of presence are applied up to the middle and refused after it. -/
def setXx (d : Dataset) : List Clause :=
  preset d
    ++ d.pairs.zipIdx.map (fun ((key, value), i) =>
      Clause.setIf .ifPresent key (Script.modified value)
        (if d.inFirstHalf i then .stored else .notStored))
    ++ d.pairs.zipIdx.map (fun ((key, value), i) =>
      if d.inFirstHalf i then Clause.get key (Script.modified value) else Clause.gone key)

/-- Writes return the value up to the middle and its absence after it. -/
def setGetOption (d : Dataset) : List Clause :=
  preset d
    ++ d.pairs.zipIdx.map (fun ((key, value), i) =>
      Clause.replace key (Script.modified value) (if d.inFirstHalf i then some value else none))
    ++ d.pairs.map fun (key, value) => Clause.get key (Script.modified value)

/-- The first deletion counts one key and the second none. -/
def del (d : Dataset) : List Clause :=
  written d ++ d.keys.map (fun key => Clause.del key 1)
    ++ d.keys.flatMap fun key => [Clause.del key 0, Clause.gone key]

/-- A block of writes is applied, with one reply for each. -/
def txCommit (d : Dataset) : List Clause :=
  Clause.done .multi :: d.pairs.map (fun (key, value) => Clause.queued key value)
    ++ Clause.committed d.size :: found d

/-- A discarded block leaves every key with its index. -/
def txDiscard (d : Dataset) : List Clause :=
  d.keys.zipIdx.map (fun (key, i) => Clause.set key (Decimal.ofNat i))
    ++ (Clause.done .multi
        :: d.pairs.map (fun (key, value) => Clause.queued key (Script.modified value))
      ++ [Clause.done .discard])
    ++ d.keys.zipIdx.map fun (key, i) => Clause.get key (Decimal.ofNat i)

/-- Every `every`-th key is deleted, and the others keep the last of their versions. -/
def merge (versions every : Nat) (d : Dataset) : List Clause :=
  written d
    ++ (List.range' 1 versions).flatMap (fun version =>
      d.pairs.zipIdx.map fun ((key, value), i) => Clause.set key (Script.versioned version i value))
    ++ (d.keys.zipIdx.filter fun (_, i) => i % every = 0).map (fun (key, _) => Clause.del key 1)
    ++ Clause.done .merge :: d.pairs.zipIdx.map fun ((key, value), i) =>
      if i % every = 0 then Clause.gone key else Clause.get key (Script.versioned versions i value)

end Prescription

/-- The table of a case, for the cases in which every answer is prescribed. -/
def Case.clauses? (config : ConformanceConfig) (draw : Draw) : Case → Option (List Clause)
  | setGet => some (Prescription.setGet draw.data)
  | setNx => some (Prescription.setNx draw.fresh draw.data)
  | setXx => some (Prescription.setXx draw.data)
  | setGetOption => some (Prescription.setGetOption draw.data)
  | del => some (Prescription.del draw.data)
  | txCommit => some (Prescription.txCommit draw.data)
  | txDiscard => some (Prescription.txDiscard draw.data)
  | merge =>
    some (Prescription.merge config.mergeVersions.toNat config.mergeDeleteEvery.toNat draw.data)
  | setEx | setPx | txAtomic | txInvalidCommand | txWatch | pubSub => none

/-! ## Scripts that enforce clauses -/

/--
Whether a step runs the command of a clause and finds fault with exactly the answers that are not
right. Only answers that can be read off a reply matter: a plain write, say, never returns a value.
-/
def Step.Enforces (step : Step) (k : Clause) : Prop :=
  ∃ party fault, step = .expect party k.command fault ∧
    ∀ v a, k.command.result v = .ok a → (fault a = none ↔ k.Right a)

/-- An answer that is not an error was read off a reply. -/
theorem Client.exists_result_of_run_eq_ok {client : Client} {c : Command} {a : c.Output}
    (h : (client.run c).1 = .ok a) : ∃ v, c.result v = .ok a := by
  unfold run at h
  split at h
  · cases h
  · next reply _ _ => exact ⟨reply, h⟩

namespace Step

variable {session : Party → Nat} {step : Step} {steps : List Step} {k : Clause}
  {ks : List Clause}

/-- A step sends its one request, and goes on if and only if the clause is met. -/
theorem run_perform_of_enforces (h : step.Enforces k) (client : Client) :
    ∃ result, (step.perform session).run.replay client = (result, (client.run k.command).2) ∧
      (result = .ok () ↔ k.Met ⟨k.command, (client.run k.command).1⟩) := by
  obtain ⟨party, fault, rfl, hfault⟩ := h
  refine ⟨verdict fault (client.run k.command).1, rfl, ?_⟩
  rw [Clause.met_mk]
  cases hrun : (client.run k.command).1 with
  | error cause => simp [verdict]
  | ok a =>
    obtain ⟨v, hv⟩ := Client.exists_result_of_run_eq_ok hrun
    rw [show verdict fault (.ok a) = (fault a).elim (.ok ()) .error from rfl]
    have hright := hfault v a hv
    cases hf : fault a with
    | none => simpa [hf] using hright
    | some failure => simpa [hf] using hright

/--
A script that enforces clauses runs to its end if they are all met, and otherwise fails at the
first one that is not, with no request after the one in question.
-/
theorem run_performAll_of_enforces (h : List.Forall₂ Enforces steps ks) (client : Client) :
    (Complies ks (client.runAll (ks.map (·.command))).1 ∧
      (performAll session steps).run.replay client =
        (.ok (), (client.runAll (ks.map (·.command))).2)) ∨
    ∃ n failure, DeviatesAt n ks (client.runAll (ks.map (·.command))).1 ∧
      (performAll session steps).run.replay client =
        (.error failure, (client.runAll ((ks.map (·.command)).take (n + 1))).2) := by
  induction h generalizing client with
  | nil => exact .inl ⟨.nil, rfl⟩
  | @cons step k steps ks hstep _ ih =>
    obtain ⟨result, hresult, hiff⟩ := @run_perform_of_enforces session step k hstep client
    have hrun := run_performAll_cons Client.answer session step steps client
    rw [show (step.perform session).run.run Client.answer client = _ from hresult] at hrun
    cases result with
    | error failure =>
      have hnot : ¬ k.Met ⟨k.command, (client.run k.command).1⟩ := fun hmet => by
        cases hiff.2 hmet
      exact .inr ⟨0, failure, .here hnot, hrun⟩
    | ok _ =>
      have hmet := hiff.1 rfl
      obtain ⟨hcomplies, hrest⟩ | ⟨n, failure, hdeviates, hrest⟩ := ih (client.run k.command).2
      · exact .inl ⟨.cons hmet hcomplies, hrun.trans hrest⟩
      · exact .inr ⟨n + 1, failure, .later hmet hdeviates, hrun.trans hrest⟩

end Step

/-! ## Steps and their clauses -/

/-- An answer to a write that does not return a value says whether the write was applied. -/
theorem Command.stored_or_notStored {key value : Bytes} {o : SetOptions} {v : Resp.Value}
    {reply : SetReply} (ho : o.previous = false)
    (h : (set key value o).result v = .ok reply) : reply = .stored ∨ reply = .notStored := by
  have hdecode : expectStored v = .ok reply ∨ ∃ message, v = .error message := by
    cases v <;> simp_all [result, decode, decodesErrors]
  obtain hdecode | ⟨message, rfl⟩ := hdecode
  · unfold expectStored at hdecode
    split at hdecode
    · cases hdecode
      exact .inr rfl
    · split at hdecode
      · cases hdecode
        exact .inl rfl
      · cases hdecode
  · cases h

namespace Step

/-- A check of what an answer means, whatever reply it was read off. -/
theorem enforces_expect {k : Clause} {party : Party}
    {fault : k.command.Output → Option CaseFailure}
    (h : ∀ a, fault a = none ↔ k.Right a) : (expect party k.command fault).Enforces k :=
  ⟨party, fault, rfl, fun _ a _ => h a⟩

theorem enforces_command (party : Party) (c : Command) : (command party c).Enforces (.done c) :=
  enforces_expect (k := .done c) fun _ => by simp [Clause.done]

theorem enforces_store (party : Party) (key value : String) :
    (store party key value).Enforces (.set key value) := by
  refine ⟨party, _, rfl, fun v reply h => ?_⟩
  obtain rfl | rfl := Command.stored_or_notStored rfl h
  all_goals simp [Clause.set, SetReply.isStored]

theorem enforces_read (party : Party) (key value : String) :
    (read party key value).Enforces (.get key value) :=
  enforces_expect (k := .get key value) fun _ => faultUnless_eq_none.trans beq_iff_eq

theorem enforces_absent (moment : Aftermath) (key : String) :
    (absent moment key).Enforces (.gone key) :=
  enforces_expect (k := .gone key) fun (_ : Int64) => faultUnless_eq_none.trans decide_eq_true_iff

theorem enforces_delete (key : String) : (delete key).Enforces (.del key 1) :=
  enforces_expect (k := .del key 1) fun _ => faultUnless_eq_none.trans beq_iff_eq

theorem enforces_queueStore (key value : String) :
    (queueStore key value).Enforces (.queued key value) :=
  enforces_expect (k := .queued key value) fun _ => faultUnless_eq_none.trans beq_iff_eq

end Step

namespace Script

open Step (enforces_expect)

theorem enforces_storeIf (condition : Condition) (expected : SetReply)
    (failure : String → SetReply → CaseFailure) (key value : String) :
    (storeIf condition expected failure key value).Enforces
      (.setIf condition key value expected) :=
  enforces_expect (k := .setIf condition key value expected) fun _ =>
    faultUnless_eq_none.trans beq_iff_eq

theorem enforces_exchange (key value : String) (before : Option String) :
    (exchange key value before).Enforces (.replace key (modified value) before) :=
  enforces_expect (k := .replace key (modified value) before) fun reply => by
    cases reply with
    | previous actual =>
      refine (faultUnless_eq_none.trans beq_iff_eq).trans ?_
      simp [Clause.replace, eq_comm]
    | stored => simp [Clause.replace, previousFault]
    | notStored => simp [Clause.replace, previousFault]

theorem enforces_commit (n : Nat) :
    (Step.expect .checker .exec (commitFault n)).Enforces (.committed n) :=
  enforces_expect (k := .committed n) fun outcome => by
    cases outcome <;> simp [Clause.committed, commitFault]

end Script

/-! ## Halves -/

namespace Dataset

variable (d : Dataset)

theorem zipIdx_eq : d.pairs.zipIdx = d.early.zipIdx ++ d.late.zipIdx d.early.length := by
  rw [← d.early_append_late, List.zipIdx_append, Nat.zero_add]

variable {d} {x : (String × String) × Nat}

theorem inFirstHalf_of_mem_early (h : x ∈ d.early.zipIdx) : d.inFirstHalf x.2 = true := by
  have hlt := List.snd_lt_of_mem_zipIdx h
  simp only [early, List.length_take] at hlt
  simp only [inFirstHalf, decide_eq_true_eq]
  omega

theorem inFirstHalf_of_mem_late (h : x ∈ d.late.zipIdx d.early.length) :
    d.inFirstHalf x.2 = false := by
  have hle := List.le_snd_of_mem_zipIdx h
  have hlt := List.snd_lt_of_mem_zipIdx h
  simp only [early, late, size, List.length_take, List.length_drop] at hle hlt
  rw [inFirstHalf, decide_eq_false_iff_not, size]
  omega

variable (d)

/-- The indices of the first half are those of its pairs. -/
theorem filter_inFirstHalf :
    d.pairs.zipIdx.filter (fun (_, i) => d.inFirstHalf i) = d.early.zipIdx := by
  rw [zipIdx_eq, List.filter_append, List.filter_eq_self.2 fun _ => inFirstHalf_of_mem_early,
    List.filter_eq_nil_iff.2 fun _ hx => by simp [inFirstHalf_of_mem_late hx], List.append_nil]

end Dataset

/-! ## Scripts and their tables -/

open List (Forall₂)

/-- Steps for the elements of a list enforce clauses for the same elements. -/
theorem enforces_map {α : Type} {xs : List α} {f : α → Step} {g : α → Clause}
    (h : ∀ x ∈ xs, (f x).Enforces (g x)) : Forall₂ Step.Enforces (xs.map f) (xs.map g) := by
  rw [List.forall₂_map_left_iff, List.forall₂_map_right_iff, List.forall₂_same]
  exact h

theorem enforces_flatMap {α : Type} {xs : List α} {f : α → List Step} {g : α → List Clause}
    (h : ∀ x ∈ xs, Forall₂ Step.Enforces (f x) (g x)) :
    Forall₂ Step.Enforces (xs.flatMap f) (xs.flatMap g) := by
  induction xs with
  | nil => exact .nil
  | cons x xs ih =>
    obtain ⟨hx, hxs⟩ := List.forall_mem_cons.1 h
    exact List.rel_append hx (ih hxs)

/-- A loop that does not look at the indices is a loop over the elements. -/
theorem map_fst_zipIdx {α β : Type} (f : α → β) (xs : List α) (n : Nat) :
    (xs.zipIdx n).map (fun x => f x.1) = xs.map f :=
  calc (xs.zipIdx n).map (fun x => f x.1)
      = ((xs.zipIdx n).map Prod.fst).map f := (List.map_map ..).symm
    _ = xs.map f := by rw [List.zipIdx_map_fst]

section Halves

variable {d : Dataset} {late : String × String → Step} {clause : (String × String) × Nat → Clause}

/-- Steps for one half after the other enforce clauses that tell the halves apart by index. -/
theorem enforces_halves_zipIdx {early : (String × String) × Nat → Step}
    (hearly : ∀ x, d.inFirstHalf x.2 = true → (early x).Enforces (clause x))
    (hlate : ∀ x, d.inFirstHalf x.2 = false → (late x.1).Enforces (clause x)) :
    Forall₂ Step.Enforces (d.early.zipIdx.map early ++ d.late.map late)
      (d.pairs.zipIdx.map clause) := by
  rw [d.zipIdx_eq, List.map_append, ← map_fst_zipIdx late d.late d.early.length]
  exact List.rel_append
    (enforces_map fun x hx => hearly x (Dataset.inFirstHalf_of_mem_early hx))
    (enforces_map fun x hx => hlate x (Dataset.inFirstHalf_of_mem_late hx))

theorem enforces_halves {early : String × String → Step}
    (hearly : ∀ x, d.inFirstHalf x.2 = true → (early x.1).Enforces (clause x))
    (hlate : ∀ x, d.inFirstHalf x.2 = false → (late x.1).Enforces (clause x)) :
    Forall₂ Step.Enforces (d.early.map early ++ d.late.map late) (d.pairs.zipIdx.map clause) := by
  rw [← map_fst_zipIdx early d.early 0]
  exact enforces_halves_zipIdx hearly hlate

end Halves

namespace Script

open Step

variable (d : Dataset)

theorem enforces_storeAll (pairs : List (String × String)) :
    Forall₂ Enforces (storeAll pairs) (pairs.map fun (key, value) => .set key value) :=
  enforces_map fun (key, value) _ => enforces_store _ key value

theorem enforces_readAll (pairs : List (String × String)) :
    Forall₂ Enforces (readAll pairs) (pairs.map fun (key, value) => .get key value) :=
  enforces_map fun (key, value) _ => enforces_read _ key value

theorem enforces_queueAll (pairs : List (String × String)) :
    Forall₂ Enforces (queueAll pairs) (pairs.map fun (key, value) => .queued key value) :=
  enforces_map fun (key, value) _ => enforces_queueStore key value

theorem enforces_preset : Forall₂ Enforces (storeAll d.early) (Prescription.preset d) := by
  rw [storeAll, Prescription.preset, d.filter_inFirstHalf, ← map_fst_zipIdx _ d.early 0]
  exact enforces_map fun ((key, value), _) _ => enforces_store _ key value

theorem enforces_setGet : Forall₂ Enforces (setGet d) (Prescription.setGet d) :=
  List.rel_append (enforces_storeAll d.pairs) (enforces_readAll d.pairs)

theorem enforces_setNx (fresh : Nat → String) :
    Forall₂ Enforces (setNx fresh d) (Prescription.setNx fresh d) := by
  rw [setNx, List.append_assoc (storeAll d.early)]
  refine List.rel_append (List.rel_append (enforces_preset d) (enforces_halves_zipIdx ?_ ?_))
    (enforces_readAll d.pairs)
  · intro ((key, value), i) hi
    simp only [hi, if_true]
    exact enforces_storeIf ..
  · intro ((key, value), i) hi
    simp only [hi, Bool.false_eq_true, if_false]
    exact enforces_storeIf ..

theorem enforces_setXx : Forall₂ Enforces (setXx d) (Prescription.setXx d) := by
  rw [setXx, modifiedAll, modifiedAll, List.map_map, List.map_map, readAll, absentAll,
    List.map_map, List.append_assoc (_ ++ _), List.append_assoc (storeAll d.early)]
  refine List.rel_append (List.rel_append (enforces_preset d) (enforces_halves ?_ ?_))
    (enforces_halves ?_ ?_)
  · intro ((key, value), i) hi
    simp only [hi, if_true]
    exact enforces_storeIf ..
  · intro ((key, value), i) hi
    simp only [hi, Bool.false_eq_true, if_false]
    exact enforces_storeIf ..
  · intro ((key, value), i) hi
    simp only [hi, if_true]
    exact enforces_read ..
  · intro ((key, value), i) hi
    simp only [hi, Bool.false_eq_true, if_false]
    exact enforces_absent ..

theorem enforces_setGetOption :
    Forall₂ Enforces (setGetOption d) (Prescription.setGetOption d) := by
  rw [setGetOption, List.append_assoc (storeAll d.early), modifiedAll, readAll, List.map_map]
  refine List.rel_append (List.rel_append (enforces_preset d) (enforces_halves ?_ ?_))
    (enforces_map fun (key, value) _ => enforces_read ..)
  · intro ((key, value), i) hi
    simp only [hi, if_true]
    exact enforces_exchange ..
  · intro ((key, value), i) hi
    simp only [hi, Bool.false_eq_true, if_false]
    exact enforces_exchange ..

theorem enforces_deleteAgain (key : String) :
    Forall₂ Enforces (deleteAgain key) [.del key 0, .gone key] :=
  .cons (enforces_expect (k := .del key 0) fun _ => faultUnless_eq_none.trans beq_iff_eq)
    (.cons (enforces_absent ..) .nil)

theorem enforces_del : Forall₂ Enforces (del d) (Prescription.del d) :=
  List.rel_append
    (List.rel_append (enforces_storeAll d.pairs) (enforces_map fun key _ => enforces_delete key))
    (enforces_flatMap fun key _ => enforces_deleteAgain key)

theorem enforces_txCommit : Forall₂ Enforces (txCommit d) (Prescription.txCommit d) :=
  List.rel_append (.cons (enforces_command ..) (enforces_queueAll d.pairs))
    (.cons (enforces_commit d.size) (enforces_readAll d.pairs))

theorem enforces_txDiscard : Forall₂ Enforces (txDiscard d) (Prescription.txDiscard d) := by
  rw [txDiscard, numbered, modifiedAll, storeAll, readAll, queueAll, List.map_map, List.map_map,
    List.map_map]
  refine List.rel_append (List.rel_append (enforces_map ?_)
    (List.rel_append (.cons (enforces_command ..) (enforces_map ?_))
      (.cons (enforces_command ..) .nil))) (enforces_map ?_)
  · exact fun (key, i) _ => enforces_store ..
  · exact fun (key, value) _ => enforces_queueStore ..
  · exact fun (key, i) _ => enforces_read ..

theorem enforces_merge (versions every : Nat) :
    Forall₂ Enforces (merge versions every d) (Prescription.merge versions every d) := by
  refine List.rel_append (List.rel_append (List.rel_append (enforces_storeAll d.pairs)
    (enforces_flatMap fun version _ => ?_)) (enforces_map fun (key, _) _ => enforces_delete key))
    (.cons (enforces_command ..) (enforces_map ?_))
  · rw [storeAll, versionOf, List.map_map]
    exact enforces_map fun ((key, value), i) _ => enforces_store ..
  · intro ((key, value), i) _
    by_cases hi : i % every = 0
    · simp only [compacted, hi, if_true]
      exact enforces_absent ..
    · simp only [compacted, hi, if_false]
      exact enforces_read ..

end Script

namespace Case

/-- The script of a case enforces its table. -/
theorem enforces_clauses {c : Case} {config : ConformanceConfig} {draw : Draw}
    {ks : List Clause} (h : c.clauses? config draw = some ks) :
    Forall₂ Step.Enforces (c.steps config draw) ks := by
  cases c <;> cases h
  case setGet => exact Script.enforces_setGet _
  case setNx => exact Script.enforces_setNx ..
  case setXx => exact Script.enforces_setXx _
  case setGetOption => exact Script.enforces_setGetOption _
  case del => exact Script.enforces_del _
  case txCommit => exact Script.enforces_txCommit _
  case txDiscard => exact Script.enforces_txDiscard _
  case merge => exact Script.enforces_merge ..

variable {c : Case} {e : Endpoint} {config : ConformanceConfig} {draw : Draw} {ks : List Clause}
  {client connected : Client} {session : Nat}

/-- Once its session is open, a case is its script. -/
theorem replay_trial_of_connected (hks : c.clauses? config draw = some ks)
    (hconnected : e.enter.run.replay client = (.ok session, connected)) :
    (c.trial e config draw).run.replay client =
      (Step.performAll (fun _ => session) (c.steps config draw)).run.replay connected := by
  have halone : c.trial e config draw = performAlone e fun () => c.steps config draw := by
    apply trial_eq_performAlone
    all_goals
      rintro rfl
      cases hks
  rw [halone]
  unfold performAlone
  refine (Trial.run_bind Client.answer ..).trans ?_
  rw [show e.enter.run.run Client.answer client = _ from hconnected]
  rfl

/--
**A case passes exactly when every answer is right.** Whatever a server sends to an open session,
in whatever pieces, and wherever it breaks off, the case passes if and only if the results of its
commands comply with its table. Otherwise there is a first result that does not, and the case fails
there: the session is left as it was after that command, so that nothing more has been written.
-/
theorem passes_iff_complies (hks : c.clauses? config draw = some ks)
    (hconnected : e.enter.run.replay client = (.ok session, connected)) :
    (((c.trial e config draw).run.replay client).1 = .ok () ↔
      Complies ks (connected.runAll (ks.map (·.command))).1) ∧
    (¬ Complies ks (connected.runAll (ks.map (·.command))).1 →
      ∃ n failure, DeviatesAt n ks (connected.runAll (ks.map (·.command))).1 ∧
        (c.trial e config draw).run.replay client =
          (.error failure, (connected.runAll ((ks.map (·.command)).take (n + 1))).2)) := by
  rw [replay_trial_of_connected hks hconnected]
  obtain ⟨hcomplies, hrun⟩ | ⟨n, failure, hdeviates, hrun⟩ :=
    Step.run_performAll_of_enforces (enforces_clauses hks) connected
  · rw [hrun]
    exact ⟨iff_of_true rfl hcomplies, fun hnot => absurd hcomplies hnot⟩
  · have hnot := hdeviates.not_complies
    rw [hrun]
    exact ⟨iff_of_false (by simp) hnot, fun _ => ⟨n, failure, hdeviates, rfl⟩⟩

/-- One pair. -/
def onePair : Draw where
  data := .ofPairs [("k", "v")]
  fresh _ := ""
  watched := ""
  rival := ""

/-- A session with a server that confirms a write and deletes nothing. -/
def undeleting : Client :=
  .overTransport ⟨[.data [43, 79, 75, 13, 10, 58], .data [48, 13, 10]], [], none⟩

/-- Where nothing is deleted the case about deletions fails, and asks for no second deletion. -/
theorem del_deviates_where_nothing_is_deleted :
    ∃ n failure, DeviatesAt n (Prescription.del onePair.data)
        (undeleting.runAll ((Prescription.del onePair.data).map (·.command))).1 ∧
      (Case.del.trial .stockReference {} onePair).run.replay undeleting =
        (.error failure, (undeleting.runAll
          (((Prescription.del onePair.data).map (·.command)).take (n + 1))).2) := by
  refine (passes_iff_complies (e := .stockReference) rfl rfl).2 ?_
  have hdelivers : undeleting.connection.Delivers [.simple "OK", .integer 0] := by
    refine ⟨?_, by decide +kernel, by decide, by decide⟩
    simp [undeleting, Client.overTransport, Connection.Steady]
  obtain ⟨hset, hrest, hroom, hversion⟩ := Client.run_of_delivers hdelivers
    (c := .set (payload "k") (payload "v") {})
    (n := (Resp.encode .resp2 (Command.del [payload "k"]).toFrame).length)
    (by simp [undeleting, Client.overTransport, Transport.Admits, Transport.room])
  obtain ⟨hdel, -⟩ := Client.run_of_delivers hrest (c := .del [payload "k"]) (n := 0)
    (by rwa [hversion])
  refine DeviatesAt.not_complies (.later (Clause.met_mk.2 ⟨.stored, hset, rfl⟩) (.here ?_))
  rintro hmet
  obtain ⟨n, hn, rfl⟩ := Clause.met_mk.1 hmet
  cases hdel.symm.trans hn

end Case

end StoreTrial
