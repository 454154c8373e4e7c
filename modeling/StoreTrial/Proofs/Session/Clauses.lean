import Mathlib.Data.List.Forall2
import StoreTrial.Proofs.Session.Prospect

/-!
# Commands and the answers that are right

A table lists commands and says of each which answers are right.  The results of its commands comply
with it, or there is a first one that deviates.  Which of the two it is can be told from the replies
that the session has to expect, each in the place of its command.

## Main results

* `complies_iff` — results comply exactly when every reply is right.
* `DeviatesAt.satisfies` — the first deviation is the first reply that is not.
-/

namespace StoreTrial

open Resp (Value)

/-! ## Clauses -/

/-- A command and the answers to it that are right. -/
structure Clause where
  command : Command
  Right : command.Output → Prop

/-- A command succeeds; when success is all there is to say, any answer in its form says so. -/
def Clause.done (c : Command) : Clause := ⟨c, fun _ => True⟩

/-! ## Compliance -/

/-- Whether a command was answered, and as its clause prescribes. -/
def Clause.Met (k : Clause) (result : (c : Command) × Except ClientError c.Output) : Prop :=
  ∃ a, result = ⟨k.command, .ok a⟩ ∧ k.Right a

/-- Whether all commands were answered as the clauses prescribe. -/
def Complies (ks : List Clause) (results : List ((c : Command) × Except ClientError c.Output)) :
    Prop :=
  List.Forall₂ Clause.Met ks results

/-- Whether the `n`-th clause is the first that is not met. -/
inductive DeviatesAt :
    Nat → List Clause → List ((c : Command) × Except ClientError c.Output) → Prop
  | here {k ks result results} : ¬ k.Met result → DeviatesAt 0 (k :: ks) (result :: results)
  | later {n k ks result results} : k.Met result → DeviatesAt n ks results →
      DeviatesAt (n + 1) (k :: ks) (result :: results)

/-- Results that deviate somewhere do not comply. -/
theorem DeviatesAt.not_complies {n : Nat} {ks : List Clause}
    {results : List ((c : Command) × Except ClientError c.Output)}
    (h : DeviatesAt n ks results) : ¬ Complies ks results := by
  intro hcomplies
  induction h with
  | here hnot =>
    obtain ⟨hmet, -⟩ := List.forall₂_cons.1 hcomplies
    exact hnot hmet
  | later _ _ ih =>
    obtain ⟨-, hrest⟩ := List.forall₂_cons.1 hcomplies
    exact ih hrest

theorem Clause.met_mk {k : Clause} {outcome : Except ClientError k.command.Output} :
    k.Met ⟨k.command, outcome⟩ ↔ ∃ a, outcome = .ok a ∧ k.Right a := by
  constructor
  · rintro ⟨a, heq, ha⟩
    exact ⟨a, eq_of_heq (Sigma.mk.inj heq).2, ha⟩
  · rintro ⟨a, rfl, ha⟩
    exact ⟨a, rfl, ha⟩

/-! ## Replies that are right -/

/-- Whether an answer means what the clause prescribes. -/
def Clause.Accepts (k : Clause) (answer : Except ClientError Value) : Prop :=
  ∃ a, answer.bind k.command.result = .ok a ∧ k.Right a

theorem Clause.Accepts.exists_eq_ok {k : Clause} {answer : Except ClientError Value}
    (h : k.Accepts answer) : ∃ v, answer = .ok v := by
  obtain ⟨a, ha, -⟩ := h
  cases answer with
  | ok v => exact ⟨v, rfl⟩
  | error e => cases ha

/-- Whether the first of some clauses are all met by the replies in their places. -/
def Client.Satisfies (client : Client) (ks : List Clause) (n : Nat) : Prop :=
  ∀ i < n, ∀ k : Clause, ks[i]? = some k → k.Accepts (client.answerTo (ks.map (·.command)) i)

section Replies

variable {client : Client} {k : Clause} {ks : List Clause} {n : Nat}

/-- A clause is met exactly when the next reply is right. -/
theorem Clause.met_run_iff (ks : List Clause) :
    k.Met ⟨k.command, (client.run k.command).1⟩ ↔
      k.Accepts (client.answerTo ((k :: ks).map (·.command)) 0) := by
  rw [Clause.met_mk, (client.run_answerTo k.command (ks.map (·.command))).1]
  rfl

theorem Client.Satisfies.answered (h : client.Satisfies ks ks.length) :
    client.Answered (ks.map (·.command)) (ks.map (·.command)).length := by
  intro i hi
  rw [List.length_map] at hi
  exact (h i hi _ (List.getElem?_eq_getElem hi)).exists_eq_ok

/-- After a clause that is met, the replies to the others are those behind it. -/
theorem Client.satisfies_succ
    (h : k.Accepts (client.answerTo ((k :: ks).map (·.command)) 0)) :
    client.Satisfies (k :: ks) (n + 1) ↔ (client.run k.command).2.Satisfies ks n := by
  obtain ⟨v, hv⟩ := h.exists_eq_ok
  have hlater := (client.run_answerTo k.command (ks.map (·.command))).2 v hv
  constructor
  · intro hall i hi k' hk'
    rw [hlater]
    exact hall (i + 1) (by omega) k' hk'
  · intro hall i hi k' hk'
    cases i with
    | zero =>
      cases hk'
      exact h
    | succ i =>
      have hlast := hall i (by omega) k' hk'
      rwa [hlater] at hlast

/-- Results comply exactly when every reply is right. -/
theorem complies_iff :
    Complies ks (client.runAll (ks.map (·.command))).1 ↔ client.Satisfies ks ks.length := by
  induction ks generalizing client with
  | nil => exact ⟨fun _ i hi => absurd hi (Nat.not_lt_zero i), fun _ => .nil⟩
  | cons k ks ih =>
    have hrun : (client.runAll ((k :: ks).map (·.command))).1 =
        ⟨k.command, (client.run k.command).1⟩ ::
          ((client.run k.command).2.runAll (ks.map (·.command))).1 := rfl
    rw [hrun, Complies, List.forall₂_cons, Clause.met_run_iff ks, ← Complies, ih]
    constructor
    · rintro ⟨hhead, hrest⟩
      exact (Client.satisfies_succ hhead).2 hrest
    · intro hall
      have hhead := hall 0 (Nat.succ_pos _) k rfl
      exact ⟨hhead, (Client.satisfies_succ hhead).1 hall⟩

/-- The first deviation is the first reply that is not right. -/
theorem DeviatesAt.satisfies (h : DeviatesAt n ks (client.runAll (ks.map (·.command))).1) :
    n < ks.length ∧ client.Satisfies ks n ∧ ¬ client.Satisfies ks (n + 1) := by
  induction ks generalizing client n with
  | nil => cases h
  | cons k ks ih =>
    have hrun : (client.runAll ((k :: ks).map (·.command))).1 =
        ⟨k.command, (client.run k.command).1⟩ ::
          ((client.run k.command).2.runAll (ks.map (·.command))).1 := rfl
    rw [hrun] at h
    cases h with
    | here hnot =>
      rw [Clause.met_run_iff ks] at hnot
      exact ⟨Nat.succ_pos _, fun i hi => absurd hi (Nat.not_lt_zero i),
        fun hall => hnot (hall 0 (Nat.succ_pos _) k rfl)⟩
    | later hmet hrest =>
      -- places are counted from the second clause on, and the replies with them
      have hhead := (Clause.met_run_iff ks).1 hmet
      obtain ⟨hlt, hall, hnot⟩ := ih hrest
      exact ⟨Nat.succ_lt_succ hlt, (Client.satisfies_succ hhead).2 hall,
        fun hmore => hnot ((Client.satisfies_succ hhead).1 hmore)⟩

end Replies

end StoreTrial
