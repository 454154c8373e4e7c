import Mathlib.Algebra.GroupWithZero.Nat
import Mathlib.Tactic.SplitIfs
import StoreTrial.Load.Summary

/-!
# What comes out of the channel of a run

All virtual users of a run put their events into one channel, and one collector counts what comes
out of it.  Each user puts its events in order, but whose event is next is up to the scheduler.
None of that can be told from the summary: an event adds one to the counts of its kind, in whatever
order the events come, and an interleaving has the events of all users and no other.

## Main results

* `Interleaving.perm` — an interleaving has the events of all users.
* `LoadSummary.record_comm`, `LoadSummary.collect_perm` — the order of the events does not matter.
* `LoadSummary.collect_interleaving` — the summary of a run, whatever the scheduler does.
-/

namespace StoreTrial

/-! ## Interleavings -/

/--
Whether events can come in this order out of a channel into which each user puts its own in order.
-/
inductive Interleaving : List (List RequestEvent) → List RequestEvent → Prop
  | drained {users : List (List RequestEvent)} (h : ∀ user ∈ users, user = []) :
    Interleaving users []
  | sent {before after : List (List RequestEvent)} {user events : List RequestEvent}
      {e : RequestEvent} (rest : Interleaving (before ++ user :: after) events) :
    Interleaving (before ++ (e :: user) :: after) (e :: events)

namespace Interleaving

variable {users : List (List RequestEvent)} {events : List RequestEvent}

/-- An interleaving has the events of all users, each as often as they have it. -/
theorem perm (h : Interleaving users events) : events.Perm users.flatten := by
  induction h with
  | drained h => rw [List.flatten_eq_nil_iff.2 h]
  | @sent before after user events e _ ih =>
    have hmove : (before ++ (e :: user) :: after).flatten.Perm
        (e :: (before ++ user :: after).flatten) := by
      simp
    exact (ih.cons e).trans hmove.symm

/-- The users may come one after another. -/
theorem flatten (users : List (List RequestEvent)) : Interleaving users users.flatten := by
  -- The users that are through stay in the list, with nothing more to put.
  have hbehind : ∀ before : List (List RequestEvent), (∀ user ∈ before, user = []) →
      Interleaving (before ++ users) users.flatten := by
    induction users with
    | nil =>
      intro before hbefore
      rw [List.append_nil]
      exact .drained hbefore
    | cons user users ih =>
      intro before hbefore
      induction user with
      | nil =>
        have hthrough : ∀ user ∈ before ++ [[]], user = [] := by
          simpa [or_imp, forall_and] using hbefore
        simpa using ih (before ++ [[]]) hthrough
      | cons e user ihuser => exact .sent ihuser
  exact hbehind [] (by simp)

end Interleaving

/-! ## Counting -/

theorem RequestCounts.add_comm (c : RequestCounts) (a b : Bool) :
    (c.add a).add b = (c.add b).add a := by
  cases a <;> cases b <;> rfl

/-- How many events of a kind failed, or did not. -/
def tally (k : RequestKind) (failed : Bool) (events : List RequestEvent) : Nat :=
  events.countP fun e => e.kind == k && e.isFailure == failed

theorem tally_flatten (k : RequestKind) (failed : Bool) (users : List (List RequestEvent)) :
    tally k failed users.flatten = (users.map (tally k failed)).sum :=
  List.countP_flatten

namespace LoadSummary

variable {s t : LoadSummary} {k : RequestKind} {events events' : List RequestEvent}

theorem ext_counts (h : ∀ k, s.counts k = t.counts k) : s = t := by
  cases s
  cases t
  simp only [mk.injEq]
  exact ⟨h .connect, h .set, h .get⟩

/-- Two events are counted alike in either order. -/
theorem record_comm (s : LoadSummary) (e e' : RequestEvent) :
    (s.record e).record e' = (s.record e').record e := by
  refine ext_counts fun k => ?_
  simp only [counts_record]
  split_ifs
  · exact RequestCounts.add_comm _ _ _
  all_goals rfl

/-- The order of the events does not matter. -/
theorem collect_perm (h : events.Perm events') : collect events = collect events' :=
  h.foldl_eq' (fun e _ e' _ s => record_comm s e e') _

/-- A summary with some events more. -/
theorem counts_foldl_record (s : LoadSummary) (events : List RequestEvent) (k : RequestKind) :
    (events.foldl record s).counts k =
      ⟨(s.counts k).successes + tally k false events,
        (s.counts k).failures + tally k true events⟩ := by
  induction events generalizing s with
  | nil => rfl
  | cons e events ih =>
    rw [List.foldl_cons, ih, counts_record]
    by_cases hk : k = e.kind
    · cases hfailed : e.isFailure <;>
        simp [tally, RequestCounts.add, hk, hfailed] <;> omega
    · simp [tally, hk, Ne.symm hk]

/-- The counts of a kind are the numbers of its events. -/
theorem counts_collect (events : List RequestEvent) (k : RequestKind) :
    (collect events).counts k = ⟨tally k false events, tally k true events⟩ := by
  rw [collect, counts_foldl_record]
  cases k <;> simp [counts]

/-! ## Totals -/

/-- How many requests of all kinds there were. -/
def total (s : LoadSummary) : Nat := s.successes + s.failures

/-- An event adds one to the total. -/
theorem total_record (s : LoadSummary) (e : RequestEvent) : (s.record e).total = s.total + 1 := by
  cases hk : e.kind <;> cases hfailed : e.isFailure <;>
    simp [record, total, successes, failures, RequestCounts.add, hk, hfailed] <;> omega

theorem total_foldl_record (s : LoadSummary) (events : List RequestEvent) :
    (events.foldl record s).total = s.total + events.length := by
  induction events generalizing s with
  | nil => rfl
  | cons e events ih =>
    rw [List.foldl_cons, ih, total_record, List.length_cons]
    omega

/-- No event is lost. -/
theorem total_collect (events : List RequestEvent) :
    (collect events).successes + (collect events).failures = events.length :=
  (total_foldl_record {} events).trans (Nat.zero_add _)

/-- The counts of a kind are part of the totals. -/
theorem counts_le (s : LoadSummary) (k : RequestKind) :
    (s.counts k).successes ≤ s.successes ∧ (s.counts k).failures ≤ s.failures := by
  cases k <;> simp [counts, successes, failures] <;> omega

/-- Whether all numbers of a summary are numbers of 64 bits. -/
structure Fits (s : LoadSummary) : Prop where
  successes : s.successes < 2 ^ 64
  failures : s.failures < 2 ^ 64
  counts : ∀ k, (s.counts k).successes < 2 ^ 64 ∧ (s.counts k).failures < 2 ^ 64

/-- As long as the events can be numbered in 64 bits no count can pass them. -/
theorem fits_collect (h : events.length < 2 ^ 64) : (collect events).Fits := by
  have htotal := total_collect events
  have hsuccesses : (collect events).successes < 2 ^ 64 := by omega
  have hfailures : (collect events).failures < 2 ^ 64 := by omega
  refine ⟨hsuccesses, hfailures, fun k => ?_⟩
  obtain ⟨hle, hle'⟩ := counts_le (collect events) k
  exact ⟨Nat.lt_of_le_of_lt hle hsuccesses, Nat.lt_of_le_of_lt hle' hfailures⟩

/-! ## Entries -/

theorem mem_entries {c : RequestCounts} : (k, c) ∈ s.entries ↔ c = s.counts k ∧ 0 < c.total := by
  simp only [entries, List.mem_filter, List.mem_map, Prod.mk.injEq, decide_eq_true_eq]
  constructor
  · rintro ⟨⟨k, -, rfl, rfl⟩, hpos⟩
    exact ⟨rfl, hpos⟩
  · rintro ⟨rfl, hpos⟩
    exact ⟨⟨k, k.mem_all, rfl, rfl⟩, hpos⟩

theorem mem_map_entries : k ∈ s.entries.map (·.1) ↔ 0 < (s.counts k).total := by
  simp [mem_entries]

/-- The kinds that have an entry are those that have an event. -/
theorem mem_entries_collect :
    k ∈ (collect events).entries.map (·.1) ↔ ∃ e ∈ events, e.kind = k := by
  rw [mem_map_entries, counts_collect]
  constructor
  · intro hpos
    have hsome : 0 < tally k false events ∨ 0 < tally k true events := by
      simpa [RequestCounts.total, Nat.pos_iff_ne_zero, imp_iff_not_or] using hpos
    obtain hsome | hsome := hsome <;> obtain ⟨e, he, hcounted⟩ := List.countP_pos_iff.1 hsome
    all_goals
      rw [Bool.and_eq_true, beq_iff_eq] at hcounted
      exact ⟨e, he, hcounted.1⟩
  · rintro ⟨e, he, rfl⟩
    have hpos : 0 < tally e.kind e.isFailure events := List.countP_pos_iff.2 ⟨e, he, by simp⟩
    cases hfailed : e.isFailure <;> rw [hfailed] at hpos
    · exact Nat.add_pos_left hpos _
    · exact Nat.add_pos_right _ hpos

/-! ## Runs -/

/--
**The summary of a run does not depend on the scheduler.**  Every interleaving of the events of the
users gives the same summary.  Its counts are the sums over the users, its totals make up the number
of events, and a kind has an entry exactly if one of the users has an event of it.  No count passes
64 bits on the way if the number of events does not.
-/
theorem collect_interleaving {users : List (List RequestEvent)} (h : Interleaving users events)
    (hlength : events.length < 2 ^ 64) :
    (∀ events', Interleaving users events' → collect events' = collect events) ∧
    (∀ k, (collect events).counts k =
      ⟨(users.map (tally k false)).sum, (users.map (tally k true)).sum⟩) ∧
    (collect events).successes + (collect events).failures = events.length ∧
    (∀ k, k ∈ (collect events).entries.map (·.1) ↔ ∃ user ∈ users, ∃ e ∈ user, e.kind = k) ∧
    ∀ sofar, sofar <+: events → (collect sofar).Fits := by
  have hflatten : collect events = collect users.flatten := collect_perm h.perm
  refine ⟨fun events' h' => ?_, fun k => ?_, total_collect events, fun k => ?_,
    fun sofar hsofar => fits_collect (Nat.lt_of_le_of_lt hsofar.length_le hlength)⟩
  · exact (collect_perm h'.perm).trans hflatten.symm
  · rw [hflatten, counts_collect, tally_flatten, tally_flatten]
  · rw [hflatten, mem_entries_collect]
    simp only [List.mem_flatten]
    exact ⟨fun ⟨e, ⟨user, huser, he⟩, hk⟩ => ⟨user, huser, e, he, hk⟩,
      fun ⟨user, huser, e, he, hk⟩ => ⟨e, ⟨user, huser, he⟩, hk⟩⟩

/-- One user connects and fails to write, the other connects and reads. -/
def twoUsers : List (List RequestEvent) :=
  [[⟨.connect, "db", .zero, .ok 0⟩, ⟨.set, "k", .zero, .error "io"⟩],
    [⟨.connect, "db", .zero, .ok 0⟩, ⟨.get, "k", .zero, .ok 5⟩]]

/-- The second of the two users gets through while the first waits. -/
def overtaken : List RequestEvent :=
  [⟨.connect, "db", .zero, .ok 0⟩, ⟨.connect, "db", .zero, .ok 0⟩, ⟨.get, "k", .zero, .ok 5⟩,
    ⟨.set, "k", .zero, .error "io"⟩]

/-- Two connections are counted together, and the two users might as well have come in turn. -/
theorem collect_interleaving_overtaken :
    (collect overtaken).counts .connect = ⟨2, 0⟩ ∧
      collect twoUsers.flatten = collect overtaken ∧
      (collect overtaken).Fits := by
  have h : Interleaving twoUsers overtaken :=
    @Interleaving.sent [] [_] _ _ _ (@Interleaving.sent [_] [] _ _ _
      (@Interleaving.sent [_] [] _ _ _ (@Interleaving.sent [] [_] _ _ _ (.drained (by simp)))))
  obtain ⟨hsame, hcounts, -, -, hfits⟩ := collect_interleaving h (by decide)
  exact ⟨(hcounts .connect).trans (by decide), hsame _ (.flatten twoUsers),
    hfits overtaken (List.prefix_refl _)⟩

end LoadSummary

end StoreTrial
