import StoreTrial.Proofs.Decimal.Unsigned
import StoreTrial.Proofs.Latency.Attribution
import StoreTrial.Proofs.Session.Clauses

/-!
# What a measurement sends and returns

A measurement makes its calls in one order, operation by operation, payload by payload, each as
often as it is told to.  It goes on as long as replies are right, and so what it has sent is the
beginning of that order up to the first reply that is not.  If all are right there is one mean for
each operation and payload, and each is a number, as long as there were calls to take it of.

## Main results

* `Measure.isNaN_mean_of_pos` — a mean of calls is a number.
* `Measure.makes_endpoint` — in any surroundings, the calls that a measurement makes.
* `Measure.Makes.succeeds_iff` — how calls end and what they have sent, from the replies to expect.
* `Measure.endpoint_succeeds_iff` — both together, with what is returned.
-/

namespace StoreTrial

open Decimal (Unsigned)
open Dialogue (Yields)
open Resp (Value)

/-! ## Means -/

theorem Duration.unsigned_seconds (d : Duration) : Unsigned d.seconds := by
  obtain ⟨s, hs, hsecond⟩ := Decimal.exists_toFloat_ofNat (n := Duration.perSecond) (by decide)
    (by decide)
  unfold seconds
  rw [hsecond]
  exact (Decimal.unsigned_ofNat _).add ((Decimal.unsigned_ofNat _).div hs)

theorem Duration.unsigned_millis (d : Duration) : Unsigned d.millis := by
  have hs := (Decimal.canonical_wholeScaled (n := 1000) (by decide) (by decide)).1
  have hthousand : (1000.0 : Float) = (Decimal.wholeScaled 1000).toFloat hs .positive := by
    refine Decimal.ofScientific_true hs (by decide) (by decide) ?_
    have hself := (Decimal.wholeScaled 1000).attracts_self
    rw [Decimal.wholeScaled_eq (by decide)] at hself
    convert hself using 1
    norm_num
  unfold millis
  rw [hthousand]
  exact d.unsigned_seconds.mul hs

/-- A mean is a number as long as there is a call to take it of. -/
theorem Measure.isNaN_mean_of_pos (total : Duration) {calls : Nat} (hpos : 0 < calls)
    (hlt : calls < 2 ^ 64) : (mean total calls).isNaN = false := by
  obtain ⟨s, hs, hcalls⟩ := Decimal.exists_toFloat_ofNat hpos hlt
  rw [mean, hcalls]
  exact (total.unsigned_millis.div hs).isNaN_eq_false

/-! ## Calls -/

/-- What a call has to be answered with: a read with the payload, the others with any reply in their
form. -/
def Operation.clause (payload : Bytes) : Operation → Clause
  | set => .done (.set payload payload {})
  | get => ⟨.get payload, (· = some payload)⟩
  | del => .done (.del [payload])

namespace Measure

/-- The calls of a measurement in their order. -/
def clauses (calls : Nat) (payloads : List (Nat × String)) : List Clause :=
  Operation.all.flatMap fun o => payloads.flatMap fun payload =>
    List.replicate calls (o.clause (Bytes.ofText payload.2))

section Calls

variable {σ : Type} (answer : (r : Request) → σ → r.Answer × σ) (session : Nat)

/-- What becomes of calls, each made between two looks at the clock: they are all answered as they
have to be, or one is not and nothing is asked for after it. -/
inductive Calls : σ → List Clause → Bool → σ → Prop
  | done (s : σ) : Calls s [] true s
  | stop {s s' : σ} {k : Clause} {ks : List Clause} {result : Except ClientError k.command.Output}
      (hrun : answer (.run session k.command) (answer .clock s).2 = (result, s'))
      (hnot : ¬ k.Met ⟨k.command, result⟩) : Calls s (k :: ks) false s'
  | next {s s' s'' : σ} {k : Clause} {ks : List Clause} {ok : Bool}
      {result : Except ClientError k.command.Output}
      (hrun : answer (.run session k.command) (answer .clock s).2 = (result, s'))
      (hmet : k.Met ⟨k.command, result⟩) (hrest : Calls (answer .clock s').2 ks ok s'') :
      Calls s (k :: ks) ok s''

variable {answer session}

/-- Calls that all went well can be followed by others. -/
theorem Calls.append {s s' s'' : σ} {ks ks' : List Clause} {ok : Bool}
    (h : Calls answer session s ks true s') (h' : Calls answer session s' ks' ok s'') :
    Calls answer session s (ks ++ ks') ok s'' := by
  -- whether all went well is an index of the relation, and has to vary in the induction
  generalize hok : true = all at h
  induction h with
  | done s => exact h'
  | stop => cases hok
  | next hrun hmet hrest ih => exact .next hrun hmet (ih h' hok)

/-- After a call that went wrong there are no others. -/
theorem Calls.append_of_stop {s s' : σ} {ks : List Clause}
    (h : Calls answer session s ks false s') (ks' : List Clause) :
    Calls answer session s (ks ++ ks') false s' := by
  generalize hok : false = all at h
  induction h with
  | done s => cases hok
  | stop hrun hnot => exact .stop hrun hnot
  | next hrun hmet hrest ih => exact .next hrun hmet (ih hok)

/-- In a session held by a client, the calls are its commands, and end with the first that is not
answered as it has to be. -/
theorem Calls.runAll {client : σ → Client} (hosts : Hosts answer session client) {s s' : σ}
    {ks : List Clause} {ok : Bool} (h : Calls answer session s ks ok s') :
    (ok = true ∧ Complies ks ((client s).runAll (ks.map (·.command))).1 ∧
      client s' = ((client s).runAll (ks.map (·.command))).2) ∨
    (ok = false ∧ ∃ n, DeviatesAt n ks ((client s).runAll (ks.map (·.command))).1 ∧
      client s' = ((client s).runAll ((ks.map (·.command)).take (n + 1))).2) := by
  induction h with
  | done s => exact .inl ⟨rfl, .nil, rfl⟩
  | stop hrun hnot =>
    obtain ⟨rfl, hclient⟩ := hosts.after_clock hrun
    exact .inr ⟨rfl, 0, .here hnot, hclient⟩
  | next hrun hmet hrest ih =>
    obtain ⟨rfl, hclient⟩ := hosts.after_clock hrun
    rw [hosts.clock, hclient] at ih
    obtain ⟨hok, hcomplies, hlast⟩ | ⟨hok, n, hdeviates, hlast⟩ := ih
    · exact .inl ⟨hok, .cons hmet hcomplies, hlast⟩
    · exact .inr ⟨hok, n + 1, .later hmet hdeviates, hlast⟩

end Calls

/-! ## A measurement -/

/-- Whether a part of a measurement makes these calls and no others, as long as they go well. -/
structure Makes {α : Type} (session : Nat) (t : Run α) (ks : List Clause) : Prop where
  of_run : ∀ {σ : Type} (answer : (r : Request) → σ → r.Answer × σ) (s : σ),
    Calls answer session s ks (t.run.run answer s).1.isOk (t.run.run answer s).2

section Rules

variable {α β : Type} {session : Nat} {ks ks' : List Clause}

theorem Makes.pure (a : α) : Makes session (Pure.pure a : Run α) [] := ⟨fun _ s => .done s⟩

theorem Makes.bind {t : Run α} {f : α → Run β} (h : Makes session t ks)
    (hf : ∀ a, Makes session (f a) ks') : Makes session (t >>= f) (ks ++ ks') := by
  refine ⟨fun answer s => ?_⟩
  have hcalls := h.of_run answer s
  rw [Dialogue.run_bind_or_fail]
  generalize t.run.run answer s = ran at hcalls
  obtain ⟨result, s'⟩ := ran
  cases result with
  | ok a => exact hcalls.append ((hf a).of_run answer s')
  | error e => exact hcalls.append_of_stop ks'

/-- What is only made of a result asks for nothing. -/
theorem Makes.map {t : Run α} (h : Makes session t ks) (f : α → β) :
    Makes session (t >>= fun a => Pure.pure (f a)) ks := by
  simpa only [List.append_nil] using h.bind fun a => .pure (f a)

/-- The calls for a list, one after another. -/
theorem Makes.mapM {f : α → Run β} {g : α → List Clause} (h : ∀ a, Makes session (f a) (g a))
    (as : List α) : Makes session (as.mapM f) (as.flatMap g) := by
  induction as with
  | nil => exact .pure []
  | cons a as ih =>
    rw [List.mapM_cons, List.flatMap_cons]
    exact (h a).bind fun b => ih.map (b :: ·)

/-- Calls go well to the end if and only if every reply is right.  Then all their commands were
sent, and otherwise those up to the one with the first reply that is not. -/
theorem Makes.succeeds_iff {t : Run α} (h : Makes session t ks) {σ : Type}
    {answer : (r : Request) → σ → r.Answer × σ} {client : σ → Client}
    (hosts : Hosts answer session client) {s s' : σ} {result : Except MeasureError α}
    (hrun : t.run.run answer s = (result, s')) :
    ((∃ a, result = .ok a) ↔ (client s).Satisfies ks ks.length) ∧
    (∀ a, result = .ok a →
      (client s').connection.transport.written = (client s).connection.transport.written ++
        Client.requests (client s).connection.version (ks.map (·.command))) ∧
    (∀ e, result = .error e → ∃ n < ks.length,
      (client s).Satisfies ks n ∧ ¬ (client s).Satisfies ks (n + 1) ∧
      ∀ limit before, (client s).connection.Wrote limit before →
        (client s').connection.Wrote limit (before ++
          Client.requests (client s).connection.version ((ks.map (·.command)).take (n + 1)))) := by
  have hends := (h.of_run answer s).runAll hosts
  rw [hrun, complies_iff] at hends
  obtain ⟨hok, hall, hlast⟩ | ⟨hfailed, n, hdeviates, hlast⟩ := hends
  · cases result with
    | error e => cases hok
    | ok a =>
      refine ⟨iff_of_true ⟨a, rfl⟩ hall, fun _ _ => ?_, fun e he => by cases he⟩
      rw [show client s' = _ from hlast]
      exact Client.written_runAll hall.answered
  · cases result with
    | ok a => cases hfailed
    | error e =>
      obtain ⟨hlt, hbefore, hnot⟩ := hdeviates.satisfies
      have hall : ¬ (client s).Satisfies ks ks.length := fun hall =>
        hnot fun i hi => hall i (by omega)
      refine ⟨iff_of_false (by simp) hall, fun a ha => (by cases ha), fun _ _ => ?_⟩
      refine ⟨n, hlt, hbefore, hnot, fun limit before hwrote => ?_⟩
      rw [show client s' = _ from hlast]
      exact Client.wrote_runAll hwrote _

end Rules

variable {session : Nat}

/-- A command goes well if it is answered and what is made of the answer finds no fault with it. -/
theorem exists_run_inSession {k : Clause} {check : k.command.Output → Run Unit}
    (hcheck : ∀ a, check a = Pure.pure () ∧ k.Right a ∨ ∃ e, check a = throw e ∧ ¬ k.Right a)
    {σ : Type} {answer : (r : Request) → σ → r.Answer × σ} {s s' : σ}
    {result : Except ClientError k.command.Output}
    (h : answer (.run session k.command) s = (result, s')) :
    ∃ outcome, (inSession k.command session >>= check).run.run answer s = (outcome, s') ∧
      (outcome.isOk = true ↔ k.Met ⟨k.command, result⟩) := by
  have hrun : (inSession k.command session).run.run answer s = (result.mapError .session, s') :=
    congrArg (fun ran : Except ClientError k.command.Output × σ =>
      (ran.1.mapError MeasureError.session, ran.2)) h
  rw [Dialogue.run_bind_or_fail, hrun, Clause.met_mk]
  cases result with
  | error e => exact ⟨.error (.session e), rfl, iff_of_false Bool.false_ne_true (by simp)⟩
  | ok a =>
    refine ⟨((check a).run.run answer s').1, ?_⟩
    show (check a).run.run answer s' = _ ∧ _
    obtain ⟨hpure, hright⟩ | ⟨e, hthrow, hnot⟩ := hcheck a
    · rw [hpure]
      exact ⟨rfl, iff_of_true rfl ⟨a, rfl, hright⟩⟩
    · rw [hthrow]
      refine ⟨rfl, iff_of_false Bool.false_ne_true ?_⟩
      rintro ⟨b, hb, hright⟩
      cases hb
      exact hnot hright

/-- A call asks for its command, and goes well if that is answered as it has to be. -/
theorem exists_run_call (text : String) (o : Operation) {σ : Type}
    {answer : (r : Request) → σ → r.Answer × σ} {s s' : σ}
    {result : Except ClientError (o.clause (Bytes.ofText text)).command.Output}
    (h : answer (.run session (o.clause (Bytes.ofText text)).command) s = (result, s')) :
    ∃ outcome, (call session text o).run.run answer s = (outcome, s') ∧
      (outcome.isOk = true ↔ (o.clause (Bytes.ofText text)).Met ⟨_, result⟩) := by
  cases o with
  | set => exact exists_run_inSession (fun _ => .inl ⟨rfl, trivial⟩) h
  | del => exact exists_run_inSession (fun _ => .inl ⟨rfl, trivial⟩) h
  | get =>
    refine exists_run_inSession (k := Operation.get.clause (Bytes.ofText text))
      (fun (value : Option Bytes) => ?_) h
    by_cases hvalue : value = some (Bytes.ofText text)
    · exact .inl ⟨by simp [hvalue], hvalue⟩
    · exact .inr ⟨_, by simp [hvalue]; rfl, hvalue⟩

/-- Between two looks at the clock there is one call, and those that are left follow if it went
well. -/
theorem run_repeated_succ (text : String) (o : Operation) (calls : Nat) {σ : Type}
    (answer : (r : Request) → σ → r.Answer × σ) (s : σ) :
    (repeated session text o (calls + 1)).run.run answer s =
      match (call session text o).run.run answer (answer .clock s).2 with
      | (.ok _, s') =>
        ((repeated session text o calls).run.run answer (answer .clock s').2).map
          (·.map ((answer .clock s').1 - (answer .clock s).1 + ·)) id
      | (.error e, s') => (.error e, s') := by
  have hclock (s : σ) : (liftM (Dialogue.request .clock) : Run Duration).run.run answer s =
      (.ok (answer .clock s).1, (answer .clock s).2) := rfl
  simp only [repeated, Dialogue.run_bind_or_fail, hclock]
  rcases (call session text o).run.run answer (answer .clock s).2 with ⟨_ | _, s'⟩
  · rfl
  · dsimp only
    rcases (repeated session text o calls).run.run answer (answer .clock s').2 with ⟨_ | _, s''⟩
    · rfl
    · rfl

theorem makes_repeated (text : String) (o : Operation) (calls : Nat) :
    Makes session (repeated session text o calls)
      (List.replicate calls (o.clause (Bytes.ofText text))) := by
  refine ⟨fun answer s => ?_⟩
  induction calls generalizing s with
  | zero => exact .done s
  | succ calls ih =>
    -- the second look at the clock only comes after a call that went well
    generalize hran : answer (.run session (o.clause (Bytes.ofText text)).command)
      (answer .clock s).2 = ran
    obtain ⟨result, s'⟩ := ran
    obtain ⟨outcome, hcall, hmet⟩ := exists_run_call text o hran
    rw [List.replicate_succ, run_repeated_succ, hcall]
    cases outcome with
    | error e => exact .stop hran fun h => by cases hmet.2 h
    | ok _ =>
      have hrest := ih (answer .clock s').2
      dsimp only
      generalize (repeated session text o calls).run.run answer (answer .clock s').2 = rest
        at hrest ⊢
      obtain ⟨total, s''⟩ := rest
      cases total <;> exact .next hran (hmet.1 rfl) hrest

/-- In any surroundings, the calls that a measurement makes. -/
theorem makes_endpoint (calls : Nat) (name : String) (payloads : List (Nat × String)) :
    Makes session (endpoint session calls name payloads) (clauses calls payloads) := by
  have hpoint (o : Operation) (payload : Nat × String) :
      Makes session (point session calls o payload)
        (List.replicate calls (o.clause (Bytes.ofText payload.2))) :=
    (makes_repeated payload.2 o calls).map _
  have hseries (o : Operation) : Makes session (series session calls payloads o)
      (payloads.flatMap fun payload =>
        List.replicate calls (o.clause (Bytes.ofText payload.2))) :=
    (Makes.mapM (hpoint o) payloads).map _
  exact (Makes.mapM hseries Operation.all).map _

/-! ## What is returned -/

/-- A mean is a number unless there are no calls. -/
theorem yields_isNaN_point {calls : Nat} (hlt : calls < 2 ^ 64) (o : Operation)
    (payload : Nat × String) :
    Yields (point session calls o payload) fun p => p.meanMillis.isNaN = true ↔ calls = 0 := by
  cases calls with
  | zero =>
    refine (Yields.pure (P := (· = Duration.zero)) rfl).bind fun total htotal => .pure ?_
    rw [htotal]
    exact iff_of_true isNaN_mean_zero rfl
  | succ calls =>
    refine (Dialogue.yields_any _).bind fun total _ => .pure ?_
    rw [isNaN_mean_of_pos total (Nat.succ_pos calls) hlt]
    exact iff_of_false Bool.false_ne_true (Nat.succ_ne_zero calls)

/-- What holds of every mean holds of all that are taken. -/
theorem yields_points {calls : Nat} {P : LatencyPoint → Prop}
    (h : ∀ o payload, Yields (point session calls o payload) P) (name : String)
    (payloads : List (Nat × String)) :
    Yields (endpoint session calls name payloads) fun s =>
      ∀ curve ∈ s.operations, ∀ p ∈ curve.points, P p := by
  have hseries (o : Operation) : Yields (series session calls payloads o) fun curve =>
      ∀ p ∈ curve.points, P p :=
    (Yields.forall_mapM (h o) payloads).bind fun _ hpoints => .pure hpoints
  exact (Yields.forall_mapM hseries Operation.all).bind fun _ hcurves => .pure hcurves

theorem yields_isNaN_endpoint {calls : Nat} (hlt : calls < 2 ^ 64) (name : String)
    (payloads : List (Nat × String)) :
    Yields (endpoint session calls name payloads) fun s =>
      ∀ curve ∈ s.operations, ∀ p ∈ curve.points, p.meanMillis.isNaN = true ↔ calls = 0 :=
  yields_points (yields_isNaN_point hlt) name payloads

/-! ## Any peer -/

/-- A read has to be answered with a bulk text that is the payload. -/
theorem accepts_get_iff {payload : Bytes} {answer : Except ClientError Value} :
    (Operation.get.clause payload).Accepts answer ↔ answer = .ok (.bulk payload) := by
  constructor
  · rintro ⟨a, ha, rfl⟩
    cases answer with
    | error e => cases ha
    | ok v =>
      cases v <;> cases ha
      rfl
  · rintro rfl
    exact ⟨some payload, rfl, rfl⟩

theorem length_clauses (calls : Nat) (payloads : List (Nat × String)) :
    (clauses calls payloads).length = 3 * calls * payloads.length := by
  have hoperation (o : Operation) : (payloads.flatMap fun payload =>
      List.replicate calls (o.clause (Bytes.ofText payload.2))).length =
        calls * payloads.length := by
    simp [List.length_flatMap, Nat.mul_comm]
  simp only [clauses, Operation.all, List.flatMap_cons, List.flatMap_nil, List.length_append,
    hoperation, List.length_nil]
  ring

/--
**What a measurement needs and what it sends.**  Whatever a peer sends, the measurement succeeds if
and only if each write and deletion has a reply in its form and each read a bulk text that is the
payload.  Then all calls were sent, and there is one mean for each operation and payload, in their
order.  Otherwise it fails, and nothing was sent after the command with the first reply that is not
so.  The number of calls for each is one of 64 bits.
-/
theorem endpoint_succeeds_iff {σ : Type} {answer : (r : Request) → σ → r.Answer × σ}
    {client : σ → Client} (hosts : Hosts answer session client) {calls : Nat}
    (hcalls : calls < 2 ^ 64) (name : String) (payloads : List (Nat × String)) {s s' : σ}
    {result : Except MeasureError EndpointSeries}
    (hrun : (endpoint session calls name payloads).run.run answer s = (result, s')) :
    (clauses calls payloads).length = 3 * calls * payloads.length ∧
    (∀ payload reply, (Operation.get.clause payload).Accepts reply ↔ reply = .ok (.bulk payload)) ∧
    ((∃ series, result = .ok series) ↔
      (client s).Satisfies (clauses calls payloads) (clauses calls payloads).length) ∧
    (∀ series, result = .ok series →
      (client s').connection.transport.written = (client s).connection.transport.written ++
        Client.requests (client s).connection.version
          ((clauses calls payloads).map (·.command)) ∧
      series.endpoint = name ∧ series.Covers (payloads.map Prod.fst) ∧
      ∀ curve ∈ series.operations, ∀ p ∈ curve.points,
        (p.meanMillis.isNaN = true ↔ calls = 0)) ∧
    (∀ e, result = .error e → ∃ n < (clauses calls payloads).length,
      (client s).Satisfies (clauses calls payloads) n ∧
      ¬ (client s).Satisfies (clauses calls payloads) (n + 1) ∧
      ∀ limit before, (client s).connection.Wrote limit before →
        (client s').connection.Wrote limit (before ++
          Client.requests (client s).connection.version
            (((clauses calls payloads).map (·.command)).take (n + 1)))) := by
  obtain ⟨hiff, hsent, hfailed⟩ := (makes_endpoint calls name payloads).succeeds_iff hosts hrun
  refine ⟨length_clauses calls payloads, fun _ _ => accepts_get_iff, hiff, ?_, hfailed⟩
  rintro series rfl
  have hyields := (yields_endpoint session calls name payloads).of_run answer hrun
  have hmeans := (yields_isNaN_endpoint hcalls name payloads).of_run answer hrun
  exact ⟨hsent series rfl, hyields.1, hyields.2, hmeans⟩

/-! ## A peer that returns something else -/

/-- A session whose server confirms a write and returns another text. -/
def forgetful : Client := .overTransport { inbound := [
  .data (Bytes.ofText "+OK\r\n$2\r\nzz\r\n:1\r\n")] }

/-- Nothing is deleted after a text has been read that was not written. -/
theorem endpoint_succeeds_iff_forgetful : ∃ e last,
    (endpoint 0 1 "target" [(2, "ab")]).run.run Client.answer forgetful = (.error e, last) ∧
      last.connection.transport.written =
        Bytes.ofText
          "*3\r\n$3\r\nSET\r\n$2\r\nab\r\n$2\r\nab\r\n*2\r\n$3\r\nGET\r\n$2\r\nab\r\n" := by
  obtain ⟨result, last, hrun⟩ : ∃ result last,
      (endpoint 0 1 "target" [(2, "ab")]).run.run Client.answer forgetful = (result, last) :=
    ⟨_, _, rfl⟩
  obtain ⟨-, -, hiff, -, hfailed⟩ := endpoint_succeeds_iff (hosts_answer 0) (by decide) _ _ hrun
  have htakes : Takes forgetful.connection.heard
      [.simple "OK", .bulk (Bytes.ofText "zz"), .integer 1] [] :=
    .cons rfl (.cons rfl (.single rfl))
  have hanswers (i : Nat) : forgetful.answerTo ((clauses 1 [(2, "ab")]).map (·.command)) i =
      [Value.simple "OK", .bulk (Bytes.ofText "zz"), .integer 1][i]?.elim (.error .closed) .ok := by
    rw [Client.answerTo_of_unlimited rfl, Connection.reply_of_takes htakes Resp.parse_nil]
    rfl
  have hset : forgetful.Satisfies (clauses 1 [(2, "ab")]) 1 := by
    intro i hi k hk
    obtain rfl : i = 0 := by omega
    cases hk
    rw [hanswers]
    exact ⟨.stored, rfl, trivial⟩
  have hget : ¬ forgetful.Satisfies (clauses 1 [(2, "ab")]) 2 := by
    intro hall
    have hread := hall 1 (by decide) _ rfl
    rw [hanswers] at hread
    cases accepts_get_iff.1 hread
  cases result with
  | ok series =>
    have hall := hiff.1 ⟨series, rfl⟩
    exact absurd (fun i hi => hall i (Nat.lt_of_lt_of_le hi (by decide))) hget
  | error e =>
    obtain ⟨n, -, hbefore, hnot, hwrote⟩ := hfailed e rfl
    obtain rfl : n = 1 := by
      by_contra hne
      rcases Nat.lt_or_gt_of_ne hne with hless | hmore
      · exact hnot fun i hi => hset i (by omega)
      · exact hget fun i hi => hbefore i (by omega)
    have hwritten := congrArg Prod.fst (hwrote none [] rfl)
    exact ⟨e, last, hrun, hwritten.trans (by decide +kernel)⟩

end Measure

end StoreTrial
