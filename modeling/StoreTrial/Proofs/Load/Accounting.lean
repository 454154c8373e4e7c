import Mathlib.Tactic.IntervalCases
import StoreTrial.Load.User
import StoreTrial.Proofs.Session.Prospect

/-!
# What the events of a virtual user tell

A virtual user makes one request after another and reports each of them.  Its reports can be told
from what its session has to expect: the event of the `i`-th request is about the `i`-th choice and
the reply in the `i`-th place, whatever came of the requests before it.  A reply that says no, or
that is not in its form, is taken off the stream like any other, so the user goes on after it.  A
failure of the connection leaves no telling to which request the next frame belongs, and there the
user stops.

## Main results

* `LoadConfig.tells_attempt` — what the event of a request tells, reply by reply.
* `LoadConfig.Accounts.lost`, `LoadConfig.Accounts.cons` — one request more.
* `LoadConfig.accounts_attend` — the events of a session, and what it has sent.
* `LoadConfig.user_accounts_for_every_request` — the same for a user from its arrival on.
-/

namespace StoreTrial

open Resp (Value Version)

/-! ## What an event has to tell -/

/-- What the event of a choice has to tell of the answer to its request. -/
def Choice.account : Choice → Except ClientError Value → Except String Nat
  | _, .error e => .error e.message
  | _, .ok (.error message) => .error (ClientError.server message).message
  | .set bids, .ok v =>
    if v.isNull || v.reads "OK" then .ok (Bytes.ofText (bidsBody bids)).length
    else .error (ClientError.unexpectedReply "SET" v).message
  | .get, .ok .null => .ok 0
  | .get, .ok (.bulk payload) => .ok payload.length
  | .get, .ok v => .error (ClientError.unexpectedReply "GET" v).message

/-- Whether an event is about a choice: of its kind, and under the key that it writes or reads. -/
def Choice.Names (config : LoadConfig) : Choice → RequestEvent → Prop
  | .set _, event => event.kind = .set ∧ event.name = config.setKey
  | .get, event => event.kind = .get ∧ event.name = config.getKey

namespace LoadConfig

/-- The commands of some choices: a body is written under one key, and the other is read. -/
def commands (config : LoadConfig) (choices : List Choice) : List Command :=
  choices.map fun
    | .set bids => .set (Bytes.ofText config.setKey) (Bytes.ofText (bidsBody bids)) {}
    | .get => .get (Bytes.ofText config.getKey)

theorem commands_cons (config : LoadConfig) (c : Choice) (choices : List Choice) :
    config.commands (c :: choices) = c.command config :: config.commands choices := by
  cases c <;> rfl

/-- Whether an event tells what came of a choice whose request had this answer. -/
structure Tells (config : LoadConfig) (c : Choice) (answer : Except ClientError Value)
    (event : RequestEvent) : Prop where
  names : c.Names config event
  outcome : event.outcome = c.account answer
  /-- Only a reply in its form counts as success. -/
  decodes : event.isFailure = false ↔ ∃ o, answer.bind (c.command config).result = .ok o

/-- Whether the events of a user tell what has to be told of the requests of its choices. -/
structure Accounts (config : LoadConfig) (client : Client) (choices : List Choice)
    (events : List RequestEvent) : Prop where
  /-- A request is made exactly if those before it have met no failure of the connection. -/
  made : ∀ i, i < events.length ↔
    i < choices.length ∧ client.Answered (config.commands choices) i
  told : ∀ (i : Nat) (event : RequestEvent), events[i]? = some event →
    ∃ c, choices[i]? = some c ∧
      config.Tells c (client.answerTo (config.commands choices) i) event

/-! ## One request -/

/-- What is read off the reply to a write, unless it is an error. -/
theorem result_set (config : LoadConfig) (bids : Nat) {v : Value}
    (herror : ∀ message, v ≠ .error message) :
    ((Choice.set bids).command config).result v =
      if v.isNull then .ok .notStored
      else if v.reads "OK" then .ok .stored
      else .error (.unexpectedReply "SET" v) := by
  cases v with
  | error message => exact absurd rfl (herror message)
  | _ => rfl

/-- What the event of a request tells, reply by reply. -/
theorem outcome_attempt (config : LoadConfig) (c : Choice) (elapsed : Duration)
    (answer : Except ClientError Value) :
    (config.attempt c elapsed (answer.bind (c.command config).result)).event.outcome =
      c.account answer := by
  cases answer with
  | error e => cases c <;> rfl
  | ok v =>
    cases c with
    | get => cases v <;> rfl
    | set bids =>
      by_cases herror : ∃ message, v = .error message
      · obtain ⟨message, rfl⟩ := herror
        rfl
      · rw [not_exists] at herror
        simp only [Except.bind, result_set config bids herror, Choice.account]
        cases v.isNull <;> cases v.reads "OK" <;> rfl

/-- The event of a request is about its choice, whatever the answer. -/
theorem names_attempt (config : LoadConfig) (c : Choice) (elapsed : Duration)
    (result : Except ClientError (c.command config).Output) :
    c.Names config (config.attempt c elapsed result).event := by
  cases c with
  | set bids => cases result <;> exact ⟨rfl, rfl⟩
  | get => cases result <;> exact ⟨rfl, rfl⟩

theorem tells_attempt (config : LoadConfig) (c : Choice) (elapsed : Duration)
    (answer : Except ClientError Value) :
    config.Tells c answer
      (config.attempt c elapsed (answer.bind (c.command config).result)).event := by
  refine ⟨names_attempt config c elapsed _, outcome_attempt config c elapsed answer, ?_⟩
  cases answer.bind (c.command config).result <;> simp [attempt, RequestEvent.isFailure]

/-- A reply never loses the session, whatever it says. -/
theorem not_losesSession_of_result {config : LoadConfig} {c : Choice} {v : Value} {e : ClientError}
    (h : (c.command config).result v = .error e) : e.losesSession = false := by
  cases c with
  | get => cases v <;> cases h <;> rfl
  | set bids =>
    by_cases herror : ∃ message, v = .error message
    · obtain ⟨message, rfl⟩ := herror
      cases h
      rfl
    · rw [not_exists] at herror
      rw [result_set config bids herror] at h
      repeat' split at h
      all_goals cases h
      rfl

/-- A request loses the session exactly if it has met a failure of the connection. -/
theorem lost_attempt (config : LoadConfig) (c : Choice) (elapsed : Duration)
    {answer : Except ClientError Value} (h : ∀ e, answer = .error e → e.OfConnection) :
    (config.attempt c elapsed (answer.bind (c.command config).result)).lost =
      !answer.isOk := by
  cases answer with
  | error e =>
    have he := h e rfl
    cases e <;> first | rfl | exact he.elim
  | ok v =>
    show (config.attempt c elapsed ((c.command config).result v)).lost = false
    cases hresult : (c.command config).result v with
    | ok o => rfl
    | error e => exact not_losesSession_of_result hresult

/-! ## Sessions -/

section Session

variable {config : LoadConfig} {client : Client} {c : Choice} {choices : List Choice}
variable {event : RequestEvent} {events : List RequestEvent}

theorem Accounts.nil : config.Accounts client [] [] :=
  ⟨fun i => by simp, fun i event hevent => by simp at hevent⟩

/-- After a failure of the connection there is nothing more to tell. -/
theorem Accounts.lost {e : ClientError}
    (h : client.answerTo (c.command config :: config.commands choices) 0 = .error e)
    (hevent : config.Tells c (.error e) event) :
    config.Accounts client (c :: choices) [event] := by
  constructor
  · intro i
    cases i with
    | zero => simp [Client.answered_zero]
    | succ i =>
      simp [commands_cons, Client.answered_succ, h]
  · intro i event' hi
    cases i with
    | zero =>
      obtain rfl : event = event' := by simpa using hi
      exact ⟨c, rfl, h ▸ hevent⟩
    | succ i => simp at hi

/-- After an answer the account goes on with the session that it leaves. -/
theorem Accounts.cons {v : Value}
    (h : client.answerTo (c.command config :: config.commands choices) 0 = .ok v)
    (hevent : config.Tells c (.ok v) event)
    (hevents : config.Accounts (client.run (c.command config)).2 choices events) :
    config.Accounts client (c :: choices) (event :: events) := by
  constructor
  · intro i
    cases i with
    | zero => simp [Client.answered_zero]
    | succ i =>
      simp [commands_cons, Client.answered_succ, h, hevents.made i]
  · intro i event' hi
    cases i with
    | zero =>
      obtain rfl : event = event' := by simpa using hi
      exact ⟨c, rfl, h ▸ hevent⟩
    | succ i =>
      obtain ⟨c', hc', htells⟩ := hevents.told i event' hi
      refine ⟨c', hc', ?_⟩
      have hlater := (client.run_answerTo (c.command config) (config.commands choices)).2 v h i
      exact hlater ▸ htells

variable {σ : Type} {answer : (r : Request) → σ → r.Answer × σ} {session : Nat}

/-- A session goes on after a request unless that has lost it. -/
theorem run_attend_cons {attempt : Attempt} {s s' : σ}
    (hact : (config.act session c).run answer s = (attempt, s')) (choices : List Choice) :
    (config.attend session (c :: choices)).run answer s =
      if attempt.lost then ([attempt.event], s')
      else (((config.attend session choices).run answer s').map (attempt.event :: ·) id) := by
  simp only [attend, Dialogue.run_bind, hact]
  split
  · rfl
  · rw [Dialogue.run_bind]
    rfl

variable {client : σ → Client} (h : Hosts answer session client)

include h

variable (config) in
/-- A request takes the answer in its place and tells of it, and loses the session if there is
none. -/
theorem exists_run_act (c : Choice) (cs : List Command) (s : σ) :
    ∃ attempt s', (config.act session c).run answer s = (attempt, s') ∧
      client s' = ((client s).run (c.command config)).2 ∧
      config.Tells c ((client s).answerTo (c.command config :: cs) 0) attempt.event ∧
      attempt.lost = !((client s).answerTo (c.command config :: cs) 0).isOk := by
  let started := answer .clock s
  let ran := answer (.run session (c.command config)) started.2
  let ended := answer .clock ran.2
  have hrun : (config.act session c).run answer s =
      (config.attempt c (ended.1 - started.1) ran.1, ended.2) := rfl
  obtain ⟨hresult, hclient⟩ := h.after_clock (rfl : _ = (ran.1, ran.2))
  rw [((client s).run_answerTo _ cs).1] at hresult
  rw [hresult] at hrun
  refine ⟨_, _, hrun, (h.clock ran.2).trans hclient, tells_attempt .., ?_⟩
  exact lost_attempt _ _ _ fun e he => Client.ofConnection_of_answerTo he

/-- The events of a session, one for each request, and the requests that it has sent. -/
theorem accounts_attend (choices : List Choice) (s : σ) :
    config.Accounts (client s) choices ((config.attend session choices).run answer s).1 ∧
      client ((config.attend session choices).run answer s).2 =
        ((client s).runAll ((config.commands choices).take
          ((config.attend session choices).run answer s).1.length)).2 := by
  induction choices generalizing s with
  | nil => exact ⟨.nil, rfl⟩
  | cons c choices ih =>
    obtain ⟨attempt, s', hact, hclient, htells, hlost⟩ :=
      exists_run_act config h c (config.commands choices) s
    rw [run_attend_cons hact, hlost]
    cases hanswer : (client s).answerTo (c.command config :: config.commands choices) 0 with
    | error e =>
      rw [hanswer] at htells
      exact ⟨.lost hanswer htells, hclient⟩
    | ok v =>
      rw [hanswer] at htells
      -- the others are accounted for from the client that this request leaves
      obtain ⟨haccounts, hsent⟩ := ih s'
      rw [hclient] at haccounts hsent
      exact ⟨.cons hanswer htells haccounts, hsent⟩

end Session

/-! ## Users -/

/-- What a user does depends on whether it finds a server. -/
theorem run_user {σ : Type} (answer : (r : Request) → σ → r.Answer × σ) (config : LoadConfig)
    (e : Endpoint) (choices : List Choice) (s : σ) :
    (config.user e choices).run answer s =
      match e.connect.run.run answer (answer .clock s).2 with
      | (.ok session, s') => (config.attend session choices).run answer s'
      | (.error cause, s') =>
        ([refusal e ((answer .clock s').1 - (answer .clock s).1) cause], (answer .clock s').2) := by
  have hclock : (Dialogue.request .clock).run answer s = answer .clock s := rfl
  simp only [user, arrive, Dialogue.run_bind, hclock]
  cases e.connect.run.run answer (answer .clock s).2 with
  | mk result s' => cases result <;> rfl

/--
**A user accounts for every request.**  Without a session, its one event is the failure to connect.
With one, its events are about its choices in turn, and each tells what came of the reply in its
place: a reply that says no, or is not in its form, is a failure after which the user goes on.  It
stops right after the first failure of the connection, and no request follows.
-/
theorem user_accounts_for_every_request {σ : Type} (answer : (r : Request) → σ → r.Answer × σ)
    (config : LoadConfig) (e : Endpoint) (choices : List Choice) (s : σ) :
    (∀ (cause : ClientError) (s' : σ),
      e.connect.run.run answer (answer .clock s).2 = (.error cause, s') →
        ∃ elapsed, ((config.user e choices).run answer s).1 =
          [{ kind := .connect, name := e.address, elapsed, outcome := .error cause.message }]) ∧
    (∀ (session : Nat) (s' : σ),
      e.connect.run.run answer (answer .clock s).2 = (.ok session, s') →
        ∀ client : σ → Client, Hosts answer session client →
          config.Accounts (client s') choices ((config.user e choices).run answer s).1 ∧
          (∀ (i : Nat) (failure : ClientError),
            (client s').answerTo (config.commands choices) i = .error failure →
              failure.OfConnection) ∧
          (∀ (limit : Option Nat) (before : Bytes),
            (client s').connection.Wrote limit before →
              (client ((config.user e choices).run answer s).2).connection.Wrote limit
                (before ++ Client.requests (client s').connection.version
                  ((config.commands choices).take
                    ((config.user e choices).run answer s).1.length)))) := by
  rw [run_user]
  constructor
  · intro cause s' hconnect
    rw [hconnect]
    exact ⟨_, rfl⟩
  · intro session s' hconnect client h
    rw [hconnect]
    obtain ⟨haccounts, hsent⟩ := accounts_attend h choices s'
    refine ⟨haccounts, fun i failure => Client.ofConnection_of_answerTo, ?_⟩
    intro limit before hwrote
    have hsent_bytes := Client.wrote_runAll hwrote ((config.commands choices).take
      ((config.attend session choices).run answer s').1.length)
    rwa [← hsent] at hsent_bytes

/-- A session whose server refuses a read, confirms a write and is cut off in its third reply. -/
def cutOff : Client := .overTransport { inbound := [
  .data (Bytes.ofText "-ERR no\r\n>1\r\n+x\r\n"), .data (Bytes.ofText "+OK\r\n$5\r\nhe"),
  .fault "reset"] }

/-- A user that finds no server reports that alone.  A user in that session does not get to its
fourth choice. -/
theorem user_accounts_for_every_request_cut_off :
    (∃ refused : RequestEvent,
      ((({} : LoadConfig).user { port := 6379 } [.get]).run
          (fun r (s : Unit) => (r.failing .closed, s)) ()).1 = [refused] ∧
        refused.kind = .connect ∧ refused.name = "127.0.0.1:6379" ∧
        refused.outcome = .error "connection closed by peer") ∧
    ∃ read written cut : RequestEvent,
      ((({} : LoadConfig).user { port := 6379, protocol := .resp2 }
          [.get, .set 50000, .get, .get]).run Client.answer cutOff).1 = [read, written, cut] ∧
        (read.kind = .get ∧ read.name = "string_get_operation" ∧
          read.outcome = .error "server error: ERR no") ∧
        (written.kind = .set ∧ written.name = "string_set_operation" ∧
          written.outcome = .ok 14) ∧
        (cut.kind = .get ∧ cut.name = "string_get_operation" ∧
          cut.outcome = .error "IO error: reset") := by
  constructor
  · obtain ⟨elapsed, hrefused⟩ := (user_accounts_for_every_request
      (fun r (s : Unit) => (r.failing .closed, s)) {} { port := 6379 } [.get] ()).1 .closed () rfl
    have haddress : Endpoint.address { port := 6379 } = "127.0.0.1:6379" := by decide +kernel
    exact ⟨_, hrefused, rfl, haddress, rfl⟩
  · obtain ⟨⟨hmade, htold⟩, -⟩ := (user_accounts_for_every_request Client.answer {}
      { port := 6379, protocol := .resp2 } [.get, .set 50000, .get, .get] cutOff).2 0 cutOff rfl id
      (hosts_answer 0)
    have htakes : Takes cutOff.connection.heard
        [.error "ERR no", .push [.simple "x"], .simple "OK"] (Bytes.ofText "$5\r\nhe") :=
      .cons rfl (.cons rfl (.cons rfl (.of_eq rfl)))
    have hanswers (i : Nat) : (id cutOff).answerTo
        (({} : LoadConfig).commands [.get, .set 50000, .get, .get]) i =
          [Value.error "ERR no", .simple "OK"][i]?.elim (.error (.io "reset")) .ok := by
      rw [id, Client.answerTo_of_unlimited rfl, Connection.reply_of_takes htakes rfl]
      rfl
    generalize (({} : LoadConfig).user _ _).run Client.answer cutOff = ran at hmade htold
    obtain ⟨events, last⟩ := ran
    simp only [Client.Answered, hanswers] at hmade htold
    have hlength : events.length = 3 := by
      have hcut : 2 < events.length := by
        refine (hmade 2).2 ⟨by decide, fun i hi => ?_⟩
        interval_cases i <;> exact ⟨_, rfl⟩
      have hlast : ¬ 3 < events.length := by
        intro h
        obtain ⟨v, hv⟩ := ((hmade 3).1 h).2 2 (by decide)
        cases hv
      omega
    obtain ⟨read, written, cut, rfl⟩ := List.length_eq_three.1 hlength
    obtain ⟨_, hread, hread_tells⟩ := htold 0 read rfl
    obtain ⟨_, hwritten, hwritten_tells⟩ := htold 1 written rfl
    obtain ⟨_, hcut, hcut_tells⟩ := htold 2 cut rfl
    cases hread
    cases hwritten
    cases hcut
    have hbody : (Bytes.ofText (bidsBody 50000)).length = 14 := by decide +kernel
    exact ⟨read, written, cut, rfl,
      ⟨hread_tells.names.1, hread_tells.names.2, hread_tells.outcome⟩,
      ⟨hwritten_tells.names.1, hwritten_tells.names.2,
        hwritten_tells.outcome.trans (congrArg Except.ok hbody)⟩,
      ⟨hcut_tells.names.1, hcut_tells.names.2, hcut_tells.outcome⟩⟩

end LoadConfig

end StoreTrial
