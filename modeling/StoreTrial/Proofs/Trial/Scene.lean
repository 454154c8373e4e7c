import StoreTrial.Dialogue
import StoreTrial.Proofs.Session.Delivery
import StoreTrial.Proofs.Session.Reading

/-!
# A listening session among other parties

Three parties act at the same time: the target sends to the session that listens, its listener looks
at the session, and a case asks for one thing after another. A scene says in which order: before
each request is answered there is a turn, in which any number of bytes arrive and the listener looks
any number of times. What a subscriber does with its session is what the library's subscriber does;
only the answers to the other requests are part of the turns.

A message that was sent is in one of four places: still in the stream, set aside by the subscriber,
forwarded by the listener, or taken by the case.

## Main results

* `Scene.Kept.exists_answer` — no answer loses, repeats or reorders a message.
* `Scene.Kept.exists_run` — so no dialogue does.
* `Scene.Kept.next_of_not_listening` — a session without a listener reads nothing by itself.
-/

namespace StoreTrial

open Resp (Value)

theorem messagesOf_append (frames more : List Value) :
    messagesOf (frames ++ more) = messagesOf frames ++ messagesOf more :=
  List.filterMap_append ..

/-- Whether a listener finds that the peer has closed: nothing is left to be read, or to come. -/
def Subscriber.isClosed (s : Subscriber) : Bool :=
  match s.pending, s.connection.transport.inbound, s.connection.poll.1 with
  | [], .data [] :: _, .failed .closed => true
  | _, _, _ => false

namespace Scene

/-! ## Turns -/

/-- What happens at the session that listens while a case waits. -/
inductive Event where
  /-- The target sends something, or the transport fails. -/
  | arrives (a : Arrival)
  /-- The listener, if there is one, looks at the session. -/
  | looks
  deriving Repr, DecidableEq

/-- What happens before a request is answered, and what else the answer depends on. -/
structure Turn where
  events : List Event := []
  /-- The number of a session that is opened. -/
  session : Nat := 0
  /-- What the target answers to a command, or why there is no answer. -/
  reply : Except ClientError Value := .ok .null
  /-- The time on the clock. -/
  now : Duration := .zero
  deriving Repr

end Scene

/-- A session that listens, on its way through the turns. -/
structure Scene where
  subscriber : Subscriber
  /-- All bytes that the session has had to read. -/
  incoming : Bytes
  /-- Whether the listener runs. -/
  isListening : Bool := false
  /-- What ended the listener before its time. -/
  lost : Option ClientError := none
  /-- Messages that the listener has forwarded and the case has not taken. -/
  forwarded : List Message := []
  /-- Messages that the case has taken. -/
  taken : List Message := []
  turns : List Scene.Turn := []
  deriving Repr

namespace Scene

/-- A session that has just been opened over a connection. -/
def opening (c : Connection) (turns : List Turn) : Scene :=
  { subscriber := { connection := c }, incoming := c.stream, turns }

/-- Something arrives behind all that is still to be read. -/
def arrive (w : Scene) (a : Arrival) : Scene :=
  let c := w.subscriber.connection
  let inbound := c.transport.inbound ++ [a]
  { w with
    subscriber :=
      { w.subscriber with connection := { c with transport := { c.transport with inbound } } }
    incoming := w.incoming ++ a.bytes }

/-- The listener looks at its session once. Where nothing has arrived it goes on waiting. -/
def look (w : Scene) : Scene :=
  if w.isListening then
    let listening := w.subscriber.listenFor 1 none
    { w with
      subscriber := listening.left w.subscriber
      forwarded := w.forwarded ++ listening.delivered
      lost := match listening.ending with
        | .ok _ => none
        | .error e => some e
      isListening := listening.ending.isOk && !w.subscriber.isClosed }
  else w

/-- One thing happens. -/
def happen (w : Scene) : Event → Scene
  | .arrives a => w.arrive a
  | .looks => w.look

/-- Things happen one after another. -/
def play (w : Scene) (events : List Event) : Scene := events.foldl happen w

/-- The turn before the next answer; nothing happens when there are no more. -/
def turn (w : Scene) : Turn := w.turns.headD {}

/-- The scene after the turn. -/
def next (w : Scene) : Scene := { w with turns := w.turns.drop 1 }.play w.turn.events

/-! ## Answers -/

/-- Has the subscriber do something. -/
def withSubscriber {α : Type} (w : Scene) (act : Subscriber → Except ClientError α × Subscriber) :
    Except ClientError α × Scene :=
  ((act w.subscriber).1, { w with subscriber := (act w.subscriber).2 })

/-- Takes the oldest message that was forwarded. -/
def pop (w : Scene) : Option Message × Scene :=
  match w.forwarded with
  | [] => (none, w)
  | m :: forwarded => (some m, { w with forwarded, taken := w.taken ++ [m] })

/-- What waiting for a message yields. -/
def receive (w : Scene) : Delivery × Scene :=
  match w.pop with
  | (some m, w) => (.message m, w)
  | (none, w) => (if w.isListening then .late else .stopped, w)

/-- The result of a wait, unless more would have to arrive when the time is over. -/
def inTime {α : Type} (isOver : Bool) : Except ClientError α → Option (Except ClientError α)
  | .error .closed => if isOver then none else some (.error .closed)
  | result => some result

/-- Answers a request after a turn. Messages are only asked of the session that listens. -/
def answer : (r : Request) → Scene → r.Answer × Scene
  | .dial _, w => (w.turn.reply.map fun _ => w.turn.session, w.next)
  | .greet _ version, w => (w.turn.reply.bind (Command.hello version).result, w.next)
  | .run _ c, w => (w.turn.reply.bind c.result, w.next)
  | .subscribe _ channel, w => w.next.withSubscriber (·.subscribe channel)
  | .listen _, w => ((), { w.next with isListening := true })
  | .receive _ _, w => w.next.receive
  | .take _, w => w.next.pop
  | .stop _, w =>
    (match w.next.lost with
      | none => .ok ()
      | some e => .error e,
      { w.next with isListening := false })
  | .unsubscribe _ channel deadline, w =>
    let (result, after) := w.next.withSubscriber (·.unsubscribe channel)
    (inTime (deadline.nanos ≤ w.turn.now.nanos) result, after)
  | .pause _, w => ((), w.next)
  | .clock, w => (w.turn.now, w.next)

/-! ## What a scene keeps -/

variable {w w' : Scene} {frames more : List Value} {handed : List Message}

/-- Messages that have left the subscriber. -/
def heard (w : Scene) : List Message := w.taken ++ w.forwarded

/-- Messages that nobody has looked at: those forwarded, and those that the subscriber set aside. -/
def unexamined (w : Scene) : List Message := w.forwarded ++ w.subscriber.pending

/-- Whether these frames, and no message more or less, are what the session has read. -/
structure Kept (w : Scene) (frames : List Value) : Prop where
  takes : Takes w.incoming frames w.subscriber.connection.stream
  conserved : w.heard ++ w.subscriber.pending = messagesOf frames

theorem Kept.taken_append_unexamined (h : w.Kept frames) :
    w.taken ++ w.unexamined = messagesOf frames := by
  rw [← h.conserved, heard, unexamined, List.append_assoc]

theorem kept_opening (c : Connection) (turns : List Turn) : (opening c turns).Kept [] :=
  ⟨.nil _, rfl⟩

/-- Whatever the subscriber does, and whoever gets what it hands out. -/
theorem Kept.step (h : w.Kept frames)
    (hs : Subscriber.Accounts w.subscriber handed more w'.subscriber)
    (hincoming : w'.incoming = w.incoming) (hheard : w'.heard = w.heard ++ handed) :
    w'.Kept (frames ++ more) := by
  refine ⟨hincoming ▸ h.takes.append hs.takes, ?_⟩
  calc w'.heard ++ w'.subscriber.pending
      = w.heard ++ (w.subscriber.pending ++ messagesOf more) := by
        rw [hheard, List.append_assoc, hs.conserved]
    _ = messagesOf (frames ++ more) := by
        rw [← List.append_assoc, h.conserved, messagesOf_append]

/-- The subscriber does nothing. -/
theorem Kept.of_eq (h : w.Kept frames) (hs : w'.subscriber = w.subscriber)
    (hincoming : w'.incoming = w.incoming) (hheard : w'.heard = w.heard) : w'.Kept frames := by
  refine ⟨?_, ?_⟩
  · rw [hincoming, hs]
    exact h.takes
  · rw [hheard, hs]
    exact h.conserved

/-! ### Events -/

theorem Kept.arrive (h : w.Kept frames) (a : Arrival) : (w.arrive a).Kept frames := by
  refine ⟨?_, h.conserved⟩
  have hstream : (w.arrive a).subscriber.connection.stream =
      w.subscriber.connection.stream ++ a.bytes := by
    simp [Scene.arrive, Connection.stream]
  rw [hstream]
  exact h.takes.extend a.bytes

theorem Kept.exists_look (h : w.Kept frames) : ∃ more, w.look.Kept (frames ++ more) := by
  unfold look
  split
  · obtain ⟨more, hlisten⟩ := Subscriber.exists_accounts_listenFor 1 w.subscriber
    exact ⟨more, h.step hlisten rfl (List.append_assoc ..).symm⟩
  · exact ⟨[], by rwa [List.append_nil]⟩

theorem Kept.exists_happen (h : w.Kept frames) (event : Event) :
    ∃ more, (w.happen event).Kept (frames ++ more) := by
  cases event with
  | arrives a => exact ⟨[], (List.append_nil frames).symm ▸ h.arrive a⟩
  | looks => exact h.exists_look

theorem Kept.exists_play (h : w.Kept frames) (events : List Event) :
    ∃ more, (w.play events).Kept (frames ++ more) := by
  induction events generalizing w frames with
  | nil => exact ⟨[], (List.append_nil frames).symm ▸ h⟩
  | cons event events ih =>
    obtain ⟨more, hevent⟩ := h.exists_happen event
    obtain ⟨later, hevents⟩ := ih hevent
    exact ⟨more ++ later, by rwa [← List.append_assoc]⟩

theorem Kept.exists_next (h : w.Kept frames) : ∃ more, w.next.Kept (frames ++ more) := by
  have hturn : { w with turns := w.turns.drop 1 }.Kept frames := h.of_eq rfl rfl rfl
  exact hturn.exists_play w.turn.events

/-- Without a listener nothing happens but that bytes arrive, so what survives that survives all. -/
theorem play_of_not_listening {P : Scene → Prop}
    (harrive : ∀ (w : Scene) (a : Arrival), P w → P (w.arrive a)) (h : P w)
    (hidle : w.isListening = false) (events : List Event) :
    P (w.play events) ∧ (w.play events).isListening = false := by
  induction events generalizing w with
  | nil => exact ⟨h, hidle⟩
  | cons event events ih =>
    cases event with
    | arrives a => exact ih (harrive w a h) hidle
    | looks =>
      have hplay : w.play (.looks :: events) = w.play events := by simp [play, happen, look, hidle]
      rw [hplay]
      exact ih h hidle

/-- Nobody reads from a session without a listener. -/
theorem Kept.play_of_not_listening (h : w.Kept frames) (hidle : w.isListening = false)
    (events : List Event) :
    (w.play events).Kept frames ∧ (w.play events).isListening = false :=
  Scene.play_of_not_listening (P := (Kept · frames)) (fun _ a hkept => hkept.arrive a) h hidle
    events

/-- A session without a listener reads nothing by itself. -/
theorem Kept.next_of_not_listening (h : w.Kept frames) (hidle : w.isListening = false) :
    w.next.Kept frames ∧ w.next.isListening = false := by
  have hturn : { w with turns := w.turns.drop 1 }.Kept frames := h.of_eq rfl rfl rfl
  exact hturn.play_of_not_listening hidle w.turn.events

/-! ### Messages that were taken -/

theorem taken_play (w : Scene) (events : List Event) : (w.play events).taken = w.taken := by
  induction events generalizing w with
  | nil => rfl
  | cons event events ih =>
    refine (ih (w.happen event)).trans ?_
    cases event with
    | arrives a => rfl
    | looks =>
      show w.look.taken = w.taken
      unfold look
      split <;> rfl

/-- A case only takes what it asks for. -/
@[simp] theorem taken_next (w : Scene) : w.next.taken = w.taken := taken_play _ _

/-! ### Answers -/

theorem heard_pop (w : Scene) : w.pop.2.heard = w.heard := by
  unfold pop
  split
  · rfl
  · next m forwarded hforwarded => simp [heard, hforwarded]

/-- What a case takes is what is handed to it. -/
theorem taken_pop (w : Scene) : w.pop.2.taken = w.taken ++ w.pop.1.toList := by
  unfold pop
  split
  · exact (List.append_nil _).symm
  · rfl

theorem Kept.pop (h : w.Kept frames) : w.pop.2.Kept frames := by
  refine h.of_eq ?_ ?_ (heard_pop w)
  all_goals
    unfold Scene.pop
    split <;> rfl

theorem receive_snd (w : Scene) : w.receive.2 = w.pop.2 := by
  unfold receive
  split <;> next hpop => rw [hpop]

/-- A message is handed out if one was forwarded. -/
theorem pop_of_receive {m : Message} (h : w.receive.1 = .message m) : w.pop.1 = some m := by
  unfold receive at h
  split at h
  · next m' w₁ hpop =>
    cases h
    rw [hpop]
  · next w₁ hpop =>
    dsimp only at h
    split at h <;> cases h

theorem eq_of_inTime {α : Type} {isOver : Bool} {result : Except ClientError α} {a : α}
    (h : inTime isOver result = some (.ok a)) : result = .ok a := by
  unfold inTime at h
  split at h
  · split at h <;> cases h
  · exact Option.some.inj h

/-- A listener that does not hand its session back was lost. -/
theorem lost_of_stop {session : Nat} {e : ClientError}
    (h : (answer (.stop session) w).1 = .error e) :
    (answer (.stop session) w).2.lost = some e := by
  show w.next.lost = some e
  have hlost : (match w.next.lost with
    | none => .ok ()
    | some e => .error e : Except ClientError Unit) = .error e := h
  split at hlost <;> cases hlost
  assumption

/-- **No answer loses, repeats or reorders a message**, whatever happens before it. -/
theorem Kept.exists_answer (h : w.Kept frames) (r : Request) :
    ∃ more, (answer r w).2.Kept (frames ++ more) := by
  obtain ⟨more, hnext⟩ := h.exists_next
  cases r with
  | dial | greet | run | listen | stop | pause | clock => exact ⟨more, hnext.takes, hnext.conserved⟩
  | receive session deadline =>
    refine ⟨more, ?_⟩
    show w.next.receive.2.Kept _
    rw [receive_snd]
    exact hnext.pop
  | take session => exact ⟨more, hnext.pop⟩
  | subscribe session channel =>
    obtain ⟨joining, haccounts, -⟩ := w.next.subscriber.exists_accounts_subscribe channel
    have hjoined : (answer (.subscribe session channel) w).2.Kept (frames ++ more ++ joining) :=
      hnext.step haccounts rfl (List.append_nil _).symm
    exact ⟨more ++ joining, List.append_assoc .. ▸ hjoined⟩
  | unsubscribe session channel deadline =>
    obtain ⟨leaving, haccounts, -⟩ := w.next.subscriber.exists_accounts_unsubscribe channel
    have hleft : (answer (.unsubscribe session channel deadline) w).2.Kept
        (frames ++ more ++ leaving) := hnext.step haccounts rfl (List.append_nil _).symm
    exact ⟨more ++ leaving, List.append_assoc .. ▸ hleft⟩

/-- **No dialogue loses, repeats or reorders a message.** -/
theorem Kept.exists_run {α : Type} (h : w.Kept frames) (d : Dialogue α) :
    ∃ more, (d.run answer w).2.Kept (frames ++ more) := by
  induction d generalizing w frames with
  | done a => exact ⟨[], (List.append_nil frames).symm ▸ h⟩
  | ask r next ih =>
    obtain ⟨more, hanswer⟩ := h.exists_answer r
    obtain ⟨later, hrun⟩ := ih _ hanswer
    exact ⟨more ++ later, by rwa [← List.append_assoc]⟩

end Scene

end StoreTrial
