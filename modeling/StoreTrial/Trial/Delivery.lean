import StoreTrial.Trial.Draw
import StoreTrial.Trial.Step

/-!
# The case about published messages

One session listens to a channel while another publishes messages, all of them different. Each
message must arrive once, on its channel, and before the time is over; then the listening session
leaves its only channel.

## Main results

* `Delivery.accept_error` — when every message has arrived, any other is at fault.
-/

namespace StoreTrial.Delivery

/-! ## Arrivals -/

/-- The messages of a case: where they are published and what they say. -/
structure Broadcast where
  channel : String
  messages : List String
  /-- How long they may take to arrive. -/
  limit : Duration
  deriving Repr, DecidableEq

/-- Accepts a message that is expected and has not arrived before. -/
def accept (b : Broadcast) (arrived : List String) (m : Message) :
    Except CaseFailure (List String) :=
  let text := Bytes.lossyText m.payload
  if m.channel ≠ Bytes.ofText b.channel then .error (.foreignChannel m.channel)
  else if text ∉ b.messages then .error (.foreignMessage m.payload)
  else if text ∈ arrived then .error (.deliveredTwice m.payload)
  else .ok (text :: arrived)

theorem accept_eq_ok {b : Broadcast} {arrived arrived' : List String} {m : Message}
    (h : accept b arrived m = .ok arrived') :
    m.channel = Bytes.ofText b.channel ∧ Bytes.lossyText m.payload ∈ b.messages ∧
      Bytes.lossyText m.payload ∉ arrived ∧ arrived' = Bytes.lossyText m.payload :: arrived := by
  simp only [accept] at h
  split at h
  · cases h
  · next hchannel =>
    split at h
    · cases h
    · next hmem =>
      split at h
      · cases h
      · next hnew =>
        cases h
        exact ⟨Decidable.not_not.1 hchannel, Decidable.not_not.1 hmem, hnew, rfl⟩

/-- When every message has arrived, any other is at fault. -/
theorem accept_error {b : Broadcast} {arrived : List String}
    (h : ∀ text ∈ b.messages, text ∈ arrived) (m : Message) :
    ∃ e, accept b arrived m = .error e := by
  cases haccept : accept b arrived m with
  | error e => exact ⟨e, rfl⟩
  | ok arrived' =>
    obtain ⟨-, hmem, hnew, -⟩ := accept_eq_ok haccept
    exact absurd (h _ hmem) hnew

/-- Waits for the messages that are missing. -/
def await (b : Broadcast) (session : Nat) (deadline : Duration) :
    (missing : Nat) → (arrived : List String) → Trial (List String)
  | 0, arrived => return arrived
  | missing + 1, arrived => do
    match ← liftM (Dialogue.request (.receive session deadline)) with
    | .message m => await b session deadline missing (← liftExcept (accept b arrived m))
    | .stopped => throw (.listenerStopped arrived.length b.messages.length)
    | .late => throw (.undelivered b.limit)
where
  /-- Goes on if there is no failure. -/
  liftExcept {α : Type} (result : Except CaseFailure α) : Trial α := ExceptT.mk (pure result)

/-- Waits for all messages; one that has been forwarded beyond the last is at fault. -/
def receiveAll (b : Broadcast) (session : Nat) (deadline : Duration) : Trial Unit := do
  let arrived ← await b session deadline b.messages.length []
  match ← liftM (Dialogue.request (.take session)) with
  | some m =>
    let _ ← await.liftExcept (accept b arrived m)
  | none => return

/-! ## The case -/

/-- A request of a session, the failure of which is one of the case. -/
def inSession {α : Type} (d : Dialogue (Except ClientError α)) : Trial α :=
  (ExceptT.mk d).adapt .session

/-- Publishes every message, each of which must reach somebody. -/
def publishAll (b : Broadcast) (session : Nat) : Trial Unit :=
  b.messages.forM fun message => do
    let c : Command := .publish (Bytes.ofText b.channel) (Bytes.ofText message)
    let receivers : Int64 ← inSession (Dialogue.request (.run session c))
    unless 1 ≤ receivers do throw (.unheard message receivers)

/-- The time at which a limit that starts now is over. -/
def deadlineOf (limit : Duration) : Dialogue Duration := do
  return (← Dialogue.request .clock) + limit

/-- Publishes every message and waits for all of them. -/
def exchange (b : Broadcast) (publisher subscriber : Nat) : Trial Unit := do
  publishAll b publisher
  receiveAll b subscriber (← liftM (deadlineOf b.limit))

/-- Leaves the channel, after which none must remain. -/
def leave (b : Broadcast) (session : Nat) : Trial Unit := do
  let deadline ← liftM (deadlineOf b.limit)
  let channel := Bytes.ofText b.channel
  match ← liftM (Dialogue.request (.unsubscribe session channel deadline)) with
  | none => throw (.withdrawal b.limit)
  | some result =>
    let confirmation ← inSession (pure result)
    unless confirmation.count == 0 do throw (.remaining b.channel confirmation.count)

/--
Every published message arrives once. When the listener is lost nothing can be left; otherwise the
channel is left whatever arrived, and the first failure counts.
-/
def pubSub (e : Endpoint) (b : Broadcast) : Trial Unit := do
  let subscriber ← e.enter
  let _ ← inSession (Dialogue.request (.subscribe subscriber (Bytes.ofText b.channel)))
  liftM (Dialogue.request (.listen subscriber))
  let publisher ← e.enter
  ExceptT.mk do
    let received ← (exchange b publisher subscriber).run
    match ← Dialogue.request (.stop subscriber) with
    | .error _ => return received
    | .ok () =>
      let left ← (leave b subscriber).run
      return received.bind fun () => left

end StoreTrial.Delivery
