import StoreTrial.Command.Reply
import StoreTrial.Config.Basic

/-!
# Dialogues with the surroundings

A harness talks to servers, waits and looks at the clock. What it does is a dialogue: it ends with a
result, or asks for one thing and goes on with the answer. The same dialogue runs on a real network,
on a recorded exchange, or on a simulated store, each of which is a way to answer requests.

## Main results

* `Dialogue.run_bind` — what is done in sequence runs in sequence.
* `Dialogue.instLawfulMonad` — dialogues form a monad.
-/

namespace StoreTrial

open Resp (Value Version)

/-! ## Requests -/

/-- One thing that a harness asks of its surroundings. Sessions are known by number. -/
inductive Request where
  /-- Connects to a server and names the new session. -/
  | dial (e : Endpoint)
  /-- Asks for a version of the protocol and speaks it from then on. -/
  | greet (session : Nat) (version : Version)
  /-- Runs a command. -/
  | run (session : Nat) (c : Command)
  /-- Turns a session into a subscriber and joins a channel. -/
  | subscribe (session : Nat) (channel : Bytes)
  /-- Has a listener forward the messages of a subscriber. -/
  | listen (session : Nat)
  /-- Waits for a forwarded message until the clock shows the deadline. -/
  | receive (session : Nat) (deadline : Duration)
  /-- Takes a message that has already been forwarded. -/
  | take (session : Nat)
  /-- Cancels the listener and takes the subscriber back. -/
  | stop (session : Nat)
  /-- Leaves a channel, unless that is not confirmed until the deadline. -/
  | unsubscribe (session : Nat) (channel : Bytes) (deadline : Duration)
  /-- Lets time pass. -/
  | pause (d : Duration)
  /-- Looks at the clock. -/
  | clock
  deriving Repr

/-- What waiting for a message yields. -/
inductive Delivery where
  | message (m : Message)
  /-- The listener has stopped and forwarded all it had. -/
  | stopped
  /-- The deadline has come first. -/
  | late
  deriving Repr, DecidableEq

/-- The type of the answers to a request. -/
abbrev Request.Answer : Request → Type
  | .dial _ => Except ClientError Nat
  | .greet _ _ => Except ClientError Value
  | .run _ c => Except ClientError c.Output
  | .subscribe _ _ => Except ClientError Confirmation
  | .listen _ | .pause _ => Unit
  | .receive _ _ => Delivery
  | .take _ => Option Message
  | .stop _ => Except ClientError Unit
  | .unsubscribe _ _ _ => Option (Except ClientError Confirmation)
  | .clock => Duration

/-- The answers where there is nobody to talk to: all fail with one cause, and no time passes. -/
def Request.failing (e : ClientError) : (r : Request) → r.Answer
  | .dial _ | .greet _ _ | .run _ _ | .subscribe _ _ | .stop _ => .error e
  | .listen _ | .pause _ => ()
  | .receive _ _ => .stopped
  | .take _ => none
  | .unsubscribe _ _ _ => some (.error e)
  | .clock => .zero

/-! ## Dialogues -/

/-- What a harness does. -/
inductive Dialogue (α : Type) where
  | done (a : α)
  | ask (r : Request) (next : r.Answer → Dialogue α)

namespace Dialogue

/-- One dialogue, and then another that depends on its result. -/
def bind {α β : Type} : Dialogue α → (α → Dialogue β) → Dialogue β
  | done a, f => f a
  | ask r next, f => ask r fun answer => bind (next answer) f

instance : Monad Dialogue where
  pure := done
  bind := bind

@[simp] theorem bind_done {α β : Type} (a : α) (f : α → Dialogue β) : done a >>= f = f a := rfl

@[simp] theorem bind_ask {α β : Type} (r : Request) (next : r.Answer → Dialogue α)
    (f : α → Dialogue β) : ask r next >>= f = ask r fun answer => next answer >>= f := rfl

theorem bind_pure' {α : Type} (d : Dialogue α) : d >>= pure = d := by
  induction d with
  | done a => rfl
  | ask r next ih =>
    rw [bind_ask]
    exact congrArg (ask r) (funext ih)

theorem bind_bind {α β γ : Type} (d : Dialogue α) (f : α → Dialogue β) (g : β → Dialogue γ) :
    d >>= f >>= g = d >>= fun a => f a >>= g := by
  induction d with
  | done a => rfl
  | ask r next ih =>
    simp only [bind_ask]
    exact congrArg (ask r) (funext ih)

/-- Dialogues form a monad. -/
instance instLawfulMonad : LawfulMonad Dialogue :=
  LawfulMonad.mk' Dialogue bind_pure' (fun _ _ => rfl) bind_bind

/-- Asks for one thing. -/
def request (r : Request) : Dialogue r.Answer := ask r done

/-! ## Running -/

/-- Runs a dialogue in surroundings that change with each answer. -/
def run {σ α : Type} (answer : (r : Request) → σ → r.Answer × σ) : Dialogue α → σ → α × σ
  | done a, s => (a, s)
  | ask r next, s => run answer (next (answer r s).1) (answer r s).2

/-- Runs a dialogue by effects. -/
def perform {m : Type → Type} [Monad m] {α : Type} (answer : (r : Request) → m r.Answer) :
    Dialogue α → m α
  | done a => pure a
  | ask r next => do perform answer (next (← answer r))

/-- The result of a dialogue where there is nobody to talk to. -/
def alone {α : Type} (e : ClientError) (d : Dialogue α) : α :=
  (d.run (fun r (s : Unit) => (r.failing e, s)) ()).1

@[simp] theorem run_done {σ α : Type} (answer : (r : Request) → σ → r.Answer × σ) (a : α) (s : σ) :
    (done a).run answer s = (a, s) := rfl

@[simp] theorem run_pure {σ α : Type} (answer : (r : Request) → σ → r.Answer × σ) (a : α) (s : σ) :
    (pure a : Dialogue α).run answer s = (a, s) := rfl

@[simp] theorem run_request {σ : Type} (answer : (r : Request) → σ → r.Answer × σ) (r : Request)
    (s : σ) : (request r).run answer s = answer r s := rfl

/-- What is done in sequence runs in sequence. -/
@[simp] theorem run_bind {σ α β : Type} (answer : (r : Request) → σ → r.Answer × σ)
    (d : Dialogue α) (f : α → Dialogue β) (s : σ) :
    (d >>= f).run answer s = (f (d.run answer s).1).run answer (d.run answer s).2 := by
  induction d generalizing s with
  | done a => rfl
  | ask r next ih => exact ih _ _

@[simp] theorem run_map {σ α β : Type} (answer : (r : Request) → σ → r.Answer × σ) (f : α → β)
    (d : Dialogue α) (s : σ) :
    (f <$> d).run answer s = (f (d.run answer s).1, (d.run answer s).2) := by
  rw [map_eq_pure_bind, run_bind, run_pure]

end Dialogue

/-! ## Common requests -/

/-- Connects to a server in the version that its settings ask for. -/
def Endpoint.connect (e : Endpoint) : ExceptT ClientError Dialogue Nat := do
  let session ← ExceptT.mk (Dialogue.request (.dial e))
  if e.protocol = .resp3 then
    let _ ← ExceptT.mk (Dialogue.request (.greet session .resp3))
  return session

/-- Runs a command in a session. -/
def Command.ask (c : Command) (session : Nat) : ExceptT ClientError Dialogue c.Output :=
  ExceptT.mk (Dialogue.request (.run session c))

end StoreTrial
