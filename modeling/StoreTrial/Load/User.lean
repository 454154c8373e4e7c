import StoreTrial.Dialogue
import StoreTrial.Load.Summary

/-!
# Virtual users

A virtual user opens one session and makes one request after another, as it chooses, until its
session can no longer be used. Whatever comes of a request is an event.
-/

namespace StoreTrial

/-! ## Choices -/

/-- What a user does next. -/
inductive Choice where
  /-- Writes a body with this number of bids. -/
  | set (bids : Nat)
  | get
  deriving Repr, DecidableEq

/-- The least number of bids. -/
def leastBids : Nat := 47238

/-- The greatest number of bids. -/
def greatestBids : Nat := 57238

/-- The body that a user writes. -/
def bidsBody (bids : Nat) : String := Json.compactText (.record [("bids", .nat bids)])

/-- The choice of a task and a number that chance has drawn. -/
def LoadTask.choice (task : LoadTask) (drawn : Nat) : Choice :=
  match task with
  | .set => .set (leastBids + drawn % (greatestBids + 1 - leastBids))
  | .get => .get

/-- The choice of a user for whom chance has drawn two numbers, if there is a task at all. -/
def LoadConfig.choice? (config : LoadConfig) (task bids : Nat) : Option Choice :=
  config.tasks[task % config.tasks.length]?.map (·.choice bids)

namespace Choice

/-- The kind of request. -/
def kind : Choice → RequestKind
  | set _ => .set
  | get => .get

/-- The key of the request. -/
def key (config : LoadConfig) : Choice → String
  | set _ => config.setKey
  | get => config.getKey

/-- The command of the request. -/
def command (config : LoadConfig) : Choice → Command
  | set bids => .set (Bytes.ofText config.setKey) (Bytes.ofText (bidsBody bids)) {}
  | get => .get (Bytes.ofText config.getKey)

/-- The length that counts as that of the answer: of the body written, or of the value read. -/
def answerLength (config : LoadConfig) : (c : Choice) → (c.command config).Output → Nat
  | set bids, _ => (Bytes.ofText (bidsBody bids)).length
  | get, value => (value.map (·.length)).getD 0

end Choice

/-! ## Requests -/

/-- Whether a failure leaves a session that cannot be used. -/
def ClientError.losesSession : ClientError → Bool
  | .io _ | .closed | .protocol _ | .timeout _ => true
  | .server _ | .unexpectedReply _ _ => false

/-- The event of a request, and whether it lost the session. -/
structure Attempt where
  event : RequestEvent
  lost : Bool
  deriving Repr

namespace LoadConfig

/-- What comes of a choice that has been answered. -/
def attempt (config : LoadConfig) (c : Choice) (elapsed : Duration)
    (result : Except ClientError (c.command config).Output) : Attempt :=
  let event outcome : RequestEvent := { kind := c.kind, name := c.key config, elapsed, outcome }
  match result with
  | .ok answer => ⟨event (.ok (c.answerLength config answer)), false⟩
  | .error e => ⟨event (.error e.message), e.losesSession⟩

/-- Makes one request and takes the time. -/
def act (config : LoadConfig) (session : Nat) (c : Choice) : Dialogue Attempt := do
  let started ← Dialogue.request .clock
  let result ← Dialogue.request (.run session (c.command config))
  let ended ← Dialogue.request .clock
  return config.attempt c (ended - started) result

/-- Makes one request after another until one loses the session. -/
def attend (config : LoadConfig) (session : Nat) : List Choice → Dialogue (List RequestEvent)
  | [] => return []
  | c :: choices => do
    let attempt ← config.act session c
    if attempt.lost then return [attempt.event]
    return attempt.event :: (← config.attend session choices)

/-! ## Users -/

/-- The event of a user that found no server. -/
def refusal (e : Endpoint) (elapsed : Duration) (cause : ClientError) : RequestEvent :=
  { kind := .connect, name := e.address, elapsed, outcome := .error cause.message }

/-- Opens the session of a user, or tells why there is none. -/
def arrive (e : Endpoint) : Dialogue (Except RequestEvent Nat) := do
  let started ← Dialogue.request .clock
  match ← e.connect.run with
  | .ok session => return .ok session
  | .error cause => return .error (refusal e ((← Dialogue.request .clock) - started) cause)

/-- All that one user does. -/
def user (config : LoadConfig) (e : Endpoint) (choices : List Choice) :
    Dialogue (List RequestEvent) := do
  match ← arrive e with
  | .ok session => config.attend session choices
  | .error event => return [event]

/-- All that a number of users do, one after another. -/
def crowd (config : LoadConfig) (e : Endpoint) (choices : Nat → List Choice) (users : Nat) :
    Dialogue (List RequestEvent) := do
  return (← (List.range users).mapM fun id => config.user e (choices id)).flatten

end LoadConfig

end StoreTrial
