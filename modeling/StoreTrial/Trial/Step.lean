import StoreTrial.Dialogue
import StoreTrial.Trial.Failure

/-!
# Steps of a case

A case is a script: a list of steps, each of them a command together with a check of its answer, or
a pause. The script is fixed before the first answer arrives; the answers only decide how far it
gets, for it ends at the first one that a check finds at fault.

## Main results

* `Step.performAll_cons` — a script is performed step by step.
-/

namespace StoreTrial

/-- A dialogue that may end with the failure of a case. -/
abbrev Trial := ExceptT CaseFailure Dialogue

/-- Opens a session of a case. -/
def Endpoint.enter (e : Endpoint) : Trial Nat := e.connect.adapt (.unreachable e.address)

/-- The sessions that take part in a case. -/
inductive Party where
  /-- The session under test. -/
  | checker
  /-- A session that interferes. -/
  | rival
  deriving Repr, DecidableEq

/-- One step of a case. -/
inductive Step where
  /-- Runs a command and looks for a fault in what its answer means. -/
  | expect (party : Party) (c : Command) (fault : c.Output → Option CaseFailure)
  | pause (d : Duration)

/-- No fault if the condition holds. -/
def faultUnless (condition : Bool) (failure : CaseFailure) : Option CaseFailure :=
  if condition then none else some failure

@[simp] theorem faultUnless_eq_none {condition : Bool} {failure : CaseFailure} :
    faultUnless condition failure = none ↔ condition = true := by
  cases condition <;> simp [faultUnless]

/-- The verdict on the answer to a command. -/
def verdict {α : Type} (fault : α → Option CaseFailure) :
    Except ClientError α → Except CaseFailure Unit
  | .error e => .error (.session e)
  | .ok a => (fault a).elim (.ok ()) .error

namespace Step

/-! ## Performing steps -/

/-- Performs one step; `session` tells the session of each party. -/
def perform (session : Party → Nat) : Step → Trial Unit
  | expect party c fault => ExceptT.mk do
    return verdict fault (← Dialogue.request (.run (session party) c))
  | pause d => ExceptT.mk do
    Dialogue.request (.pause d)
    return .ok ()

/-- Performs steps in order until one is at fault. -/
def performAll (session : Party → Nat) (steps : List Step) : Trial Unit :=
  steps.forM (perform session)

@[simp] theorem performAll_nil (session : Party → Nat) : performAll session [] = pure () := rfl

@[simp] theorem performAll_cons (session : Party → Nat) (step : Step) (steps : List Step) :
    performAll session (step :: steps) =
      (step.perform session >>= fun _ => performAll session steps) := rfl

/-! ## Steps about a key -/

/-- The payload of a text. -/
abbrev payload (text : String) : Bytes := Bytes.ofText text

/-- Runs a command whose answer only has to have its form. -/
def command (party : Party) (c : Command) : Step := .expect party c fun _ => none

/-- Writes a value, which must be applied. -/
def store (party : Party) (key value : String) : Step :=
  .expect party (.set (payload key) (payload value) {}) fun reply =>
    faultUnless reply.isStored (.write key reply)

/-- Reads a key, which must hold the value. -/
def read (party : Party) (key value : String) : Step :=
  .expect party (.get (payload key)) fun actual =>
    faultUnless (actual == some (payload value)) (.value key (some (payload value)) actual)

/-- Asks for a key, which must be gone. -/
def absent (moment : Aftermath) (key : String) : Step :=
  .expect .checker (.present [payload key]) fun n => faultUnless (n ≤ 0) (.present moment key)

/-- Deletes a key, which must have existed. -/
def delete (key : String) : Step :=
  .expect .checker (.del [payload key]) fun n => faultUnless (n == 1) (.deletion key n)

/-- Queues a write in a block, which must be accepted. -/
def queueStore (key value : String) : Step :=
  .expect .checker (.queued (.set (payload key) (payload value) {})) fun reply =>
    faultUnless (reply == .queued) (.queue key reply)

/-- Queues a write in a block, whether that is accepted or not. -/
def tryStore (key value : String) : Step :=
  command .checker (.queued (.set (payload key) (payload value) {}))

end Step

/-! ## Steps about all pairs -/

namespace Script

/-- Writes every pair. -/
def storeAll (pairs : List (String × String)) : List Step :=
  pairs.map fun (key, value) => .store .checker key value

/-- Reads every pair. -/
def readAll (pairs : List (String × String)) : List Step :=
  pairs.map fun (key, value) => .read .checker key value

/-- Asks for every key, none of which may be left. -/
def absentAll (moment : Aftermath) (pairs : List (String × String)) : List Step :=
  pairs.map fun (key, _) => .absent moment key

/-- The value that replaces another. -/
def modified (value : String) : String := "modify_" ++ value

/-- The pairs with their values replaced. -/
def modifiedAll (pairs : List (String × String)) : List (String × String) :=
  pairs.map fun (key, value) => (key, modified value)

end Script

end StoreTrial
