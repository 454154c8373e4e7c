import StoreTrial.Trial.Draw
import StoreTrial.Trial.Step

/-!
# Cases about transaction blocks

A block is applied as a whole or not at all: when a command in it fails or is unknown, when it is
discarded, or when a watched key has changed, the store is as it was.
-/

namespace StoreTrial.Script

open Step (payload)

/-- Queues the writes of all pairs, each of which must be accepted. -/
def queueAll (pairs : List (String × String)) : List Step :=
  pairs.map fun (key, value) => .queueStore key value

/-- Opens a block, queues, and ends the block in any way. -/
def block (queue : List Step) (ending : Command) : List Step :=
  .command .checker .multi :: queue ++ [.command .checker ending]

/-! ## Failing blocks -/

/-- A block whose second half deletes absent keys leaves nothing behind. -/
def txAtomic (d : Dataset) : List Step :=
  let half := d.size / 2
  block ((d.pairs.take half).map (fun (key, value) => .tryStore key value)
      ++ (d.keys.drop half).map fun key => .command .checker (.queued (.del [payload key]))) .exec
    ++ absentAll .rollback d.pairs

/-- A command that no server knows. -/
def unknownCommand (key : String) : Command := .raw [payload "NOSUCHCOMMAND", payload key]

/-- The value that a void block would write. -/
def voidValue (value : String) (i : Nat) : String := value ++ "#" ++ Decimal.ofNat i

/-- The steps of a void block for the pair of an index, of which the middle one is preceded by a
command that is unknown. -/
def voidSteps (middle : Nat) : (String × String) × Nat → List Step
  | ((key, value), i) =>
    (if i = middle then [.command .checker (.queued (unknownCommand key))] else [])
      ++ [.tryStore key (voidValue value i)]

/-- An unknown command in the middle voids its block. -/
def txInvalidCommand (d : Dataset) : List Step :=
  storeAll d.pairs ++ block (d.pairs.zipIdx.flatMap (voidSteps (d.size / 2))) .exec
    ++ readAll d.pairs

/-! ## Blocks of writes -/

/-- The fault of the end of a block that must be applied. -/
def commitFault (commands : Nat) : ExecOutcome → Option CaseFailure
  | .committed replies =>
    faultUnless (replies.length == commands) (.replyCount replies.length commands)
  | outcome => some (.notCommitted outcome)

/-- A block of writes is applied. -/
def txCommit (d : Dataset) : List Step :=
  .command .checker .multi :: queueAll d.pairs
    ++ .expect .checker .exec (commitFault d.size) :: readAll d.pairs

/-- The keys with their indices as values. -/
def numbered (d : Dataset) : List (String × String) :=
  d.keys.zipIdx.map fun (key, i) => (key, Decimal.ofNat i)

/-- A discarded block leaves nothing behind. -/
def txDiscard (d : Dataset) : List Step :=
  storeAll (numbered d) ++ block (queueAll (modifiedAll d.pairs)) .discard ++ readAll (numbered d)

/-! ## Watched keys -/

/-- A watched key that a rival changes voids the block. -/
def txWatch (watched rival : String) (d : Dataset) : List Step :=
  storeAll d.pairs ++ [
      .store .checker watched "original",
      .command .checker (.watch [payload watched]),
      .command .checker .multi,
      .store .rival watched rival]
    ++ (modifiedAll d.pairs).map (fun (key, value) => .tryStore key value) ++ [
      .tryStore watched "from_watcher",
      .expect .checker .exec fun outcome => faultUnless (!outcome.isCommitted) (.committed outcome),
      .read .checker watched rival]
    ++ readAll d.pairs

end StoreTrial.Script
