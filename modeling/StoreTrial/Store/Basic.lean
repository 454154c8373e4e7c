import StoreTrial.Resp.Value
import StoreTrial.Store.Table

/-!
# A store

A small store to hold the contract against: entries that may expire, a count of the writes of each
key, and a log of all writes. A store that diverges from the contract does so in one or more of a
few named ways. The time is told in nanoseconds and never goes back.
-/

namespace StoreTrial

/-- The ways in which a store can break the contract. -/
structure Divergence where
  /-- A write on the condition of absence replaces what is there. -/
  replacesPresent : Bool := false
  /-- A block keeps the writes that precede a failing command. -/
  keepsFailedBlocks : Bool := false
  /-- Published messages are counted but not delivered. -/
  dropsMessages : Bool := false
  /-- A block is applied although a watched key has changed. -/
  ignoresWatches : Bool := false
  /-- A discarded block is applied. -/
  appliesDiscarded : Bool := false
  /-- Compaction writes every logged value again, also those of deleted keys. -/
  restoresDeleted : Bool := false
  /-- A write without options is applied but answered with null. -/
  deniesWrites : Bool := false
  deriving Repr, DecidableEq

/-- What is stored under a key. -/
structure Entry where
  value : Bytes
  /-- When the entry expires, if ever. -/
  expiresAt : Option Nat
  deriving Repr, DecidableEq

/-- Whether an entry has not expired. -/
def Entry.isLive (e : Entry) (now : Nat) : Bool :=
  match e.expiresAt with
  | none => true
  | some moment => now < moment

/-- What a server stores. -/
structure Store where
  entries : Table Entry := {}
  /-- How often each key was written or deleted. -/
  versions : Table Nat := {}
  /-- The writes in order; a deletion has no value. -/
  log : List (Bytes × Option Bytes) := []
  deriving Repr

namespace Store

/-- The entry under a key, unless it has expired. -/
def live? (s : Store) (now : Nat) (key : Bytes) : Option Entry :=
  (s.entries.get? key).filter (·.isLive now)

/-- How often a key was written or deleted. -/
def version (s : Store) (key : Bytes) : Nat := (s.versions.get? key).getD 0

/-- Counts and logs a write. -/
def touch (s : Store) (key : Bytes) (value : Option Bytes) : Store :=
  { s with
    versions := s.versions.insert key (s.version key + 1)
    log := s.log ++ [(key, value)] }

/-- Writes an entry. -/
def put (s : Store) (key : Bytes) (e : Entry) : Store :=
  { s with entries := s.entries.insert key e }.touch key (some e.value)

/-- Deletes a key. -/
def remove (s : Store) (key : Bytes) : Store :=
  { s with entries := s.entries.erase key }.touch key none

/-- Forgets expired entries, and of the log all but the values that are held. -/
def compact (s : Store) (now : Nat) : Store :=
  let entries := s.entries.filter (·.isLive now)
  { s with entries, log := entries.pairs.map fun (key, e) => (key, some e.value) }

/-- Writes every logged value again. -/
def restore (s : Store) : Store :=
  let rewrite (entries : Table Entry) : Bytes × Option Bytes → Table Entry
    | (key, some value) => entries.insert key { value, expiresAt := none }
    | (_, none) => entries
  { s with entries := s.log.foldl rewrite s.entries }

end Store

end StoreTrial
