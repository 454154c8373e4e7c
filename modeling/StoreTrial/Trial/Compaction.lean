import StoreTrial.Trial.Draw
import StoreTrial.Trial.Step

/-!
# The case about compaction

Every key is written in several versions and some keys are deleted. After the server has compacted
its logs the deleted keys are still gone and the others hold their latest version.
-/

namespace StoreTrial.Script

/-- The value of a key in a version; `i` is the index of the key. -/
def versioned (version i : Nat) (value : String) : String :=
  Decimal.ofNat version ++ "_" ++ Decimal.ofNat i ++ "_" ++ value

/-- The pairs in a version. -/
def versionOf (d : Dataset) (version : Nat) : List (String × String) :=
  d.pairs.zipIdx.map fun ((key, value), i) => (key, versioned version i value)

/-- The check of one key after compaction. -/
def compacted (versions every : Nat) : (String × String) × Nat → Step
  | ((key, value), i) =>
    if i % every = 0 then .absent .compaction key
    else .read .checker key (versioned versions i value)

/-- Compaction keeps the latest values and no deleted key. -/
def merge (versions every : Nat) (d : Dataset) : List Step :=
  storeAll d.pairs
    ++ (List.range' 1 versions).flatMap (fun version => storeAll (versionOf d version))
    ++ (d.keys.zipIdx.filter fun (_, i) => i % every == 0).map (fun (key, _) => .delete key)
    ++ .command .checker .merge :: d.pairs.zipIdx.map (compacted versions every)

end StoreTrial.Script
