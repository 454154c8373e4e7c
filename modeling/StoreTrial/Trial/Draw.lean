import StoreTrial.Dataset
import StoreTrial.Trial.Case

/-!
# Draws

The random texts of a case come from outside. A draw holds all that one case may need.
-/

namespace StoreTrial

/-- The random texts of one case. -/
structure Draw where
  /-- The pairs that the case writes. -/
  data : Dataset
  /-- Values that must not replace the value of a pair, by the index of the pair. -/
  fresh : Nat → String
  /-- The key that is watched. -/
  watched : String
  /-- What a rival writes under the watched key. -/
  rival : String

/-- How many pairs a case writes. -/
def Case.size (config : ConformanceConfig) : Case → Nat
  | setGet | setEx | setPx | setNx | setXx | setGetOption | del => config.kvSize.toNat
  | txAtomic | txCommit | txDiscard | txInvalidCommand | txWatch => config.txSize.toNat
  | pubSub => config.messageCount.toNat
  | merge => config.mergeSize.toNat

/-- How long the random part of a rival's value is. -/
def rivalLength : Nat := 8

/-- What a rival writes. -/
def rivalValue (text : String) : String := "other_" ++ text

/--
The draw of a case from random texts: first two for each pair and more for each repetition, then
the others. There is no answer if the texts run out.
-/
def Draw.ofTexts (size : Nat) (texts : List String) (rival : String) : Option Draw :=
  match Dataset.generate size texts with
  | some (data, watched :: fresh) =>
    some { data, watched, fresh := fun i => fresh.getD i "", rival := rivalValue rival }
  | _ => none

end StoreTrial
