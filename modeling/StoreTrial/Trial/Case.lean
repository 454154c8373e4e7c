import StoreTrial.Config.Basic

/-!
# The cases

The contract of a store is checked by fourteen cases, each with a name of its own. A configuration
may name some of them; they always run in the order in which they are declared here.

## Main results

* `Case.mem_all` — every case is listed.
-/

namespace StoreTrial

/-- One part of the contract. -/
inductive Case where
  /-- What is written can be read. -/
  | setGet
  /-- A value with a life in seconds expires. -/
  | setEx
  /-- A value with a life in milliseconds expires. -/
  | setPx
  /-- A write under a condition of absence keeps what is there. -/
  | setNx
  /-- A write under a condition of presence creates nothing. -/
  | setXx
  /-- A write can return the value held before. -/
  | setGetOption
  /-- What is deleted is gone, and is deleted once. -/
  | del
  /-- A block with a failing command leaves nothing behind. -/
  | txAtomic
  /-- A block of writes is applied. -/
  | txCommit
  /-- A discarded block leaves nothing behind. -/
  | txDiscard
  /-- An unknown command voids its block. -/
  | txInvalidCommand
  /-- A watched key that changes voids the block. -/
  | txWatch
  /-- Every published message arrives once. -/
  | pubSub
  /-- Compaction keeps the latest values and no deleted key. -/
  | merge
  deriving Repr, DecidableEq

namespace Case

/-- The cases in the order in which they run. -/
def all : List Case :=
  [setGet, setEx, setPx, setNx, setXx, setGetOption, del, txAtomic, txCommit, txDiscard,
    txInvalidCommand, txWatch, pubSub, merge]

/-- Every case is listed. -/
theorem mem_all (c : Case) : c ∈ all := by cases c <;> decide

/-- The name under which settings and reports know a case. -/
def name : Case → String
  | setGet => "set_get"
  | setEx => "set_ex"
  | setPx => "set_px"
  | setNx => "set_nx"
  | setXx => "set_xx"
  | setGetOption => "set_get_option"
  | del => "del"
  | txAtomic => "tx_atomic"
  | txCommit => "tx_commit"
  | txDiscard => "tx_discard"
  | txInvalidCommand => "tx_invalid_command"
  | txWatch => "tx_watch"
  | pubSub => "pub_sub"
  | merge => "merge"

/-- The case of a name. -/
def ofName? (name : String) : Option Case := all.find? (·.name == name)

/-! ## Selection -/

/-- A configuration names a case that does not exist. -/
structure UnknownCase where
  name : String
  deriving Repr, DecidableEq

/-- The text shown for an unknown case. -/
def UnknownCase.message (u : UnknownCase) : String := "unknown conformance case: " ++ u.name

/-- The cases among `names` in the order in which they run, or the first name without a case. -/
def select (names : Option (List String)) : Except UnknownCase (List Case) :=
  match names with
  | none => .ok all
  | some names =>
    match names.find? fun name => (ofName? name).isNone with
    | some name => .error ⟨name⟩
    | none => .ok (all.filter fun c => names.contains c.name)

end Case

/-- The cases that a configuration asks for. -/
def ConformanceConfig.selected (c : ConformanceConfig) : Except Case.UnknownCase (List Case) :=
  Case.select c.cases

end StoreTrial
