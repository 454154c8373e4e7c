import StoreTrial.Trial.Draw
import StoreTrial.Trial.Step

/-!
# Cases about writes

The cases that write pairs one by one, with and without conditions, read them back and delete them.
Conditional writes find the keys of the first half in place and the others absent.
-/

namespace StoreTrial.Script

open Step (payload)

/-! ## Plain writes and deletions -/

/-- What is written can be read. -/
def setGet (d : Dataset) : List Step := storeAll d.pairs ++ readAll d.pairs

/-- A key is deleted once, and is gone afterwards. -/
def deleteAgain (key : String) : List Step := [
  .expect .checker (.del [payload key]) fun n => faultUnless (n == 0) (.secondDeletion key n),
  .absent .deletion key]

/-- What is deleted is gone, and is deleted once. -/
def del (d : Dataset) : List Step :=
  storeAll d.pairs ++ d.keys.map .delete ++ d.keys.flatMap deleteAgain

/-! ## Values with a life -/

/-- Writes a value with a life. -/
def storeExpiring (life : Expiration) (key value : String) : Step :=
  .expect .checker (.set (payload key) (payload value) { expiration := some life }) fun reply =>
    faultUnless (reply == .stored) (.expiringWrite key (some life) reply)

/-- Every value is gone when its life is over. -/
def expiring (life : Expiration) (span : Duration) (d : Dataset) : List Step :=
  d.pairs.map (fun (key, value) => storeExpiring life key value)
    ++ .pause span :: absentAll .expiry d.pairs

/-- Values with a life in seconds. -/
def setEx (config : ConformanceConfig) (d : Dataset) : List Step :=
  expiring (.seconds config.expireSeconds) (.ofSeconds config.expireSeconds.toNat) d

/-- Values with a life in milliseconds. -/
def setPx (config : ConformanceConfig) (d : Dataset) : List Step :=
  expiring (.millis config.expireMillis) (.ofMillis config.expireMillis.toNat) d

/-! ## Conditional writes -/

/-- Writes a value on a condition, with the reply that is expected. -/
def storeIf (condition : Condition) (expected : SetReply)
    (failure : String → SetReply → CaseFailure) (key value : String) : Step :=
  .expect .checker (.set (payload key) (payload value) { condition := some condition }) fun reply =>
    faultUnless (reply == expected) (failure key reply)

/-- A write on the condition of absence keeps what is there and creates the rest. -/
def setNx (fresh : Nat → String) (d : Dataset) : List Step :=
  storeAll d.early
    ++ d.early.zipIdx.map (fun ((key, _), i) =>
      storeIf .ifAbsent .notStored .replaced key (fresh i))
    ++ d.late.map (fun (key, value) => storeIf .ifAbsent .stored .notCreated key value)
    ++ readAll d.pairs

/-- A write on the condition of presence replaces what is there and creates nothing. -/
def setXx (d : Dataset) : List Step :=
  storeAll d.early
    ++ (modifiedAll d.early).map (fun (key, value) =>
      storeIf .ifPresent .stored .notReplaced key value)
    ++ (modifiedAll d.late).map (fun (key, value) =>
      storeIf .ifPresent .notStored .created key value)
    ++ readAll (modifiedAll d.early)
    ++ absentAll .conditionalWrite d.late

/-! ## Writes that return the value held before -/

/-- The fault of a reply that should hold the value held before. -/
def previousFault (key : String) (expected : Option Bytes) : SetReply → Option CaseFailure
  | .previous actual => faultUnless (expected == actual) (.value key expected actual)
  | reply => some (.noPrevious key reply)

/-- Replaces a value and asks for the one held before. -/
def exchange (key value : String) (expected : Option String) : Step :=
  .expect .checker (.set (payload key) (payload (modified value)) { previous := true })
    (previousFault key (expected.map payload))

/-- A write can return the value held before, or its absence. -/
def setGetOption (d : Dataset) : List Step :=
  storeAll d.early
    ++ d.early.map (fun (key, value) => exchange key value (some value))
    ++ d.late.map (fun (key, value) => exchange key value none)
    ++ readAll (modifiedAll d.pairs)

end StoreTrial.Script
