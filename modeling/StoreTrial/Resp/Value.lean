import StoreTrial.Bytes

/-!
# Values of the serialization protocol

A server and its clients exchange values of one dynamic type, in version 2 or 3 of the protocol.
Version 2 knows texts, errors, integers, payloads, null and arrays; version 3 adds the rest.
-/

namespace StoreTrial.Resp

/-! ## Versions -/

/-- The version of the protocol that a session speaks. -/
inductive Version where
  | resp2
  | resp3
  deriving Repr, DecidableEq

/-- The number by which a session asks for a version. -/
def Version.number : Version → Nat
  | .resp2 => 2
  | .resp3 => 3

/-! ## Values -/

/-- One frame of the protocol. -/
inductive Value where
  /-- A short text on one line. -/
  | simple (text : String)
  /-- An error message. -/
  | error (message : String)
  | integer (n : Int64)
  /-- A payload of any bytes. -/
  | bulk (payload : Bytes)
  /-- Nothing, in whichever of its spellings. -/
  | null
  | array (items : List Value)
  | boolean (b : Bool)
  | double (x : Float)
  /-- Pairs in the order in which they were sent; a key may occur again. -/
  | map (entries : List (Value × Value))
  | set (items : List Value)
  /-- A frame that answers no request. -/
  | push (items : List Value)
  deriving Repr, Inhabited

namespace Value

/-- A request: an array of payloads. -/
def request (parts : List Bytes) : Value := .array (parts.map .bulk)

/-! ### Observations -/

/-- Whether this is null. -/
def isNull : Value → Bool
  | .null => true
  | _ => false

/-- Whether this is a frame that answers no request. -/
def isPush : Value → Bool
  | .push _ => true
  | _ => false

/-- The elements of an array, set or push. -/
def items? : Value → Option (List Value)
  | .array items | .set items | .push items => some items
  | _ => none

/-- The bytes of a payload. -/
def payload? : Value → Option Bytes
  | .bulk payload => some payload
  | _ => none

/-- The bytes of a short text or a payload. -/
def text? : Value → Option Bytes
  | .simple text => some (Bytes.ofText text)
  | .bulk payload => some payload
  | _ => none

/-- Whether this is a short text or a payload that reads `expected`, in any case of letters. -/
def reads (expected : String) (v : Value) : Bool :=
  match v.text? with
  | some bytes => Bytes.sameIgnoringCase bytes (Bytes.ofText expected)
  | none => false

/-- The number of an integer; a boolean counts as one or zero. -/
def integer? : Value → Option Int64
  | .integer n => some n
  | .boolean b => some (if b then 1 else 0)
  | _ => none

/-! ### Size -/

mutual

/-- How many frames a value is made of, itself included. -/
def nodes : Value → Nat
  | .array items | .set items | .push items => 1 + nodesOfItems items
  | .map entries => 1 + nodesOfEntries entries
  | .simple _ | .error _ | .integer _ | .bulk _ | .null | .boolean _ | .double _ => 1

/-- The frames of a list of values. -/
def nodesOfItems : List Value → Nat
  | [] => 0
  | v :: vs => v.nodes + nodesOfItems vs

/-- The frames of a list of pairs. -/
def nodesOfEntries : List (Value × Value) → Nat
  | [] => 0
  | (k, v) :: es => k.nodes + v.nodes + nodesOfEntries es

end

/-! ### Agreement -/

mutual

/--
Whether two values agree as data. Doubles are compared as numbers, so zero agrees with negative
zero and no number with nothing.
-/
def agrees : Value → Value → Bool
  | .simple a, .simple b => a == b
  | .error a, .error b => a == b
  | .integer a, .integer b => a == b
  | .bulk a, .bulk b => a == b
  | .null, .null => true
  | .array a, .array b => itemsAgree a b
  | .boolean a, .boolean b => a == b
  | .double a, .double b => a == b
  | .map a, .map b => entriesAgree a b
  | .set a, .set b => itemsAgree a b
  | .push a, .push b => itemsAgree a b
  | _, _ => false

/-- Element-wise agreement. -/
def itemsAgree : List Value → List Value → Bool
  | [], [] => true
  | a :: as, b :: bs => agrees a b && itemsAgree as bs
  | _, _ => false

/-- Pair-wise agreement, in order. -/
def entriesAgree : List (Value × Value) → List (Value × Value) → Bool
  | [], [] => true
  | (k, a) :: as, (l, b) :: bs => agrees k l && agrees a b && entriesAgree as bs
  | _, _ => false

end

end Value

end StoreTrial.Resp
