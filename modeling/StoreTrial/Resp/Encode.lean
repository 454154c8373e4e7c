import StoreTrial.Decimal.Layout
import StoreTrial.Resp.Line
import StoreTrial.Resp.Value

/-!
# The written form of values

`encode version v` is the one form in which a value is sent. A peer of version 2 gets what it
lacks in the nearest older shape: a boolean as one or zero, a double as the payload of its text,
sets and pushes as arrays, and a map as the flat array of its keys and values. `Value.down` is that
change of shape by itself.
-/

namespace StoreTrial.Resp

/-! ## Payloads -/

/-- A payload with its length in front. -/
def blob (payload : Bytes) : Bytes := header 36 payload.length ++ payload ++ crlf

/-! ## Values -/

/-- The text of a double: plain digits. -/
def doubleText (x : Float) : String := Decimal.plain.write x

mutual

/-- The bytes of a value for a peer of a version. -/
def encode (version : Version) : Value → Bytes
  | .simple text => line 43 (Bytes.ofText text)
  | .error message => line 45 (Bytes.ofText message)
  | .integer n => line 58 (Bytes.ofText (Decimal.ofInt64 n))
  | .bulk payload => blob payload
  | .null =>
    match version with
    | .resp2 => line 36 (Bytes.ofText "-1")
    | .resp3 => line 95 []
  | .array items => header 42 items.length ++ encodeItems version items
  | .boolean b =>
    match version with
    | .resp2 => line 58 (Bytes.ofText (if b then "1" else "0"))
    | .resp3 => line 35 (Bytes.ofText (if b then "t" else "f"))
  | .double x =>
    match version with
    | .resp2 => blob (Bytes.ofText (doubleText x))
    | .resp3 => line 44 (Bytes.ofText (doubleText x))
  | .map entries =>
    match version with
    | .resp2 => header 42 (entries.length * 2) ++ encodeEntries version entries
    | .resp3 => header 37 entries.length ++ encodeEntries version entries
  | .set items =>
    match version with
    | .resp2 => header 42 items.length ++ encodeItems version items
    | .resp3 => header 126 items.length ++ encodeItems version items
  | .push items =>
    match version with
    | .resp2 => header 42 items.length ++ encodeItems version items
    | .resp3 => header 62 items.length ++ encodeItems version items

/-- The elements one after another. -/
def encodeItems (version : Version) : List Value → Bytes
  | [] => []
  | v :: vs => encode version v ++ encodeItems version vs

/-- Each key followed by its value. -/
def encodeEntries (version : Version) : List (Value × Value) → Bytes
  | [] => []
  | (k, v) :: es => encode version k ++ encode version v ++ encodeEntries version es

end

theorem encodeItems_eq_flatMap (version : Version) (items : List Value) :
    encodeItems version items = items.flatMap (encode version) := by
  induction items with
  | nil => rfl
  | cons v vs ih => rw [encodeItems, ih, List.flatMap_cons]

theorem encodeEntries_eq_flatMap (version : Version) (entries : List (Value × Value)) :
    encodeEntries version entries =
      entries.flatMap fun e => encode version e.1 ++ encode version e.2 := by
  induction entries with
  | nil => rfl
  | cons e es ih =>
    obtain ⟨k, v⟩ := e
    rw [encodeEntries, ih, List.flatMap_cons]

/-! ## The older shape -/

mutual

/-- A value in the shapes that version 2 knows, at every depth. -/
def Value.down : Value → Value
  | .boolean b => .integer (if b then 1 else 0)
  | .double x => .bulk (Bytes.ofText (doubleText x))
  | .array items | .set items | .push items => .array (downItems items)
  | .map entries => .array (downEntries entries)
  | .simple text => .simple text
  | .error message => .error message
  | .integer n => .integer n
  | .bulk payload => .bulk payload
  | .null => .null

/-- The elements in the older shapes. -/
def Value.downItems : List Value → List Value
  | [] => []
  | v :: vs => v.down :: downItems vs

/-- Keys and values in turn, in the older shapes. -/
def Value.downEntries : List (Value × Value) → List Value
  | [] => []
  | (k, v) :: es => k.down :: v.down :: downEntries es

end

end StoreTrial.Resp
