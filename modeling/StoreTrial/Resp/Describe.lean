import StoreTrial.Decimal.Layout
import StoreTrial.Resp.Value
import StoreTrial.Text.Quoted

/-!
# Values in messages

`Value.summary` names a value without its contents, `Value.detail` shows all of it.
-/

namespace StoreTrial.Resp.Value

/-- A word, and what stands in parentheses behind it. -/
def tagged (tag inner : String) : String := tag ++ "(" ++ inner ++ ")"

/-- The truth values by name. -/
def boolText (b : Bool) : String := if b then "true" else "false"

/-- A value by kind and size. -/
def summary : Value → String
  | .simple text => tagged "SimpleString" text
  | .error message => tagged "Error" message
  | .integer n => tagged "Integer" (Decimal.ofInt64 n)
  | .bulk payload => tagged "BulkString" (Decimal.ofNat payload.length ++ " bytes")
  | .null => "Null"
  | .array items => tagged "Array" (Decimal.ofNat items.length ++ " elements")
  | .boolean b => tagged "Boolean" (boolText b)
  | .double x => tagged "Double" (Decimal.plain.write x)
  | .map entries => tagged "Map" (Decimal.ofNat entries.length ++ " entries")
  | .set items => tagged "Set" (Decimal.ofNat items.length ++ " elements")
  | .push items => tagged "Push" (Decimal.ofNat items.length ++ " elements")

/-- Texts in square brackets, with commas between them. -/
def bracketed (texts : List String) : String := "[" ++ ", ".intercalate texts ++ "]"

mutual

/-- A value in full. -/
def detail : Value → String
  | .simple text => tagged "SimpleString" (Quoted.text text)
  | .error message => tagged "Error" (Quoted.text message)
  | .integer n => tagged "Integer" (Decimal.ofInt64 n)
  | .bulk payload => tagged "BulkString" (Quoted.bytes payload)
  | .null => "Null"
  | .array items => tagged "Array" (bracketed (detailOfItems items))
  | .boolean b => tagged "Boolean" (boolText b)
  | .double x => tagged "Double" (Decimal.marked.write x)
  | .map entries => tagged "Map" (bracketed (detailOfEntries entries))
  | .set items => tagged "Set" (bracketed (detailOfItems items))
  | .push items => tagged "Push" (bracketed (detailOfItems items))

/-- Each element in full. -/
def detailOfItems : List Value → List String
  | [] => []
  | v :: vs => v.detail :: detailOfItems vs

/-- Each pair in full. -/
def detailOfEntries : List (Value × Value) → List String
  | [] => []
  | (k, v) :: es => ("(" ++ k.detail ++ ", " ++ v.detail ++ ")") :: detailOfEntries es

end

end StoreTrial.Resp.Value
