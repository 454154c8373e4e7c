import StoreTrial.Json.Value

/-!
# Reading documents

`Json.read?` reads one document that takes up the whole text, blanks around it apart. Blanks are
the space, the tab and the two line ends; a raw control character ends no string but breaks it.
There is no limit to how deep arrays and objects are nested: readers that go 127 levels deep agree
with this one on the documents that do not go deeper.
-/

namespace StoreTrial.Json

/-! ## Blanks and strings -/

/-- A character that may stand between the parts of a document. -/
def isBlank (c : Char) : Bool := c = ' ' || c = '\t' || c = '\n' || c = '\r'

/-- The text after its leading blanks. -/
def skipBlanks (cs : List Char) : List Char := cs.dropWhile isBlank

/-- The value of a hexadecimal digit in either case. -/
def hexValue? (c : Char) : Option Nat :=
  if '0' ≤ c ∧ c ≤ '9' then some (c.toNat - 48)
  else if 'a' ≤ c ∧ c ≤ 'f' then some (c.toNat - 87)
  else if 'A' ≤ c ∧ c ≤ 'F' then some (c.toNat - 55)
  else none

/-- The unit that four hexadecimal digits write. -/
def unit? (a b c d : Char) : Option Nat := do
  return (((← hexValue? a) * 16 + (← hexValue? b)) * 16 + (← hexValue? c)) * 16 + (← hexValue? d)

/-- The character that a letter behind a backslash stands for. -/
def escape? (c : Char) : Option Char :=
  if c = '"' ∨ c = '\\' ∨ c = '/' then some c
  else if c = 'b' then some '\x08'
  else if c = 'f' then some '\x0c'
  else if c = 'n' then some '\n'
  else if c = 'r' then some '\r'
  else if c = 't' then some '\t'
  else none

/-- One more piece in front of a string that was read. -/
def before (piece : Piece) : Option (Literal × List Char) → Option (Literal × List Char)
  | some (l, rest) => some (piece :: l, rest)
  | none => none

/-- The string up to its closing quote, and what follows. -/
def string? : List Char → Option (Literal × List Char)
  | '"' :: rest => some ([], rest)
  | '\\' :: 'u' :: a :: b :: c :: d :: rest =>
    match unit? a b c d with
    | some n => before (.unit n) (string? rest)
    | none => none
  | '\\' :: c :: rest =>
    match escape? c with
    | some c => before (.char c) (string? rest)
    | none => none
  | c :: rest => if ' ' ≤ c ∧ c ≠ '\\' then before (.char c) (string? rest) else none
  | [] => none

/-! ## Documents -/

/-- The rest of the text if it begins with a word. -/
def word (expected : List Char) (cs : List Char) : Option (List Char) :=
  if expected.isPrefixOf cs then some (cs.drop expected.length) else none

mutual

/-- The document at the start of a text without leading blanks, and what follows. -/
def value? : Nat → List Char → Option (Json × List Char)
  | 0, _ => none
  | _, [] => none
  | fuel + 1, c :: cs =>
    if c = '{' then
      match skipBlanks cs with
      | '}' :: rest => some (.object [], rest)
      | rest => (members? fuel rest).map fun (ms, rest) => (.object ms, rest)
    else if c = '[' then
      match skipBlanks cs with
      | ']' :: rest => some (.array [], rest)
      | rest => (items? fuel rest).map fun (js, rest) => (.array js, rest)
    else if c = '"' then (string? cs).map fun (l, rest) => (.string l, rest)
    else if c = 'n' then (word ['u', 'l', 'l'] cs).map fun rest => (.null, rest)
    else if c = 't' then (word ['r', 'u', 'e'] cs).map fun rest => (.bool true, rest)
    else if c = 'f' then (word ['a', 'l', 's', 'e'] cs).map fun rest => (.bool false, rest)
    else (Number.read? (c :: cs)).map fun (n, rest) => (.number n, rest)

/-- The items of an array, from the first one to the closing bracket. -/
def items? : Nat → List Char → Option (List Json × List Char)
  | 0, _ => none
  | fuel + 1, cs =>
    (value? fuel cs).bind fun (j, rest) =>
      match skipBlanks rest with
      | ']' :: rest => some ([j], rest)
      | ',' :: rest =>
        (items? fuel (skipBlanks rest)).map fun (js, rest) => (j :: js, rest)
      | _ => none

/-- The members of an object, from the first one to the closing brace. -/
def members? : Nat → List Char → Option (List (Literal × Json) × List Char)
  | 0, _ => none
  | _, [] => none
  | fuel + 1, c :: cs =>
    if c ≠ '"' then none
    else
      (string? cs).bind fun (name, rest) =>
        match skipBlanks rest with
        | ':' :: rest =>
          (value? fuel (skipBlanks rest)).bind fun (j, rest) =>
            match skipBlanks rest with
            | '}' :: rest => some ([(name, j)], rest)
            | ',' :: rest =>
              (members? fuel (skipBlanks rest)).map fun (ms, rest) => ((name, j) :: ms, rest)
            | _ => none
        | _ => none

end

/-- The document that a text writes. Each step inwards or onwards takes a character or more. -/
def read? (text : String) : Option Json :=
  let cs := skipBlanks text.toList
  match value? (2 * cs.length + 2) cs with
  | some (j, rest) => if (skipBlanks rest).isEmpty then some j else none
  | none => none

end StoreTrial.Json
