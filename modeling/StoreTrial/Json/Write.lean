import StoreTrial.Json.Value
import StoreTrial.Text.Hexadecimal

/-!
# Writing documents

A document is written without blanks, or with one part to a line and two spaces for each level. In
both forms a string escapes quotes, backslashes and controls and keeps all else.
-/

namespace StoreTrial.Json

/-! ## Strings -/

/-- How a piece of a string is written. -/
def Piece.write : Piece → List Char
  | .char c =>
    if c = '"' ∨ c = '\\' then ['\\', c]
    else if c = '\x08' then ['\\', 'b']
    else if c = '\x0c' then ['\\', 'f']
    else if c = '\n' then ['\\', 'n']
    else if c = '\r' then ['\\', 'r']
    else if c = '\t' then ['\\', 't']
    else [c]
  | .unit n => ['\\', 'u'] ++ hexPair (n / 256) ++ hexPair n

/-- How a string is written. -/
def Literal.write (l : Literal) : List Char := '"' :: l.flatMap Piece.write ++ ['"']

/-! ## Compact form -/

mutual

/-- A document without blanks. -/
def compact : Json → List Char
  | .null => ['n', 'u', 'l', 'l']
  | .bool true => ['t', 'r', 'u', 'e']
  | .bool false => ['f', 'a', 'l', 's', 'e']
  | .number n => n.write
  | .string l => l.write
  | .array items => '[' :: compactItems items ++ [']']
  | .object members => '{' :: compactMembers members ++ ['}']

/-- Items with commas between them. -/
def compactItems : List Json → List Char
  | [] => []
  | [j] => compact j
  | j :: js => compact j ++ ',' :: compactItems js

/-- Members with commas between them. -/
def compactMembers : List (Literal × Json) → List Char
  | [] => []
  | [(name, j)] => name.write ++ ':' :: compact j
  | (name, j) :: ms => name.write ++ ':' :: compact j ++ ',' :: compactMembers ms

end

/-- The text of a document without blanks. -/
def compactText (j : Json) : String := String.ofList (compact j)

/-! ## Indented form -/

/-- A new line at a level. -/
def newline (level : Nat) : List Char := '\n' :: List.replicate (2 * level) ' '

mutual

/-- A document whose inner parts stand one level further in. -/
def indented (level : Nat) : Json → List Char
  | .array [] => ['[', ']']
  | .array items => '[' :: indentedItems (level + 1) items ++ newline level ++ [']']
  | .object [] => ['{', '}']
  | .object members => '{' :: indentedMembers (level + 1) members ++ newline level ++ ['}']
  | .null => ['n', 'u', 'l', 'l']
  | .bool true => ['t', 'r', 'u', 'e']
  | .bool false => ['f', 'a', 'l', 's', 'e']
  | .number n => n.write
  | .string l => l.write

/-- Items on lines of their own. -/
def indentedItems (level : Nat) : List Json → List Char
  | [] => []
  | [j] => newline level ++ indented level j
  | j :: js => newline level ++ indented level j ++ ',' :: indentedItems level js

/-- Members on lines of their own. -/
def indentedMembers (level : Nat) : List (Literal × Json) → List Char
  | [] => []
  | [(name, j)] => newline level ++ name.write ++ ':' :: ' ' :: indented level j
  | (name, j) :: ms =>
    newline level ++ name.write ++ ':' :: ' ' :: indented level j
      ++ ',' :: indentedMembers level ms

end

/-- The text of a document with one part to a line. -/
def indentedText (j : Json) : String := String.ofList (indented 0 j)

end StoreTrial.Json
