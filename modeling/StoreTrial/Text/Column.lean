/-!
# Columns of a table

Cells are filled with spaces up to the width of their column and never cut.
-/

namespace StoreTrial.Column

/-- The blanks that a text of this length lacks. -/
def fill (width : Nat) (text : String) : String :=
  String.ofList (List.replicate (width - text.toList.length) ' ')

/-- Text at the left edge of its column. -/
def left (width : Nat) (text : String) : String := text ++ fill width text

/-- Text at the right edge of its column. -/
def right (width : Nat) (text : String) : String := fill width text ++ text

end StoreTrial.Column
