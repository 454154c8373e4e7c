import StoreTrial.Text.Base64
import StoreTrial.Text.Quoted

/-!
# Previews of keys and values

A failure names the keys and values it is about. Text is quoted and cut after `previewLength`
characters, with dots for the rest; anything else is shown in base64.
-/

namespace StoreTrial

/-- How many characters of a text a preview shows. -/
def previewLength : Nat := 48

/-- The printable form of a key or value. -/
def preview (payload : Bytes) : String :=
  match Bytes.text? payload with
  | some text =>
    let head := Quoted.text (String.ofList (text.toList.take previewLength))
    if previewLength < text.toList.length then head ++ "..." else head
  | none => "base64:" ++ String.ofList (Base64.encode payload)

/-- The printable form of a value that may be missing. -/
def previewOption : Option Bytes → String
  | some payload => preview payload
  | none => "<absent>"

end StoreTrial
