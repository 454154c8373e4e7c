import StoreTrial.Json.Value

/-!
# Records with defaults

A record is an object whose members replace the default of the field they name. Members with other
names are passed over; a field that is named twice is a fault. A record may also be an array of its
fields in their order, from the first up to any of them.
-/

namespace StoreTrial.Config

/-- A field of a record: its name, and how it takes its value from a document. -/
structure Field (σ : Type) where
  name : String
  assign : Json → σ → Option σ

/-- The field whose value is read by `read` and stored by `store`. -/
def field {σ α : Type} (name : String) (read : Json → Option α) (store : σ → α → σ) : Field σ :=
  ⟨name, fun j s => (read j).map (store s)⟩

/-- Replaces the fields that the members name; `seen` are the fields named before. -/
def assignMembers {σ : Type} (fields : List (Field σ)) :
    (seen : List String) → List (Json.Literal × Json) → σ → Option σ
  | _, [], s => some s
  | seen, (literal, value) :: members, s =>
    literal.text?.bind fun name =>
      match fields.find? (·.name == name) with
      | none => assignMembers fields seen members s
      | some f =>
        if name ∈ seen then none
        else (f.assign value s).bind (assignMembers fields (name :: seen) members)

/-- Replaces the first fields by the items. -/
def assignItems {σ : Type} : List (Field σ) → List Json → σ → Option σ
  | _, [], s => some s
  | [], _ :: _, _ => none
  | f :: fields, value :: items, s => (f.assign value s).bind (assignItems fields items)

/-- Reads a record that starts from its defaults. -/
def readRecord {σ : Type} (fields : List (Field σ)) (default : σ) : Json → Option σ
  | .object members => assignMembers fields [] members default
  | .array items => assignItems fields items default
  | _ => none

end StoreTrial.Config
