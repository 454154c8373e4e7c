import StoreTrial.Proofs.Resp.Downgrade
import StoreTrial.Resp.Stream

/-!
# Values that both versions know

A server answers requests with short texts, errors, numbers, payloads, null and arrays of these.
Both versions of the protocol know these shapes, so each such value is read back as it was sent,
whichever version the session speaks.

## Main results

* `Value.plain_array`, `Value.plain_request` — arrays of plain values and requests are plain.
* `Value.Plain.drain_encode` — a plain value that is sent alone is all that a drained buffer yields.
-/

namespace StoreTrial.Resp.Value

/-- Whether a value is read back from its written form, in either version and whatever follows. -/
def Plain (v : Value) : Prop :=
  ∀ (version : Version) (rest : Bytes), parse (encode version v ++ rest) = .complete v rest

theorem plain_simple {text : String} (h : '\r' ∉ text.toList) : (simple text).Plain := by
  intro version rest
  cases version <;> exact parse_simple (hasCrlf_ofText h) rest

theorem plain_error {message : String} (h : '\r' ∉ message.toList) : (error message).Plain := by
  intro version rest
  cases version <;> exact parse_error (hasCrlf_ofText h) rest

theorem plain_integer (n : Int64) : (integer n).Plain := by
  intro version rest
  cases version <;> exact parse_integer n rest

theorem plain_bulk {payload : Bytes} (h : payload.length < 2 ^ 63) : (bulk payload).Plain := by
  intro version rest
  cases version <;> exact parse_blob h rest

theorem plain_null : null.Plain := by
  intro version rest
  cases version with
  | resp2 =>
    have hnumeral : Decimal.ofInt64 (-1) = "-1" := by decide +kernel
    exact parse_null_line (.inl rfl) (hnumeral ▸ writes_ofInt64 (-1)) rest
  | resp3 => exact parse_null rest

theorem plain_array {items : List Value} (hcount : items.length < 2 ^ 63)
    (h : ∀ v ∈ items, v.Plain) : (array items).Plain := by
  intro version rest
  show parse (header 42 items.length ++ encodeItems version items ++ rest) = _
  rw [encodeItems_eq_flatMap, List.append_assoc, parse_items (.inl rfl) hcount,
    repeated_flatMap fun v hv => h v hv version]
  rfl

/-- A request can be sent if its parts and their number can be announced. -/
theorem plain_request {parts : List Bytes} (hcount : parts.length < 2 ^ 63)
    (h : ∀ part ∈ parts, part.length < 2 ^ 63) : (request parts).Plain := by
  refine plain_array (by rwa [List.length_map]) fun v hv => ?_
  obtain ⟨part, hpart, rfl⟩ := List.mem_map.1 hv
  exact plain_bulk (h part hpart)

/-- A plain value that is sent alone is all that a drained buffer yields. -/
theorem Plain.drain_encode {v : Value} (h : v.Plain) (version : Version) :
    drain (encode version v) = ⟨[v], .empty, []⟩ := by
  have hparse : parse (encode version v) = .complete v [] := by
    have := h version []
    rwa [List.append_nil] at this
  rw [drain_of_complete hparse, drain_of_incomplete parse_nil]
  rfl

end StoreTrial.Resp.Value
