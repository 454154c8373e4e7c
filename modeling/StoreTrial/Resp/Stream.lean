import StoreTrial.Resp.Parse

/-!
# Streams of frames

Bytes arrive in chunks, cut anywhere. After each chunk every complete frame is taken out of the
buffer; what stays is empty, the start of a frame, or malformed, and in the last case nothing more
is taken until the end of the session.

## Main results

* `drain_of_complete`, `drain_of_incomplete`, `drain_of_invalid` — what draining does, by what the
  buffer holds.
-/

namespace StoreTrial.Resp

/-- Why no further frame could be taken out of a buffer. -/
inductive Stop where
  /-- No bytes are left. -/
  | empty
  /-- The bytes left are the start of a frame. -/
  | incomplete
  /-- The bytes left can never become a frame. -/
  | failed (e : Error)
  deriving Repr, DecidableEq

/-- The frames taken out of a buffer, and what stays in it. -/
structure Drained where
  frames : List Value
  stop : Stop
  left : Bytes
  deriving Repr

/-- Takes every complete frame out of a buffer. -/
def drain (buffer : Bytes) : Drained :=
  match _h : parse buffer with
  | .complete v rest =>
    let more := drain rest
    { more with frames := v :: more.frames }
  | .incomplete => ⟨[], if buffer.isEmpty then .empty else .incomplete, buffer⟩
  | .invalid e => ⟨[], .failed e, buffer⟩
  termination_by buffer.length
  decreasing_by
    have := length_of_parse _h
    omega

/-- A frame that is complete is taken out first. -/
theorem drain_of_complete {buffer rest : Bytes} {v : Value}
    (h : parse buffer = .complete v rest) :
    drain buffer = { drain rest with frames := v :: (drain rest).frames } := by
  rw [drain]
  split
  · next w after hparse =>
    rw [h] at hparse
    cases hparse
    rfl
  · next hparse => rw [h] at hparse; cases hparse
  · next hparse => rw [h] at hparse; cases hparse

/-- Without a complete frame everything stays. -/
theorem drain_of_incomplete {buffer : Bytes} (h : parse buffer = .incomplete) :
    drain buffer = ⟨[], if buffer.isEmpty then .empty else .incomplete, buffer⟩ := by
  rw [drain]
  split
  · next hparse => rw [h] at hparse; cases hparse
  · rfl
  · next hparse => rw [h] at hparse; cases hparse

/-- Malformed bytes stay, too. -/
theorem drain_of_invalid {buffer : Bytes} {e : Error} (h : parse buffer = .invalid e) :
    drain buffer = ⟨[], .failed e, buffer⟩ := by
  rw [drain]
  split
  · next hparse => rw [h] at hparse; cases hparse
  · next hparse => rw [h] at hparse; cases hparse
  · next hparse =>
    rw [h] at hparse
    cases hparse
    rfl

/-- Drains the buffer after each chunk that is appended to it. -/
def feed (buffer : Bytes) : List Bytes → List Drained
  | [] => []
  | chunk :: chunks =>
    let drained := drain (buffer ++ chunk)
    drained :: feed drained.left chunks

end StoreTrial.Resp
