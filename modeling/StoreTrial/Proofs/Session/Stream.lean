import StoreTrial.Proofs.Resp.Stability
import StoreTrial.Session.Connection

/-!
# The byte stream behind a connection

What a connection has yet to read is one stream: the bytes in its buffer and those that will
arrive, in whatever pieces.  A look at the connection takes a frame off the front of the stream or
leaves the stream as it is; where the pieces are cut and where reads fail changes nothing else.

## Main results

* `polls_poll` — everything that one look can do.
* `parse_stream_of_readFrame` — a frame that is read stands at the front of the stream.
* `readFrame_of_steady` — over a steady transport, the frame at the front of the stream is read, and
  without one the session ends.
-/

namespace StoreTrial

open Resp (Value parse)

/-- The bytes that an arrival brings. -/
def Arrival.bytes : Arrival → Bytes
  | .data chunk => chunk
  | .fault _ => []

/-- Whether a failure lies with the connection, and not in what the server said. -/
def ClientError.OfConnection : ClientError → Prop
  | .io _ | .protocol _ | .closed => True
  | .server _ | .unexpectedReply _ _ | .timeout _ => False

namespace Connection

/-- All bytes still to be read: those received and those that will arrive. -/
def stream (c : Connection) : Bytes := c.buffer ++ c.transport.inbound.flatMap Arrival.bytes

/-- What a connection writes with: reading leaves it alone. -/
def outgoing (c : Connection) : Resp.Version × Bytes × Option Nat :=
  (c.version, c.transport.written, c.transport.limit)

/-! ## One look -/

/-- Everything that one look at a connection can do. -/
inductive Polls (c : Connection) : Poll → Connection → Prop where
  | frame {v : Value} {rest : Bytes} (h : parse c.buffer = .complete v rest) :
      Polls c (.frame v) { c with buffer := rest }
  | malformed {e : Resp.Error} (h : parse c.buffer = .invalid e) :
      Polls c (.failed (.protocol e)) c
  | received {chunk : Bytes} {inbound : List Arrival} (h : parse c.buffer = .incomplete)
      (harrival : c.transport.inbound = .data chunk :: inbound) (hchunk : chunk ≠ []) :
      Polls c .received { c.skipArrival with buffer := c.buffer ++ chunk }
  | fault {cause : String} {inbound : List Arrival} (h : parse c.buffer = .incomplete)
      (harrival : c.transport.inbound = .fault cause :: inbound) :
      Polls c (.failed (.io cause)) c.skipArrival
  | closed (h : parse c.buffer = .incomplete)
      (harrival : c.transport.inbound.head?.all (· = .data [])) :
      Polls c (.failed .closed) c.skipArrival

theorem polls_poll (c : Connection) : Polls c c.poll.1 c.poll.2 := by
  unfold poll
  split
  · next h => exact .frame h
  · next h => exact .malformed h
  · next h =>
    unfold receive
    split
    · next harrival => exact .closed h (by simp [harrival])
    · next harrival => exact .closed h (by simp [harrival])
    · next harrival => exact .fault h harrival
    · next hchunk harrival => exact .received h harrival hchunk

theorem polls_of_poll {c c' : Connection} {p : Poll} (h : c.poll = (p, c')) : Polls c p c' := by
  have hpolls := polls_poll c
  rwa [h] at hpolls

theorem stream_skipArrival {c : Connection} {a : Arrival} {inbound : List Arrival}
    (h : c.transport.inbound = a :: inbound) (ha : a.bytes = []) :
    c.skipArrival.stream = c.stream := by
  simp [stream, skipArrival, h, ha]

/-- A look takes a frame off the front of the stream, or leaves the stream as it is. -/
theorem Polls.stream_eq {c c' : Connection} {p : Poll} (h : Polls c p c') :
    match p with
    | .frame v => parse c.stream = .complete v c'.stream
    | .received | .failed _ => c'.stream = c.stream := by
  cases h with
  | frame h => exact Resp.parse_append_of_complete _ h
  | malformed h => rfl
  | received h harrival hchunk => simp [stream, skipArrival, harrival, Arrival.bytes]
  | fault h harrival => exact stream_skipArrival harrival rfl
  | closed h harrival =>
    cases hinbound : c.transport.inbound with
    | nil => simp [stream, skipArrival, hinbound]
    | cons a inbound =>
      have ha : a = .data [] := by simpa [hinbound] using harrival
      exact stream_skipArrival hinbound (by rw [ha, Arrival.bytes])

theorem Polls.outgoing_eq {c c' : Connection} {p : Poll} (h : Polls c p c') :
    c'.outgoing = c.outgoing := by
  cases h <;> rfl

/-! ## Reading frames -/

theorem readFrame_of_frame {c c' : Connection} {v : Value} (h : c.poll = (.frame v, c')) :
    c.readFrame = (.ok v, c') := by
  rw [readFrame]
  split <;> simp_all

theorem readFrame_of_failed {c c' : Connection} {e : ClientError} (h : c.poll = (.failed e, c')) :
    c.readFrame = (.error e, c') := by
  rw [readFrame]
  split <;> simp_all

theorem readFrame_of_received {c c' : Connection} (h : c.poll = (.received, c')) :
    c.readFrame = c'.readFrame := by
  rw [readFrame]
  split <;> simp_all

/-- A frame that is read stands at the front of the stream. -/
theorem parse_stream_of_readFrame {c c' : Connection} {v : Value}
    (h : c.readFrame = (.ok v, c')) : parse c.stream = .complete v c'.stream := by
  fun_induction readFrame c with
  | case1 c w c'' hpoll =>
    cases h
    exact (polls_of_poll hpoll).stream_eq
  | case2 => cases h
  | case3 c c'' hpoll ih =>
    rw [← (polls_of_poll hpoll).stream_eq]
    exact ih h

/-- A failure takes no byte off the stream. -/
theorem stream_of_readFrame {c c' : Connection} {e : ClientError}
    (h : c.readFrame = (.error e, c')) : c'.stream = c.stream := by
  fun_induction readFrame c with
  | case1 => cases h
  | case2 c e' c'' hpoll =>
    cases h
    exact (polls_of_poll hpoll).stream_eq
  | case3 c c'' hpoll ih =>
    rw [← (polls_of_poll hpoll).stream_eq]
    exact ih h

theorem outgoing_readFrame (c : Connection) : c.readFrame.2.outgoing = c.outgoing := by
  fun_induction readFrame c with
  | case1 c v c' hpoll | case2 c e c' hpoll => exact (polls_of_poll hpoll).outgoing_eq
  | case3 c c' hpoll ih => rw [ih, (polls_of_poll hpoll).outgoing_eq]

/-! ## Writing -/

/-- Writing leaves alone what will be read. -/
theorem stream_send (c : Connection) (v : Value) : (c.send v).2.stream = c.stream := by
  have hinbound : ∀ bytes, (c.transport.write bytes).2.inbound = c.transport.inbound := by
    intro bytes
    unfold Transport.write
    split <;> rfl
  show c.buffer ++ (c.transport.write (Resp.encode c.version v)).2.inbound.flatMap _ = _
  rw [hinbound]
  rfl

/-! ## Reading replies -/

theorem readReply_of_push {c : Connection} {v : Value} (h : c.readFrame.1 = .ok v)
    (hpush : v.isPush) : c.readReply = c.readFrame.2.readReply := by
  rw [readReply]
  split
  · next heq => rw [heq]
  · next result c' hother heq =>
    rw [heq] at h
    cases v <;> simp [Value.isPush] at hpush
    exact absurd h (hother _)

theorem readReply_of_not_push {c : Connection} (h : ∀ v, c.readFrame.1 = .ok v → ¬ v.isPush) :
    c.readReply = c.readFrame := by
  rw [readReply]
  split
  · next heq => exact absurd rfl (h _ (by rw [heq]))
  · next heq => exact heq.symm

theorem outgoing_readReply (c : Connection) : c.readReply.2.outgoing = c.outgoing := by
  fun_induction readReply c with
  | case1 c items c' hread ih => rw [ih, ← outgoing_readFrame c, hread]
  | case2 c result c' hother hread => rw [← outgoing_readFrame c, hread]

/-! ## Steady transports -/

/-- Whether the peer closes only after all that will arrive. -/
def ClosesAtEnd (c : Connection) : Prop := ∀ a ∈ c.transport.inbound, a ≠ .data []

/-- The peer has then closed only when nothing more will ever arrive. -/
theorem ClosesAtEnd.inbound_eq_nil {c : Connection} (hc : c.ClosesAtEnd)
    (h : c.transport.inbound.head?.all (· = .data [])) : c.transport.inbound = [] := by
  cases hinbound : c.transport.inbound with
  | nil => rfl
  | cons a inbound =>
    have ha : a = .data [] := by simpa [hinbound] using h
    exact absurd ha (hc a (by simp [hinbound]))

/-- Whether all that will arrive are bytes, at least one at a time. -/
def Steady (c : Connection) : Prop :=
  ∀ a ∈ c.transport.inbound, ∃ chunk : Bytes, chunk ≠ [] ∧ a = .data chunk

theorem Steady.closesAtEnd {c : Connection} (hc : c.Steady) : c.ClosesAtEnd := by
  rintro a ha rfl
  obtain ⟨chunk, hchunk, heq⟩ := hc _ ha
  cases heq
  exact hchunk rfl

theorem Polls.steady {c c' : Connection} {p : Poll} (h : Polls c p c') (hc : c.Steady) :
    c'.Steady := by
  cases h with
  | frame | malformed => exact hc
  | received | fault | closed => exact fun a ha => hc a (List.mem_of_mem_drop ha)

/-- Over a steady transport a look fails only when nothing more will ever arrive. -/
theorem Polls.failed_steady {c c' : Connection} {e : ClientError} (h : Polls c (.failed e) c')
    (hc : c.Steady) : (∃ cause, parse c.stream = .invalid cause ∧ e = .protocol cause) ∨
      (parse c.stream = .incomplete ∧ e = .closed) := by
  cases h with
  | malformed h => exact .inl ⟨_, Resp.parse_append_of_invalid _ h, rfl⟩
  | fault h harrival =>
    obtain ⟨chunk, -, ha⟩ := hc _ (harrival ▸ List.mem_cons_self)
    cases ha
  | closed h harrival =>
    have hinbound := hc.closesAtEnd.inbound_eq_nil harrival
    exact .inr ⟨by simpa [stream, hinbound] using h, rfl⟩

/-- What the front of the stream holds is what is read over a steady transport. -/
theorem readFrame_of_steady {c : Connection} (hc : c.Steady) :
    c.readFrame.2.Steady ∧
    match parse c.stream with
    | .complete v rest => c.readFrame.1 = .ok v ∧ c.readFrame.2.stream = rest
    | .incomplete => c.readFrame.1 = .error .closed ∧ c.readFrame.2.stream = c.stream
    | .invalid e => c.readFrame.1 = .error (.protocol e) ∧ c.readFrame.2.stream = c.stream := by
  fun_induction readFrame c with
  | case1 c v c' hpoll =>
    have hpolls := polls_of_poll hpoll
    refine ⟨hpolls.steady hc, ?_⟩
    rw [hpolls.stream_eq]
    exact ⟨rfl, rfl⟩
  | case2 c e c' hpoll =>
    have hpolls := polls_of_poll hpoll
    refine ⟨hpolls.steady hc, ?_⟩
    obtain ⟨cause, hparse, rfl⟩ | ⟨hparse, rfl⟩ := hpolls.failed_steady hc
    · rw [hparse]
      exact ⟨rfl, hpolls.stream_eq⟩
    · rw [hparse]
      exact ⟨rfl, hpolls.stream_eq⟩
  | case3 c c' hpoll ih =>
    have hpolls := polls_of_poll hpoll
    rw [← hpolls.stream_eq]
    exact ih (hpolls.steady hc)

end Connection

/-! ## Frames taken off a stream -/

/-- The frames stand one after another at the front of the bytes, and then the rest. -/
inductive Takes : Bytes → List Value → Bytes → Prop where
  | nil (bytes : Bytes) : Takes bytes [] bytes
  | cons {bytes middle rest : Bytes} {v : Value} {vs : List Value}
      (hhead : parse bytes = .complete v middle) (htail : Takes middle vs rest) :
      Takes bytes (v :: vs) rest

theorem Takes.single {bytes rest : Bytes} {v : Value} (h : parse bytes = .complete v rest) :
    Takes bytes [v] rest :=
  .cons h (.nil rest)

theorem Takes.of_eq {bytes rest : Bytes} (h : rest = bytes) : Takes bytes [] rest :=
  h ▸ .nil bytes

theorem Takes.append {bytes middle rest : Bytes} {vs ws : List Value} (h : Takes bytes vs middle)
    (h' : Takes middle ws rest) : Takes bytes (vs ++ ws) rest := by
  induction h with
  | nil => exact h'
  | cons hhead _ ih => exact .cons hhead (ih h')

theorem Takes.length_le {bytes rest : Bytes} {vs : List Value} (h : Takes bytes vs rest) :
    rest.length + 3 * vs.length ≤ bytes.length := by
  induction h with
  | nil => simp
  | cons hhead _ ih =>
    have := Resp.length_of_parse hhead
    simp only [List.length_cons]
    omega

end StoreTrial
