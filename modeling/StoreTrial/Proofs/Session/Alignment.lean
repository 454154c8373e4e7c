import StoreTrial.Proofs.Resp.RoundTrip
import StoreTrial.Proofs.Session.Stream
import StoreTrial.Session.Client

/-!
# Each command gets its own reply

Requests and replies are matched by nothing but their order.  A command takes one reply off the
stream, and the pushed frames in front of it; whether it can make sense of the reply does not
matter to the commands after it.  So in a session of any length the replies stand beside the
commands one by one, and once they run out every further command finds the connection closed.

## Main results

* `Connection.readReply_of_delivers` — what one request reads.
* `Client.run_of_delivers` — what one command takes off the stream, whatever becomes of it.
* `Client.runAll_aligned` — the results of a whole session.
-/

namespace StoreTrial

open Resp (Value Version encode encodeItems)

/-! ## What a session is given -/

/-- Whether a transport takes this many more bytes. -/
def Transport.Admits (t : Transport) (n : Nat) : Prop := ∀ room, t.room = some room → n ≤ room

/-- A transport that takes the bytes and some more takes these after them. -/
theorem Transport.write_of_admits {t : Transport} {bytes : Bytes} {n : Nat}
    (h : t.Admits (bytes.length + n)) :
    t.write bytes = (.ok (), { t with written := t.written ++ bytes }) ∧
      { t with written := t.written ++ bytes : Transport }.Admits n := by
  unfold write
  cases hlimit : t.limit with
  | none => simp [room, hlimit, Admits]
  | some limit =>
    have hroom : t.room = some (limit - t.written.length) := by simp [room, hlimit]
    have hfits := h _ hroom
    rw [hroom]
    constructor
    · show (if bytes.length ≤ _ then _ else _, _) = _
      rw [if_pos (by omega), List.take_of_length_le (by omega)]
    · intro left hleft
      simp only [room, Option.map_some, Option.some.injEq, List.length_append] at hleft
      omega

/-- Bytes for which there is no room are cut off, and the write fails. -/
theorem Transport.write_of_not_admits {t : Transport} {bytes : Bytes}
    (h : ¬ t.Admits bytes.length) :
    t.write bytes = (.error Transport.full, { t with written := (t.write bytes).2.written }) := by
  obtain ⟨room, hroom, hless⟩ : ∃ room, t.room = some room ∧ room < bytes.length := by
    simpa [Transport.Admits] using h
  unfold Transport.write
  simp only [hroom, if_neg (Nat.not_le.2 hless)]

namespace Connection

theorem send_of_admits {c : Connection} {v : Value}
    (h : c.transport.Admits (encode c.version v).length) : (c.send v).1 = .ok () := by
  obtain ⟨hwrite, -⟩ := Transport.write_of_admits (n := 0) h
  exact congrArg Prod.fst hwrite

theorem admits_of_outgoing {c c' : Connection} {n : Nat} (h : c.outgoing = c'.outgoing)
    (hadmits : c.transport.Admits n) : c'.transport.Admits n := by
  simp only [outgoing, Prod.mk.injEq] at h
  simpa only [Transport.Admits, Transport.room, h.2.1, h.2.2] using hadmits

/--
Whether what a connection will read is the written form of these frames, in pieces of any size, and
each of them is a frame that is read back.
-/
structure Delivers (c : Connection) (frames : List Value) : Prop where
  steady : c.Steady
  stream_eq : c.stream = encodeItems .resp3 frames
  fits : ∀ v ∈ frames, v.Everywhere Value.Fits
  oneLine : ∀ v ∈ frames, v.Everywhere Value.OneLine

/-! ## One reply -/

/-- The first frame that answers a request, and the frames after it. -/
def nextReply : List Value → Option Value × List Value
  | [] => (none, [])
  | v :: vs => if v.isPush then nextReply vs else (some v, vs)

/-- The frames that answer requests. -/
def replies (frames : List Value) : List Value := frames.filter fun v => !v.isPush

theorem getElem?_replies_zero (frames : List Value) :
    (replies frames)[0]? = (nextReply frames).1 := by
  induction frames with
  | nil => rfl
  | cons v frames ih => cases hv : v.isPush <;> simp_all [replies, nextReply]

theorem getElem?_replies_succ (frames : List Value) (i : Nat) :
    (replies frames)[i + 1]? = (replies (nextReply frames).2)[i]? := by
  induction frames with
  | nil => rfl
  | cons v frames ih => cases hv : v.isPush <;> simp_all [replies, nextReply]

/-- The next reply is taken with the pushed frames in front of it. -/
theorem exists_taken_of_nextReply (frames : List Value) :
    ∃ taken, frames = taken ++ (nextReply frames).2 ∧
      ∀ n, (replies frames).take (n + 1) =
        replies taken ++ (replies (nextReply frames).2).take n := by
  induction frames with
  | nil => exact ⟨[], rfl, fun n => by simp [replies, nextReply]⟩
  | cons v frames ih =>
    cases hv : v.isPush with
    | false => exact ⟨[v], by simp [nextReply, hv], fun n => by simp [replies, nextReply, hv]⟩
    | true =>
      obtain ⟨taken, hframes, htake⟩ := ih
      refine ⟨v :: taken, ?_, fun n => ?_⟩
      · simpa [nextReply, hv] using hframes
      · simpa [replies, nextReply, hv] using htake n

section Delivery

variable {c : Connection} {frames : List Value}

theorem readFrame_of_delivers_cons {v : Value} (h : c.Delivers (v :: frames)) :
    c.readFrame.1 = .ok v ∧ c.readFrame.2.Delivers frames := by
  have hparse : Resp.parse c.stream = .complete v (encodeItems .resp3 frames) := by
    rw [h.stream_eq]
    exact Resp.parse_encode (h.fits v (by simp)) (h.oneLine v (by simp)) _
  obtain ⟨hsteady, hread⟩ := readFrame_of_steady h.steady
  rw [hparse] at hread
  exact ⟨hread.1, hsteady, hread.2, fun w hw => h.fits w (by simp [hw]),
    fun w hw => h.oneLine w (by simp [hw])⟩

theorem readFrame_of_delivers_nil (h : c.Delivers []) :
    c.readFrame.1 = .error .closed ∧ c.readFrame.2.Delivers [] := by
  have hstream : c.stream = [] := h.stream_eq
  obtain ⟨hsteady, hread⟩ := readFrame_of_steady h.steady
  rw [hstream] at hread
  exact ⟨hread.1, hsteady, hread.2, h.fits, h.oneLine⟩

/-- What a request reads: the first frame that is not pushed, or that the connection is closed. -/
theorem readReply_of_delivers (h : c.Delivers frames) :
    c.readReply.1 = (nextReply frames).1.elim (.error .closed) .ok ∧
      c.readReply.2.Delivers (nextReply frames).2 := by
  induction frames generalizing c with
  | nil =>
    obtain ⟨hread, hnil⟩ := readFrame_of_delivers_nil h
    rw [readReply_of_not_push (by simp [hread])]
    exact ⟨hread, hnil⟩
  | cons v frames ih =>
    obtain ⟨hread, htail⟩ := readFrame_of_delivers_cons h
    by_cases hpush : v.isPush
    · rw [nextReply, if_pos hpush, readReply_of_push hread hpush]
      exact ih htail
    · rw [nextReply, if_neg hpush, readReply_of_not_push (by simp [hread, hpush])]
      exact ⟨hread, htail⟩

/-- Writing a request leaves alone what will be read. -/
theorem request_of_delivers (h : c.Delivers frames) {v : Value} {n : Nat}
    (hroom : c.transport.Admits ((encode c.version v).length + n)) :
    (c.request v).1 = (nextReply frames).1.elim (.error .closed) .ok ∧
      (c.request v).2.Delivers (nextReply frames).2 ∧
      (c.request v).2.transport.Admits n ∧ (c.request v).2.version = c.version := by
  obtain ⟨hwrite, hadmits⟩ := Transport.write_of_admits hroom
  let sent : Connection :=
    { c with
      transport := { c.transport with written := c.transport.written ++ encode c.version v } }
  have hrequest : c.request v = sent.readReply := by
    simp only [request, send, hwrite, sent]
  have hsent : sent.Delivers frames := ⟨h.steady, h.stream_eq, h.fits, h.oneLine⟩
  obtain ⟨hresult, hleft⟩ := readReply_of_delivers hsent
  have hout := outgoing_readReply sent
  rw [hrequest]
  refine ⟨hresult, hleft, admits_of_outgoing hout.symm hadmits, ?_⟩
  exact congrArg Prod.fst hout

end Delivery

end Connection

/-! ## One command -/

/--
What a command must come to, given the reply that is its own, if there is one: an error answer is
passed on unless it means something to the command, and any other answer is decoded.
-/
def Command.settle (c : Command) : Option Value → Except ClientError c.Output
  | none => .error .closed
  | some (.error message) =>
    if c.decodesErrors then c.decode (.error message) else .error (.server message)
  | some v => c.decode v

theorem Command.settle_some (c : Command) (v : Value) : c.settle (some v) = c.result v := by
  unfold settle result
  cases v <;> cases c.decodesErrors <;> rfl

namespace Client

open Connection (nextReply replies getElem?_replies_zero getElem?_replies_succ
  exists_taken_of_nextReply)

/-- What one command takes off the stream does not depend on what becomes of it. -/
theorem run_of_delivers {client : Client} {frames : List Value}
    (h : client.connection.Delivers frames) {c : Command} {n : Nat}
    (hroom : client.connection.transport.Admits
      ((encode client.connection.version c.toFrame).length + n)) :
    (client.run c).1 = c.settle (nextReply frames).1 ∧
      (client.run c).2.connection.Delivers (nextReply frames).2 ∧
      (client.run c).2.connection.transport.Admits n ∧
      (client.run c).2.connection.version = client.connection.version := by
  obtain ⟨hresult, hleft, hadmits, hversion⟩ := Connection.request_of_delivers h hroom
  unfold run
  split
  · next e connection hrequest =>
    rw [hrequest] at hresult hleft hadmits hversion
    cases hnext : (nextReply frames).1 with
    | none =>
      rw [hnext] at hresult
      cases hresult
      exact ⟨rfl, hleft, hadmits, hversion⟩
    | some v => simp [hnext] at hresult
  · next reply connection hrequest =>
    rw [hrequest] at hresult hleft hadmits hversion
    cases hnext : (nextReply frames).1 with
    | none => simp [hnext] at hresult
    | some v =>
      rw [hnext] at hresult
      cases hresult
      exact ⟨(c.settle_some reply).symm, hleft, hadmits, hversion⟩

/-! ## A whole session -/

/-- Runs commands one after another. -/
def runAll (client : Client) :
    List Command → List ((c : Command) × Except ClientError c.Output) × Client
  | [] => ([], client)
  | c :: cs =>
    let (result, client) := client.run c
    let (results, client) := client.runAll cs
    (⟨c, result⟩ :: results, client)

/-- The bytes that writing all requests takes. -/
def requestBytes (version : Version) : List Command → Nat
  | [] => 0
  | c :: cs => (encode version c.toFrame).length + requestBytes version cs

/--
**Each command gets its own reply.**  However the stream is cut, whatever is pushed in between and
whatever earlier commands made of their replies, the result of the `i`-th command is decoded from
the `i`-th frame that is not pushed, and is that the connection is closed when there is none.  The
session has then taken exactly these replies off the stream.
-/
theorem runAll_aligned {client : Client} {frames : List Value} {cs : List Command}
    (h : client.connection.Delivers frames)
    (hroom : client.connection.transport.Admits (requestBytes client.connection.version cs)) :
    (client.runAll cs).1 = cs.mapIdx (fun i c => ⟨c, c.settle (replies frames)[i]?⟩) ∧
    ∃ taken left, frames = taken ++ left ∧ (client.runAll cs).2.connection.Delivers left ∧
      replies taken = (replies frames).take cs.length := by
  induction cs generalizing client frames with
  | nil => exact ⟨rfl, [], frames, rfl, h, by simp [replies]⟩
  | cons c cs ih =>
    rw [requestBytes] at hroom
    obtain ⟨hresult, hleft, hadmits, hversion⟩ := run_of_delivers h hroom
    rw [← hversion] at hadmits
    obtain ⟨hresults, taken, left, hframes, hdelivers, htaken⟩ := ih hleft hadmits
    obtain ⟨first, hfirst, htake⟩ := exists_taken_of_nextReply frames
    constructor
    · show ⟨c, (client.run c).1⟩ :: ((client.run c).2.runAll cs).1 = _
      rw [hresult, hresults, List.mapIdx_cons, getElem?_replies_zero]
      simp only [getElem?_replies_succ]
    · refine ⟨first ++ taken, left, ?_, hdelivers, ?_⟩
      · rw [List.append_assoc, ← hframes, ← hfirst]
      · rw [List.length_cons, htake, ← htaken]
        simp [replies]

/-- An error answer, a pushed frame and a wrong answer, cut inside lines and ends of lines. -/
theorem runAll_three_commands :
    ((overTransport ⟨[.data [45, 78], .data [79, 13], .data [10, 62, 49, 13, 10, 95],
      .data [13, 10, 43, 79, 75, 13, 10]], [], some 100⟩).runAll
        [.get [107], .ping, .get [107]]).1 =
      [⟨.get [107], .error (.server "NO")⟩,
        ⟨.ping, .error (.unexpectedReply "PING" (.simple "OK"))⟩,
        ⟨.get [107], .error .closed⟩] := by
  have hdelivers : (overTransport ⟨[.data [45, 78], .data [79, 13],
      .data [10, 62, 49, 13, 10, 95], .data [13, 10, 43, 79, 75, 13, 10]], [],
      some 100⟩).connection.Delivers [.error "NO", .push [.null], .simple "OK"] := by
    refine ⟨?_, by decide +kernel, by decide, by decide⟩
    simp [overTransport, Connection.Steady]
  rw [(runAll_aligned hdelivers ?_).1]
  · rfl
  · intro room hroom
    obtain rfl : room = 100 := by simpa [overTransport, Transport.room] using hroom.symm
    decide +kernel

end Client

end StoreTrial
