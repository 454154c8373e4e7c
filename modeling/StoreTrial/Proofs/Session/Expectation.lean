import StoreTrial.Proofs.Session.Reading

/-!
# What a connection has to expect

Reads may fail, the peer may close or send what is no frame.  Until the first of these, a connection
has certain bytes to receive, and they hold certain frames; both are known from what will arrive,
before anything is read.  Whoever reads until a frame settles something comes to what the first such
frame settles, or to that failure if there is none, and takes the frames up to there.

## Main results

* `Connection.Polls.prospect_eq` — a look takes the next frame, or fails as was to be expected.
* `Connection.readFrame_prospect` — so does reading.
* `Connection.settled_of_none`, `Connection.settled_of_some`, `Connection.settled_of_error` —
  reading until a frame settles something, frame by frame.
-/

namespace StoreTrial

open Resp (Value parse drain)

/-! ## Until reading fails -/

/-- Whether an arrival brings bytes. -/
def Arrival.brings : Arrival → Bool
  | .data chunk => !chunk.isEmpty
  | .fault _ => false

namespace Connection

/-- All bytes that will be received until a read fails or the peer closes. -/
def heard (c : Connection) : Bytes :=
  c.buffer ++ (c.transport.inbound.takeWhile Arrival.brings).flatMap Arrival.bytes

/-- The failure of a read that has received all these bytes. -/
def obstacle (c : Connection) : ClientError :=
  match c.transport.inbound.find? (!·.brings) with
  | some (.fault cause) => .io cause
  | _ => .closed

/-- The frames that can be read before reading first fails. -/
def prospect (c : Connection) : List Value := (drain c.heard).frames

/-- The failure of the read behind these frames. -/
def failure (c : Connection) : ClientError :=
  match (drain c.heard).stop with
  | .failed e => .protocol e
  | .empty | .incomplete => c.obstacle

theorem ofConnection_failure (c : Connection) : c.failure.OfConnection := by
  unfold failure obstacle
  split
  · trivial
  all_goals split <;> trivial

/-- Frames that stand in front of an unfinished one are to be expected. -/
theorem prospect_of_takes {c : Connection} {vs : List Value} {rest : Bytes}
    (h : Takes c.heard vs rest) (hrest : parse rest = .incomplete) :
    c.prospect = vs ∧ c.failure = c.obstacle := by
  unfold prospect failure
  rw [h.drain_eq, Resp.drain_of_incomplete hrest]
  exact ⟨List.append_nil vs, by cases rest.isEmpty <;> rfl⟩

/-- Where the next arrival brings nothing, and no frame is complete, none is to be expected. -/
theorem prospect_of_blocked {c : Connection} (h : parse c.buffer = .incomplete)
    (hinbound : c.transport.inbound.head?.all (!·.brings)) :
    c.prospect = [] ∧ c.failure = c.obstacle := by
  have hheard : c.heard = c.buffer := by
    cases harrivals : c.transport.inbound with
    | nil => simp [heard, harrivals]
    | cons a inbound => simp_all [heard]
  exact prospect_of_takes (.of_eq hheard.symm) h

/-- A look takes the next frame that is to be expected, or fails as is. -/
theorem Polls.prospect_eq {c c' : Connection} {p : Poll} (h : Polls c p c') :
    match p with
    | .frame v => c.prospect = v :: c'.prospect ∧ c.failure = c'.failure
    | .received => c.prospect = c'.prospect ∧ c.failure = c'.failure
    | .failed e => c.prospect = [] ∧ c.failure = e := by
  cases h with
  | @frame v rest h =>
    have hdrain := Resp.drain_of_complete (Resp.parse_append_of_complete
      ((c.transport.inbound.takeWhile Arrival.brings).flatMap Arrival.bytes) h)
    constructor
    · exact congrArg Resp.Drained.frames hdrain
    · unfold failure
      exact congrArg (fun d : Resp.Drained => match d.stop with
        | .failed e => ClientError.protocol e
        | .empty | .incomplete => c.obstacle) hdrain
  | malformed h =>
    have hdrain := Resp.drain_of_invalid (Resp.parse_append_of_invalid
      ((c.transport.inbound.takeWhile Arrival.brings).flatMap Arrival.bytes) h)
    unfold prospect failure heard
    rw [hdrain]
    exact ⟨rfl, rfl⟩
  | @received chunk inbound h harrival hchunk =>
    have hbrings : (Arrival.data chunk).brings = true := by simpa [Arrival.brings] using hchunk
    have hheard : c.heard =
        ({ c.skipArrival with buffer := c.buffer ++ chunk } : Connection).heard := by
      simp [heard, skipArrival, harrival, hbrings, Arrival.bytes]
    have hobstacle : c.obstacle =
        ({ c.skipArrival with buffer := c.buffer ++ chunk } : Connection).obstacle := by
      simp [obstacle, skipArrival, harrival, hbrings]
    unfold prospect failure
    rw [← hheard, ← hobstacle]
    exact ⟨rfl, rfl⟩
  | @fault cause inbound h harrival =>
    have hblocked := prospect_of_blocked h (by simp [harrival, Arrival.brings])
    refine ⟨hblocked.1, hblocked.2.trans ?_⟩
    simp [obstacle, harrival, Arrival.brings]
  | closed h harrival =>
    cases hinbound : c.transport.inbound with
    | nil =>
      have hblocked := prospect_of_blocked h (by simp [hinbound])
      refine ⟨hblocked.1, hblocked.2.trans ?_⟩
      simp [obstacle, hinbound]
    | cons a inbound =>
      obtain rfl : a = .data [] := by simpa [hinbound] using harrival
      have hblocked := prospect_of_blocked h (by simp [hinbound, Arrival.brings])
      refine ⟨hblocked.1, hblocked.2.trans ?_⟩
      simp [obstacle, hinbound, Arrival.brings]

/-- The next frame that is to be expected is read, and without one the read fails as is. -/
theorem readFrame_prospect (c : Connection) :
    match c.prospect with
    | v :: vs => c.readFrame.1 = .ok v ∧ c.readFrame.2.prospect = vs ∧
        c.readFrame.2.failure = c.failure
    | [] => c.readFrame.1 = .error c.failure := by
  fun_induction readFrame c with
  | case1 c v c' hpoll =>
    obtain ⟨hprospect, hfailure⟩ := (polls_of_poll hpoll).prospect_eq
    rw [hprospect]
    exact ⟨rfl, rfl, hfailure.symm⟩
  | case2 c e c' hpoll =>
    obtain ⟨hprospect, hfailure⟩ := (polls_of_poll hpoll).prospect_eq
    rw [hprospect, hfailure]
  | case3 c c' hpoll ih =>
    obtain ⟨hprospect, hfailure⟩ := (polls_of_poll hpoll).prospect_eq
    rw [hprospect, hfailure]
    exact ih

theorem prospect_of_readFrame_ok {c c' : Connection} {v : Value} (h : c.readFrame = (.ok v, c')) :
    c.prospect = v :: c'.prospect ∧ c.failure = c'.failure := by
  have hread := c.readFrame_prospect
  rw [h] at hread
  cases hprospect : c.prospect with
  | nil =>
    rw [hprospect] at hread
    cases hread
  | cons w vs =>
    rw [hprospect] at hread
    obtain ⟨hframe, hrest, hfailure⟩ := hread
    cases hframe
    exact ⟨by rw [hrest], hfailure.symm⟩

theorem prospect_of_readFrame_error {c c' : Connection} {e : ClientError}
    (h : c.readFrame = (.error e, c')) : c.prospect = [] ∧ c.failure = e := by
  have hread := c.readFrame_prospect
  rw [h] at hread
  cases hprospect : c.prospect with
  | nil =>
    rw [hprospect] at hread
    cases hread
    exact ⟨rfl, rfl⟩
  | cons w vs =>
    rw [hprospect] at hread
    cases hread.1

/-- A request that is written changes nothing in what is to be expected. -/
theorem prospect_send (c : Connection) (v : Value) :
    (c.send v).2.prospect = c.prospect ∧ (c.send v).2.failure = c.failure := by
  have hinbound : (c.send v).2.transport.inbound = c.transport.inbound := by
    unfold send Transport.write
    dsimp only
    split <;> rfl
  have hheard : (c.send v).2.heard = c.heard := by
    unfold heard
    rw [hinbound]
    rfl
  have hobstacle : (c.send v).2.obstacle = c.obstacle := by
    unfold obstacle
    rw [hinbound]
  unfold prospect failure
  rw [hheard, hobstacle]
  exact ⟨rfl, rfl⟩

/-! ## Until a frame settles something -/

section Settled

variable {α : Type} {rule : Value → Option (Except ClientError α)}

/-- What the first of the expected frames settles that settles anything; without one, reading
fails. -/
def settled (c : Connection) (rule : Value → Option (Except ClientError α)) :
    Except ClientError α :=
  (c.prospect.findSome? rule).getD (.error c.failure)

/-- The expected frames up to the first that settles anything. -/
def examined (c : Connection) (rule : Value → Option (Except ClientError α)) : List Value :=
  c.prospect.take (c.prospect.findIdx (fun v => (rule v).isSome) + 1)

theorem settled_of_error {c c' : Connection} {e : ClientError} (h : c.readFrame = (.error e, c'))
    (rule : Value → Option (Except ClientError α)) :
    c.settled rule = .error e ∧ c.examined rule = [] := by
  obtain ⟨hprospect, hfailure⟩ := prospect_of_readFrame_error h
  unfold settled examined
  rw [hprospect, hfailure]
  exact ⟨rfl, rfl⟩

theorem settled_of_some {c c' : Connection} {v : Value} {result : Except ClientError α}
    (h : c.readFrame = (.ok v, c')) (hv : rule v = some result) :
    c.settled rule = result ∧ c.examined rule = [v] := by
  obtain ⟨hprospect, -⟩ := prospect_of_readFrame_ok h
  unfold settled examined
  rw [hprospect]
  simp [List.findIdx_cons, hv]

theorem settled_of_none {c c' : Connection} {v : Value} (h : c.readFrame = (.ok v, c'))
    (hv : rule v = none) :
    c.settled rule = c'.settled rule ∧ c.examined rule = v :: c'.examined rule := by
  obtain ⟨hprospect, hfailure⟩ := prospect_of_readFrame_ok h
  unfold settled examined
  rw [hprospect, hfailure]
  simp [List.findIdx_cons, hv]

theorem settled_send (c : Connection) (v : Value) (rule : Value → Option (Except ClientError α)) :
    (c.send v).2.settled rule = c.settled rule ∧ (c.send v).2.examined rule = c.examined rule := by
  obtain ⟨hprospect, hfailure⟩ := c.prospect_send v
  unfold settled examined
  rw [hprospect, hfailure]
  exact ⟨rfl, rfl⟩

end Settled

end Connection

end StoreTrial
