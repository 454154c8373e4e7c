import StoreTrial.Proofs.Session.Stream

/-!
# Reading over an unreliable transport

Bytes arrive in pieces, and between any two of them a read may fail.  Reads that follow one another
return the frames of the stream and the failures of the transport, each once and in order, until
the stream holds no further frame; from then on every read returns the same verdict.  An arrival is
waited for only when all that came before it has been returned, so a failure costs one result and
nothing else.

## Main results

* `Takes.drain_eq` — frames that were taken are those that draining finds first.
* `exists_reads_readFrame` — everything that one read can do.
* `exists_yields_readFrames` — reads return what the arrivals account for that they took.
* `exists_returned_before` — nothing is waited for before all that is complete has been returned.
* `exists_concludes` — reading comes to a verdict, and stays with it.
* `readFrames_over_faults` — all of this together.
-/

namespace StoreTrial

open Resp (Value Stop drain parse)

/-! ## Draining after frames were taken -/

theorem Takes.extend {bytes rest : Bytes} {vs : List Value} (h : Takes bytes vs rest)
    (more : Bytes) : Takes (bytes ++ more) vs (rest ++ more) := by
  induction h with
  | nil bytes => exact .nil (bytes ++ more)
  | cons hhead _ ih => exact .cons (Resp.parse_append_of_complete more hhead) ih

/-- Frames that are read back stand one after another in what is written of them. -/
theorem takes_flatMap {version : Resp.Version} {vs : List Value}
    (h : ∀ v ∈ vs, parse (Resp.encode version v) = .complete v []) :
    Takes (vs.flatMap (Resp.encode version)) vs [] := by
  induction vs with
  | nil => exact .nil []
  | cons v vs ih =>
    obtain ⟨hv, hvs⟩ := List.forall_mem_cons.1 h
    exact .cons (Resp.parse_append_of_complete _ hv) (ih hvs)

/-- Frames that were taken are those that draining finds first. -/
theorem Takes.drain_eq {bytes rest : Bytes} {vs : List Value} (h : Takes bytes vs rest) :
    drain bytes = { drain rest with frames := vs ++ (drain rest).frames } := by
  induction h with
  | nil => rfl
  | cons hhead _ ih =>
    rw [Resp.drain_of_complete hhead, ih]
    rfl

/-! ## Results -/

/-- The failure that an arrival is, if it is one. -/
def Arrival.fault? : Arrival → Option String
  | .data _ => none
  | .fault cause => some cause

/-- The failure of the transport that a read returned, if it did. -/
def faultOf? : Except ClientError Value → Option String
  | .error (.io cause) => some cause
  | _ => none

/-- The frames among results, in their order. -/
def framesOf (results : List (Except ClientError Value)) : List Value :=
  results.filterMap Except.toOption

/-- The failures of the transport among results, in their order. -/
def faultsOf (results : List (Except ClientError Value)) : List String :=
  results.filterMap faultOf?

/-- A frame or a failure of the transport: after either, reading goes on. -/
inductive Passing : Except ClientError Value → Prop where
  | frame (v : Value) : Passing (.ok v)
  | fault (cause : String) : Passing (.error (.io cause))

/-- What reads return once no further frame can be taken. -/
def Resp.Stop.verdict : Stop → ClientError
  | .empty | .incomplete => .closed
  | .failed e => .protocol e

theorem Resp.Stop.verdict_eq_closed_iff {stop : Stop} :
    stop.verdict = .closed ↔ ∀ e, stop ≠ .failed e := by
  cases stop <;> simp [verdict]

theorem verdict_of_incomplete {buffer : Bytes} (h : parse buffer = .incomplete) :
    (drain buffer).stop.verdict = .closed := by
  rw [Resp.drain_of_incomplete h]
  dsimp only
  split <;> rfl

theorem framesOf_append (results results' : List (Except ClientError Value)) :
    framesOf (results ++ results') = framesOf results ++ framesOf results' :=
  List.filterMap_append

theorem faultsOf_append (results results' : List (Except ClientError Value)) :
    faultsOf (results ++ results') = faultsOf results ++ faultsOf results' :=
  List.filterMap_append

theorem framesOf_replicate_error (n : Nat) (e : ClientError) :
    framesOf (List.replicate n (.error e)) = [] := by
  induction n with
  | zero => rfl
  | succ n ih => exact ih

namespace Connection

/-- What so many reads return one after another, whatever they return, and what is left. -/
def readFrames (c : Connection) : Nat → List (Except ClientError Value) × Connection
  | 0 => ([], c)
  | n + 1 =>
    let (result, c') := c.readFrame
    let (results, c'') := c'.readFrames n
    (result :: results, c'')

theorem readFrames_succ {c c' : Connection} {result : Except ClientError Value}
    (h : c.readFrame = (result, c')) (n : Nat) :
    c.readFrames (n + 1) = (result :: (c'.readFrames n).1, (c'.readFrames n).2) := by
  rw [readFrames, h]

/-! ## Where reading stops -/

/-- A connection that gives no frame any more, and why. -/
inductive Stuck (c : Connection) : ClientError → Prop where
  | malformed {e : Resp.Error} (h : parse c.buffer = .invalid e) : Stuck c (.protocol e)
  | closed (h : parse c.buffer = .incomplete) (hinbound : c.transport.inbound = []) :
      Stuck c .closed

theorem Stuck.readFrame_eq {c : Connection} {e : ClientError} (h : c.Stuck e) :
    c.readFrame = (.error e, c) := by
  apply readFrame_of_failed
  cases h with
  | malformed h => simp only [poll, h]
  | closed h hinbound =>
    obtain ⟨⟨inbound, written, limit⟩, buffer, version⟩ := c
    subst hinbound
    simp only [poll, h, receive, skipArrival, List.drop_nil]

theorem Stuck.readFrames_eq {c : Connection} {e : ClientError} (h : c.Stuck e) (n : Nat) :
    c.readFrames n = (List.replicate n (.error e), c) := by
  induction n with
  | zero => rfl
  | succ n ih =>
    rw [readFrames_succ h.readFrame_eq, ih]
    rfl

/-- Draining all that will arrive finds no frame either, and stops for the same reason. -/
theorem Stuck.drain_stream {c : Connection} {e : ClientError} (h : c.Stuck e) :
    (drain c.stream).frames = [] ∧ (drain c.stream).stop.verdict = e ∧
      ((∀ cause, (drain c.stream).stop ≠ .failed cause) →
        c.transport.inbound = [] ∧ c.buffer = (drain c.stream).left) := by
  cases h with
  | malformed h =>
    rw [stream, Resp.drain_of_invalid (Resp.parse_append_of_invalid _ h)]
    exact ⟨rfl, rfl, fun hsound => absurd rfl (hsound _)⟩
  | closed h hinbound =>
    have hstream : c.stream = c.buffer := by simp [stream, hinbound]
    have hdrain := Resp.drain_of_incomplete h
    rw [hstream]
    exact ⟨by rw [hdrain], verdict_of_incomplete h, fun _ => ⟨hinbound, by rw [hdrain]⟩⟩

section Reading

variable {c c' c'' last : Connection} {taken taken' received before after : List Arrival}
  {result : Except ClientError Value} {results results' outcomes : List (Except ClientError Value)}

/-! ## One read -/

/--
Reads from `c` to `c'` that took these arrivals off the transport returned what the arrivals
account for: the frames that stand at the front of the bytes, and one failure for each that fell.
-/
structure Yields (c : Connection) (taken : List Arrival)
    (results : List (Except ClientError Value)) (c' : Connection) : Prop where
  script : c.transport.inbound = taken ++ c'.transport.inbound
  frames : Takes (c.buffer ++ taken.flatMap Arrival.bytes) (framesOf results) c'.buffer
  faults : faultsOf results = taken.filterMap Arrival.fault?

/-- Everything that one read can do. -/
structure Reads (c : Connection) (taken : List Arrival) (result : Except ClientError Value)
    (c' : Connection) : Prop extends Yields c taken [result] c' where
  /-- Each arrival is taken while no frame is complete and no read has failed. -/
  waited : ∀ before a after, taken = before ++ a :: after →
    parse (c.buffer ++ before.flatMap Arrival.bytes) = .incomplete ∧
      before.filterMap Arrival.fault? = []
  outcome : Passing result ∨ ∃ e, result = .error e ∧ c'.Stuck e

theorem Reads.of_none (h : Yields c [] [result] c')
    (houtcome : Passing result ∨ ∃ e, result = .error e ∧ c'.Stuck e) : Reads c [] result c' :=
  { h with
    waited := fun before a after h => absurd h (by simp)
    outcome := houtcome }

/-- A chunk that is received before a read goes on. -/
theorem Reads.cons {chunk : Bytes} {inbound : List Arrival} (h : parse c.buffer = .incomplete)
    (harrival : c.transport.inbound = .data chunk :: inbound)
    (hreads : Reads { c.skipArrival with buffer := c.buffer ++ chunk } taken result c') :
    Reads c (.data chunk :: taken) result c' := by
  have hscript : inbound = taken ++ c'.transport.inbound := by
    simpa [skipArrival, harrival] using hreads.script
  refine { script := ?_, frames := ?_, faults := hreads.faults, waited := ?_,
           outcome := hreads.outcome }
  · rw [harrival, hscript]
    rfl
  · simpa [Arrival.bytes] using hreads.frames
  · intro before a after htaken
    cases before with
    | nil => exact ⟨by simpa using h, rfl⟩
    | cons b before =>
      rw [List.cons_append] at htaken
      obtain ⟨rfl, hrest⟩ := List.cons.inj htaken
      obtain ⟨hparse, hfaults⟩ := hreads.waited before a after hrest
      exact ⟨by simpa [Arrival.bytes] using hparse, by simpa [Arrival.fault?] using hfaults⟩

theorem Reads.of_fault {cause : String} {inbound : List Arrival} (h : parse c.buffer = .incomplete)
    (harrival : c.transport.inbound = .fault cause :: inbound) :
    Reads c [.fault cause] (.error (.io cause)) c.skipArrival := by
  refine { script := ?_, frames := ?_, faults := rfl, waited := ?_,
           outcome := .inl (.fault cause) }
  · simp [skipArrival, harrival]
  · exact .of_eq (by simp [skipArrival, Arrival.bytes])
  · intro before a after htaken
    cases before with
    | nil => exact ⟨by simpa using h, rfl⟩
    | cons b before => simp at htaken

/-- **Everything that one read can do.** -/
theorem exists_reads_readFrame (hc : c.ClosesAtEnd) :
    ∃ taken, Reads c taken c.readFrame.1 c.readFrame.2 := by
  fun_induction readFrame c with
  | case1 c v c' hpoll =>
    cases polls_of_poll hpoll with
    | frame h =>
      exact ⟨[], .of_none ⟨rfl, .single (by simpa using h), rfl⟩ (.inl (.frame v))⟩
  | case2 c e c' hpoll =>
    cases polls_of_poll hpoll with
    | malformed h =>
      exact ⟨[], .of_none ⟨rfl, .of_eq (by simp), rfl⟩ (.inr ⟨_, rfl, .malformed h⟩)⟩
    | fault h harrival => exact ⟨[.fault _], .of_fault h harrival⟩
    | closed h harrival =>
      have hinbound := hc.inbound_eq_nil harrival
      have hleft : c.skipArrival.transport.inbound = [] := by simp [skipArrival, hinbound]
      exact ⟨[], .of_none ⟨by rw [hinbound, hleft]; rfl, .of_eq (by simp [skipArrival]), rfl⟩
        (.inr ⟨_, rfl, .closed h hleft⟩)⟩
  | case3 c c' hpoll ih =>
    cases polls_of_poll hpoll with
    | received h harrival hchunk =>
      obtain ⟨taken, hreads⟩ := ih fun a ha => hc a (List.mem_of_mem_drop ha)
      exact ⟨_, .cons h harrival hreads⟩

/-! ## Reads that follow one another -/

theorem Yields.trans (h : Yields c taken results c') (h' : Yields c' taken' results' c'') :
    Yields c (taken ++ taken') (results ++ results') c'' := by
  refine ⟨?_, ?_, ?_⟩
  · rw [h.script, h'.script, List.append_assoc]
  · rw [List.flatMap_append, ← List.append_assoc, framesOf_append]
    exact (h.frames.extend _).append h'.frames
  · rw [faultsOf_append, List.filterMap_append, h.faults, h'.faults]

theorem Yields.closesAtEnd (h : Yields c taken results c') (hc : c.ClosesAtEnd) :
    c'.ClosesAtEnd := by
  intro a ha
  apply hc
  rw [h.script]
  exact List.mem_append_right taken ha

/-- Reads return what the arrivals account for that they took. -/
theorem exists_yields_readFrames (hc : c.ClosesAtEnd) (n : Nat) :
    ∃ taken, Yields c taken (c.readFrames n).1 (c.readFrames n).2 := by
  induction n generalizing c with
  | zero => exact ⟨[], rfl, .of_eq (by simp [readFrames]), rfl⟩
  | succ n ih =>
    obtain ⟨taken, hreads⟩ := exists_reads_readFrame hc
    obtain ⟨taken', hmore⟩ := ih (hreads.closesAtEnd hc)
    exact ⟨taken ++ taken', hreads.toYields.trans hmore⟩

/-- What was returned stands at the front of the whole stream. -/
theorem Yields.takes_stream (h : Yields c taken results c') :
    Takes c.stream (framesOf results) c'.stream := by
  have htakes := h.frames.extend (c'.transport.inbound.flatMap Arrival.bytes)
  rwa [List.append_assoc, ← List.flatMap_append, ← h.script] at htakes

/-! ## Nothing is waited for too early -/

theorem before_or_within {α : Type} {xs ys before after : List α} {a : α}
    (h : xs ++ ys = before ++ a :: after) :
    (∃ more, before = xs ++ more ∧ ys = more ++ a :: after) ∨ ∃ more, xs = before ++ a :: more := by
  obtain ⟨more, hbefore, hys⟩ | ⟨more, hxs, hafter⟩ := List.append_eq_append_iff.1 h
  · exact .inl ⟨more, hbefore, hys⟩
  · obtain ⟨rfl, hys⟩ | ⟨more, rfl, -⟩ := List.cons_eq_append_iff.1 hafter
    · exact .inl ⟨[], by simpa using hxs.symm, hys⟩
    · exact .inr ⟨more, hxs⟩

/-- Whether the results are all that can be had of what was received so far. -/
structure Returned (c : Connection) (received : List Arrival)
    (results : List (Except ClientError Value)) : Prop where
  frames : framesOf results = (drain (c.buffer ++ received.flatMap Arrival.bytes)).frames
  faults : faultsOf results = received.filterMap Arrival.fault?
  /-- What is left is the start of a frame. -/
  sound : ∀ e, (drain (c.buffer ++ received.flatMap Arrival.bytes)).stop ≠ .failed e

theorem Returned.of_incomplete
    (h : parse (c.buffer ++ received.flatMap Arrival.bytes) = .incomplete)
    (hfaults : received.filterMap Arrival.fault? = []) : Returned c received [] := by
  refine ⟨?_, hfaults.symm, Stop.verdict_eq_closed_iff.1 (verdict_of_incomplete h)⟩
  rw [Resp.drain_of_incomplete h]
  rfl

theorem Yields.returned (h : Yields c taken results c') (h' : Returned c' received results') :
    Returned c (taken ++ received) (results ++ results') := by
  have hdrain := (h.frames.extend (received.flatMap Arrival.bytes)).drain_eq
  rw [List.append_assoc, ← List.flatMap_append] at hdrain
  refine ⟨?_, ?_, ?_⟩
  · rw [hdrain, framesOf_append, h'.frames]
  · rw [faultsOf_append, List.filterMap_append, h.faults, h'.faults]
  · rw [hdrain]
    exact h'.sound

/-- When an arrival is taken, fewer reads had returned all that could be had before it. -/
theorem exists_returned_before (hc : c.ClosesAtEnd) {n : Nat} {a : Arrival}
    (hscript : c.transport.inbound = before ++ a :: after)
    (htaken : (c.readFrames n).2.transport.inbound <:+ after) :
    ∃ m < n, a :: after <:+ (c.readFrames m).2.transport.inbound ∧
      Returned c before (c.readFrames m).1 := by
  induction n generalizing c before with
  | zero =>
    have hlength := htaken.length_le
    simp only [readFrames, hscript, List.length_append, List.length_cons] at hlength
    omega
  | succ n ih =>
    obtain ⟨taken, hreads⟩ := exists_reads_readFrame hc
    have hsplit : taken ++ c.readFrame.2.transport.inbound = before ++ a :: after :=
      hreads.script.symm.trans hscript
    -- the first read either leaves the arrival to the others or takes it itself
    obtain ⟨more, rfl, hleft⟩ | ⟨more, rfl⟩ := before_or_within hsplit
    · obtain ⟨m, hm, hunread, hreturned⟩ := ih (hreads.closesAtEnd hc) hleft htaken
      exact ⟨m + 1, by omega, hunread, hreads.toYields.returned hreturned⟩
    · obtain ⟨hparse, hfaults⟩ := hreads.waited before a more rfl
      exact ⟨0, by omega, ⟨before, hscript.symm⟩, .of_incomplete hparse hfaults⟩

/-! ## The verdict -/

/--
After these results every further read returns the verdict on the stream, and changes nothing.
-/
structure Concludes (c : Connection) (outcomes : List (Except ClientError Value))
    (last : Connection) : Prop where
  final : ∀ n, c.readFrames (outcomes.length + n + 1) =
    (outcomes ++ List.replicate (n + 1) (.error (drain c.stream).stop.verdict), last)
  passing : ∀ result ∈ outcomes, Passing result
  frames : framesOf outcomes = (drain c.stream).frames
  /-- The bytes of an unfinished frame are kept. -/
  exhausted : (∀ e, (drain c.stream).stop ≠ .failed e) →
    last.transport.inbound = [] ∧ last.buffer = (drain c.stream).left

theorem Concludes.of_stuck {e : ClientError} (hread : c.readFrame = (.error e, c'))
    (hstuck : c'.Stuck e) : Concludes c [] c' := by
  have hstream : c'.stream = c.stream := stream_of_readFrame hread
  obtain ⟨hframes, hverdict, hexhausted⟩ := hstuck.drain_stream
  rw [hstream] at hframes hverdict hexhausted
  refine ⟨fun n => ?_, by simp, hframes.symm, hexhausted⟩
  rw [hverdict, List.length_nil, Nat.zero_add, readFrames_succ hread, hstuck.readFrames_eq]
  rfl

theorem Concludes.cons (hread : c.readFrame = (result, c')) (hpassing : Passing result)
    (htakes : Takes c.stream (framesOf [result]) c'.stream) (h : Concludes c' outcomes last) :
    Concludes c (result :: outcomes) last := by
  have hdrain := htakes.drain_eq
  refine ⟨fun n => ?_, ?_, ?_, ?_⟩
  · rw [hdrain, List.length_cons, Nat.add_right_comm _ 1 n, readFrames_succ hread, h.final]
    rfl
  · exact List.forall_mem_cons.2 ⟨hpassing, h.passing⟩
  · rw [hdrain, ← h.frames]
    exact framesOf_append [result] outcomes
  · rw [hdrain]
    exact h.exhausted

/-- A frame shortens the stream, and a failure what will arrive. -/
theorem Yields.shorter (h : Yields c taken [result] c') (hpassing : Passing result) :
    c'.stream.length + c'.transport.inbound.length <
      c.stream.length + c.transport.inbound.length := by
  have hinbound := congrArg List.length h.script
  rw [List.length_append] at hinbound
  have hstream := h.takes_stream.length_le
  cases hpassing with
  | frame v =>
    have hone : (framesOf [.ok v]).length = 1 := rfl
    omega
  | fault cause =>
    have htaken : taken ≠ [] := by
      rintro rfl
      exact absurd h.faults (by simp [faultsOf, faultOf?])
    have hpos := List.length_pos_iff.2 htaken
    omega

/-- **Reading comes to a verdict, and stays with it.** -/
theorem exists_concludes (hc : c.ClosesAtEnd) :
    ∃ outcomes last, Concludes c outcomes last := by
  -- every result that passes shortens what is still to be read
  induction hn : c.stream.length + c.transport.inbound.length using Nat.strongRecOn
    generalizing c with
  | ind n ih =>
    subst hn
    obtain ⟨taken, hreads⟩ := exists_reads_readFrame hc
    cases hread : c.readFrame with
    | mk result c' =>
      rw [hread] at hreads
      obtain hpassing | ⟨e, rfl, hstuck⟩ := hreads.outcome
      · obtain ⟨outcomes, last, h⟩ := ih _ (hreads.shorter hpassing) (hreads.closesAtEnd hc) rfl
        exact ⟨result :: outcomes, last, h.cons hread hpassing hreads.takes_stream⟩
      · exact ⟨[], c', .of_stuck hread hstuck⟩

/-- In the end the frames of the stream have been returned, whatever cut or delayed them. -/
theorem Concludes.framesOf_readFrames (h : Concludes c outcomes last) {n : Nat}
    (hn : outcomes.length < n) : framesOf (c.readFrames n).1 = (drain c.stream).frames := by
  obtain ⟨k, rfl⟩ := Nat.exists_eq_add_of_lt hn
  rw [h.final, framesOf_append, framesOf_replicate_error, List.append_nil, h.frames]

end Reading

/--
**Reading over an unreliable transport.**  Reads return each frame and each failure once, as the
arrivals account for that they took.  No arrival is taken before all that could be had of those
before it was returned, and none behind a malformed frame.  Reading comes to a verdict and stays
with it, the bytes of an unfinished frame being kept.  Which frames are read depends on the bytes
only, and not on how they are cut or where reads fail.
-/
theorem readFrames_over_faults (c : Connection) (hc : c.ClosesAtEnd) :
    (∀ n, ∃ taken, Yields c taken (c.readFrames n).1 (c.readFrames n).2) ∧
    (∀ n before a after, c.transport.inbound = before ++ a :: after →
      (c.readFrames n).2.transport.inbound <:+ after →
      ∃ m < n, a :: after <:+ (c.readFrames m).2.transport.inbound ∧
        Returned c before (c.readFrames m).1) ∧
    (∃ outcomes last, Concludes c outcomes last) ∧
    (∀ d : Connection, d.ClosesAtEnd → d.stream = c.stream →
      ∃ N, ∀ m n, N ≤ m → N ≤ n →
        framesOf (d.readFrames m).1 = framesOf (c.readFrames n).1) := by
  obtain ⟨outcomes, last, h⟩ := exists_concludes hc
  refine ⟨exists_yields_readFrames hc, ?_, ⟨outcomes, last, h⟩, ?_⟩
  · intro n before a after hscript htaken
    exact exists_returned_before hc hscript htaken
  · intro d hd hstream
    obtain ⟨outcomes', last', h'⟩ := exists_concludes hd
    refine ⟨outcomes.length + outcomes'.length + 1, fun m n hm hn => ?_⟩
    rw [h'.framesOf_readFrames (by omega), h.framesOf_readFrames (by omega), hstream]

/-- A line cut in two by a failed read, two frames in one piece, and one that never ends. -/
theorem readFrames_line_cut_by_fault :
    (∃ outcomes last,
      Concludes ⟨⟨[.data [43, 79], .fault "reset", .data [75, 13, 10, 58, 49, 13, 10, 58]], [],
        none⟩, [], .resp2⟩ outcomes last ∧
      framesOf outcomes = [.simple "OK", .integer 1] ∧
      last.transport.inbound = [] ∧ last.buffer = [58]) ∧
    ∃ N, ∀ m n, N ≤ m → N ≤ n →
      framesOf (readFrames ⟨⟨[.data [43, 79, 75, 13, 10, 58, 49, 13, 10, 58]], [], none⟩, [],
        .resp2⟩ m).1 =
      framesOf (readFrames ⟨⟨[.data [43, 79], .fault "reset",
        .data [75, 13, 10, 58, 49, 13, 10, 58]], [], none⟩, [], .resp2⟩ n).1 := by
  have htakes : Takes [43, 79, 75, 13, 10, 58, 49, 13, 10, 58] [.simple "OK", .integer 1] [58] :=
    .cons rfl (.cons rfl (.nil _))
  have hdrain : drain [43, 79, 75, 13, 10, 58, 49, 13, 10, 58] =
      ⟨[.simple "OK", .integer 1], .incomplete, [58]⟩ := by
    rw [htakes.drain_eq, Resp.drain_of_incomplete rfl]
    rfl
  obtain ⟨-, -, ⟨outcomes, last, h⟩, hcuts⟩ := readFrames_over_faults
    ⟨⟨[.data [43, 79], .fault "reset", .data [75, 13, 10, 58, 49, 13, 10, 58]], [], none⟩, [],
      .resp2⟩ (by simp [ClosesAtEnd])
  have hframes := h.frames
  have hexhausted := h.exhausted
  simp only [stream, List.flatMap_cons, List.flatMap_nil, Arrival.bytes, List.cons_append,
    List.nil_append, hdrain] at hframes hexhausted
  exact ⟨⟨outcomes, last, h, hframes, hexhausted (by simp)⟩,
    hcuts _ (by simp [ClosesAtEnd]) rfl⟩

end Connection

end StoreTrial
