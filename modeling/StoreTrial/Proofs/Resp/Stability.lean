import StoreTrial.Proofs.Resp.Depth
import StoreTrial.Resp.Stream

/-!
# Decided readings stay decided

A frame may arrive in any number of pieces.  What `parse` says of the bytes received so far is
final once it accepts or rejects them: bytes that follow only lengthen what is left.  Draining a
buffer after each piece therefore comes to the same as draining the whole stream once, wherever
the stream was cut.

## Main results

* `stable_parse` — no later byte overturns an accepted or a rejected frame.
* `drain_append` — draining in two goes is draining at once.
* `joined_feed` — fed in pieces, a stream yields what it yields in one piece.
* `parse_append_and_feed_eq` — both together, for every cut of a stream.
-/

namespace StoreTrial.Resp

/-! ## Readers that decide for good -/

/-- The same reading, with more bytes behind what it left. -/
def Reading.extend {α : Type} (more : Bytes) : Reading α → Reading α
  | .complete a rest => .complete a (rest ++ more)
  | .incomplete => .incomplete
  | .invalid e => .invalid e

/-- A reader whose decision does not depend on the bytes that follow. -/
def Stable {α : Type} (read : Bytes → Reading α) : Prop :=
  ∀ bytes more, read bytes ≠ .incomplete → read (bytes ++ more) = (read bytes).extend more

section Stability

variable {α : Type} {read : Bytes → Reading α}

theorem Stable.andThen {β : Type} (h : Stable read) {next : α → Bytes → Reading β}
    (hnext : ∀ a, Stable (next a)) : Stable fun bytes => (read bytes).andThen next := by
  intro bytes more hdecided
  have hread := h bytes more
  change (read bytes).andThen next ≠ .incomplete at hdecided
  show (read (bytes ++ more)).andThen next = ((read bytes).andThen next).extend more
  cases hr : read bytes with
  | complete a rest =>
    rw [hr] at hread hdecided
    rw [hread (by simp)]
    exact hnext a rest more hdecided
  | incomplete =>
    rw [hr] at hdecided
    exact absurd rfl hdecided
  | invalid e =>
    rw [hr] at hread
    rw [hread (by simp)]
    rfl

/-- Giving a value without looking at the bytes is decided at once. -/
theorem stable_complete (a : α) : Stable (Reading.complete a) :=
  fun _ _ _ => rfl

theorem stable_ofLine (e : Except Error α) : Stable (Reading.ofLine · e) := by
  intro bytes more _
  cases e <;> rfl

theorem Stable.repeated (h : Stable read) (n : Nat) : Stable (repeated read n) := by
  induction n with
  | zero => exact stable_complete []
  | succ n ih => exact h.andThen fun a => ih.andThen fun as => stable_complete (a :: as)

theorem Stable.paired (h : Stable read) : Stable (paired read) :=
  h.andThen fun a => h.andThen fun b => stable_complete (a, b)

end Stability

/-- The length is counted, so data that is complete stays the same data. -/
theorem stable_readBlob (kind : UInt8) (n : Nat) : Stable (readBlob kind n) := by
  intro bytes more hdecided
  unfold readBlob at hdecided ⊢
  match hdrop : bytes.drop n with
  | [] | [_] => simp [hdrop] at hdecided
  | a :: b :: rest =>
    have hn : n ≤ bytes.length := by
      have hlength := congrArg List.length hdrop
      simp only [List.length_drop, List.length_cons] at hlength
      omega
    rw [List.drop_append_of_le_length hn, List.take_append_of_le_length hn, hdrop]
    show (if a = 13 ∧ b = 10 then Reading.ofLine (rest ++ more) _ else _) = _
    by_cases hend : a = 13 ∧ b = 10
    · simp only [if_pos hend]
      exact stable_ofLine (blobValue kind (bytes.take n)) rest more
        (by cases blobValue kind (bytes.take n) <;> simp [Reading.ofLine])
    · simp only [if_neg hend, Reading.extend]

theorem Remains.stable {kind : UInt8} {run : (Bytes → Reading Value) → Bytes → Reading Value}
    (h : Remains kind run) {inner : Bytes → Reading Value} (hinner : Stable inner) :
    Stable (run inner) := by
  cases h with
  | nothing e => exact stable_ofLine e
  | blob n => exact stable_readBlob kind n
  | items n => exact (hinner.repeated n).andThen fun items => stable_complete _
  | entries n => exact (hinner.paired.repeated n).andThen fun entries => stable_complete _

/-- The first end of line stays the first one. -/
theorem splitLine_append {bytes content rest : Bytes} (more : Bytes)
    (h : splitLine bytes = some (content, rest)) :
    splitLine (bytes ++ more) = some (content, rest ++ more) := by
  have hline := hasCrlf_of_splitLine h
  rw [eq_of_splitLine h, List.append_assoc]
  exact splitLine_append_crlf (rest ++ more) hline

theorem stable_frame (depth : Nat) : Stable (frame depth) := by
  induction depth with
  | zero =>
    intro bytes more hdecided
    cases bytes <;> exact absurd rfl hdecided
  | succ depth ih =>
    intro bytes more hdecided
    cases bytes with
    | nil => exact absurd rfl hdecided
    | cons kind bytes =>
      cases hline : splitLine bytes with
      | none => simp [frame, hline] at hdecided
      | some found =>
        obtain ⟨content, rest⟩ := found
        have hbody : frame (depth + 1) (kind :: bytes) =
            frameBody (frame depth) kind content rest := by
          simp only [frame, hline]
        have hmore : frame (depth + 1) (kind :: bytes ++ more) =
            frameBody (frame depth) kind content (rest ++ more) := by
          simp only [List.cons_append, frame, splitLine_append more hline]
        rw [hbody] at hdecided ⊢
        rw [hmore]
        exact (remains_frameBody kind content).stable ih rest more hdecided

/-- **No later byte overturns an accepted or a rejected frame.** -/
theorem stable_parse : Stable parse := by
  intro bytes more hdecided
  -- one depth serves both inputs, so the stability of `frame` applies
  have hdepth : bytes.length ≤ (bytes ++ more).length := by simp
  rw [← frame_eq_parse hdepth] at hdecided ⊢
  rw [← frame_eq_parse (Nat.le_refl (bytes ++ more).length)]
  exact stable_frame _ bytes more hdecided

theorem parse_append_of_complete {bytes rest : Bytes} {v : Value} (more : Bytes)
    (h : parse bytes = .complete v rest) :
    parse (bytes ++ more) = .complete v (rest ++ more) := by
  rw [stable_parse bytes more (by simp [h]), h]
  rfl

theorem parse_append_of_invalid {bytes : Bytes} {e : Error} (more : Bytes)
    (h : parse bytes = .invalid e) : parse (bytes ++ more) = .invalid e := by
  rw [stable_parse bytes more (by simp [h]), h]
  rfl

/-! ## Draining in pieces -/

/-- Draining in two goes is draining at once: the second go starts from what the first left. -/
theorem drain_append (buffer more : Bytes) :
    drain (buffer ++ more) =
      { drain ((drain buffer).left ++ more) with
        frames := (drain buffer).frames ++ (drain ((drain buffer).left ++ more)).frames } := by
  induction hn : buffer.length using Nat.strongRecOn generalizing buffer with
  | ind n ih =>
    subst hn
    cases hparse : parse buffer with
    | complete v rest =>
      have hshorter : rest.length < buffer.length := by
        have := length_of_parse hparse
        omega
      rw [drain_of_complete (parse_append_of_complete more hparse), drain_of_complete hparse,
        ih rest.length hshorter rest rfl]
      rfl
    | incomplete =>
      rw [drain_of_incomplete hparse]
      rfl
    | invalid e =>
      rw [drain_of_invalid hparse]
      rfl

/-- What the drains after each chunk come to: all their frames, and how the last one ended. -/
def Drained.joined : List Drained → Drained
  | [] => ⟨[], .empty, []⟩
  | [d] => d
  | d :: ds => { joined ds with frames := d.frames ++ (joined ds).frames }

/-- **Fed in pieces, a stream yields what it yields in one piece.** -/
theorem joined_feed (buffer : Bytes) {chunks : List Bytes} (h : chunks ≠ []) :
    Drained.joined (feed buffer chunks) = drain (buffer ++ chunks.flatten) := by
  induction chunks generalizing buffer with
  | nil => exact absurd rfl h
  | cons chunk chunks ih =>
    cases chunks with
    | nil => simp [feed, Drained.joined]
    | cons next chunks =>
      have htail := ih (drain (buffer ++ chunk)).left (by simp)
      have hsplit : buffer ++ (chunk :: next :: chunks).flatten =
          buffer ++ chunk ++ (next :: chunks).flatten := by simp
      rw [hsplit, drain_append, ← htail]
      rfl

/--
**Reading is incremental.**  A value that is found is found again over the same bytes when more
follow, and so is a fault; a buffer from which nothing is taken stays as it is.  Hence any two ways
of cutting one stream into chunks yield the same frames in the same order, leave the same bytes,
and end with the same verdict.
-/
theorem parse_append_and_feed_eq :
    (∀ (bytes more : Bytes) (v : Value) (n : Nat), n ≤ bytes.length →
      parse bytes = .complete v (bytes.drop n) →
      parse (bytes ++ more) = .complete v ((bytes ++ more).drop n)) ∧
    (∀ (bytes rest : Bytes) (v : Value), parse bytes = .complete v rest →
      ∃ n ≤ bytes.length, rest = bytes.drop n) ∧
    (∀ (bytes more : Bytes) (e : Error), parse bytes = .invalid e →
      parse (bytes ++ more) = .invalid e) ∧
    (∀ bytes : Bytes, (∀ v rest, parse bytes ≠ .complete v rest) →
      (drain bytes).frames = [] ∧ (drain bytes).left = bytes) ∧
    (∀ chunks chunks' : List Bytes, chunks ≠ [] → chunks' ≠ [] →
      chunks.flatten = chunks'.flatten →
      Drained.joined (feed [] chunks) = Drained.joined (feed [] chunks')) := by
  refine ⟨?_, ?_, ?_, ?_, ?_⟩
  · intro bytes more v n hn h
    rw [parse_append_of_complete more h, List.drop_append_of_le_length hn]
  · intro bytes rest v h
    obtain ⟨consumed, hconsumed⟩ := shrinks_parse bytes v rest h
    refine ⟨consumed.length, ?_, ?_⟩
    · rw [← hconsumed, List.length_append]
      omega
    · rw [← hconsumed, List.drop_left]
  · intro bytes more e h
    exact parse_append_of_invalid more h
  · intro bytes h
    cases hparse : parse bytes with
    | complete v rest => exact absurd hparse (h v rest)
    | incomplete => simp [drain_of_incomplete hparse]
    | invalid e => simp [drain_of_invalid hparse]
  · intro chunks chunks' hne hne' hsame
    rw [joined_feed [] hne, joined_feed [] hne', hsame]

/-- A payload that is itself an end of line, an unknown kind, and cuts at the worst places. -/
theorem feed_cut_payload :
    (parse [36, 50, 13, 10, 13, 10, 13, 10] = .complete (.bulk [13, 10]) [] ∧
      parse ([36, 50, 13, 10, 13, 10, 13, 10] ++ [58]) = .complete (.bulk [13, 10]) [58]) ∧
    (parse [63, 13, 10] = .invalid (.malformed (.unknownKind 63)) ∧
      parse ([63, 13, 10] ++ [43]) = .invalid (.malformed (.unknownKind 63))) ∧
    (parse [36, 50, 13, 10, 13] = .incomplete ∧
      (drain [36, 50, 13, 10, 13]).left = [36, 50, 13, 10, 13]) ∧
    Drained.joined (feed [] [[36, 50, 13, 10, 13, 10, 13, 10]]) =
      Drained.joined (feed [] [[36, 50], [13], [10, 13], [], [10, 13], [10]]) := by
  obtain ⟨hvalue, -, hfault, hstays, hcuts⟩ := parse_append_and_feed_eq
  have hincomplete : parse [36, 50, 13, 10, 13] = .incomplete := rfl
  refine ⟨⟨rfl, ?_⟩, ⟨rfl, hfault [63, 13, 10] [43] _ rfl⟩, ⟨hincomplete, ?_⟩, ?_⟩
  · exact hvalue [36, 50, 13, 10, 13, 10, 13, 10] [58] (.bulk [13, 10]) 8 (by decide) rfl
  · exact (hstays _ fun v rest => by simp [hincomplete]).2
  · exact hcuts _ _ (by decide) (by decide) rfl

end StoreTrial.Resp
