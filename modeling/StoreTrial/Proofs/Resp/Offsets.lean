import StoreTrial.Proofs.Resp.Depth
import StoreTrial.Proofs.Resp.Reencoding

/-!
# Reading by offsets

`parse` takes bytes off the front of a buffer.  A reader that leaves the buffer in place keeps an
offset instead: it indexes, it slices, and it adds lengths that the peer has announced.  `parseAt`
reads in that way, and checks each of these steps: a sum that 64 bits cannot hold, an index or a
slice that is not within the data, and a level of nesting too deep are faults of their own, which
no buffer may lead to.

An offset into the buffer and the bytes behind it say the same, so that the two readings can be
compared step by step.  The one sum that an announced length enters is made before the length is
compared with what is there: it is at most the size of the buffer and `2 ^ 63 + 1`.

## Main results

* `locates_frameAt` — at every offset, the reading of the bytes behind it.
* `Derives.three_mul_nodes_le` — three bytes or more for each frame inside a frame.
* `parseAt_stays_within_buffer` — no fault, the same reading, and what it takes.
-/

namespace StoreTrial.Resp

/-! ## Steps that can go wrong -/

/-- What can be wrong with an offset. -/
inductive OffsetFault where
  /-- A sum that 64 bits cannot hold. -/
  | overflow (a b : Nat)
  /-- An index that is not within the data. -/
  | index (i size : Nat)
  /-- A slice that is not within the data. -/
  | slice (start stop size : Nat)
  /-- Frames inside frames, deeper than the reader goes. -/
  | depth
  deriving Repr, DecidableEq

/-- Why a reader ends without the thing that it reads. -/
inductive Setback where
  /-- There is only a proper start of it. -/
  | incomplete
  /-- There is something that more bytes could not complete. -/
  | invalid (e : Error)
  | fault (f : OffsetFault)
  deriving Repr, DecidableEq

/-- The sum of two offsets. -/
def plus (a b : Nat) : Except Setback Nat :=
  if a + b < 2 ^ 64 then .ok (a + b) else .error (.fault (.overflow a b))

/-- The byte at an offset. -/
def byteAt (data : Bytes) (i : Nat) : Except Setback UInt8 :=
  match data[i]? with
  | some b => .ok b
  | none => .error (.fault (.index i data.length))

/-- The bytes between two offsets. -/
def slice (data : Bytes) (start stop : Nat) : Except Setback Bytes :=
  if start ≤ stop ∧ stop ≤ data.length then .ok ((data.take stop).drop start)
  else .error (.fault (.slice start stop data.length))

/-! ## The reader -/

/-- How many bytes stand in front of the first end of line. -/
def lineLength : Bytes → Option Nat
  | a :: b :: rest =>
    if a = 13 ∧ b = 10 then some 0 else (lineLength (b :: rest)).map (· + 1)
  | _ => none

/-- The content of the line at an offset, and the offset behind its end. -/
def lineAt (buffer : Bytes) (start : Nat) : Except Setback (Bytes × Nat) := do
  match lineLength (← slice buffer start buffer.length) with
  | none => .error .incomplete
  | some n =>
    let stop ← plus start n
    return (← slice buffer start stop, ← plus stop 2)

/-- The value that data stands for. -/
def blobValueAt (kind : UInt8) (data : Bytes) : Except Setback Value :=
  if kind = 33 then ((lineText data).map .error).mapError .invalid
  else if kind = 61 ∧ 4 ≤ data.length then do
    if (← byteAt data 3) = 58 then return .bulk (← slice data 4 data.length)
    else return .bulk data
  else .ok (.bulk data)

/-- The value of `n` bytes of data at an offset, and the offset behind the end of line. -/
def blobAt (buffer : Bytes) (kind : UInt8) (n start : Nat) : Except Setback (Value × Nat) := do
  let stop ← plus start n
  let next ← plus stop 2
  if buffer.length < next then .error .incomplete
  else if (← slice buffer stop next) ≠ crlf then .error (.invalid (.malformed .unterminated))
  else return (← blobValueAt kind (← slice buffer start stop), next)

/-- Reads `n` things one after another. -/
def repeatedAt {α : Type} (readAt : Nat → Except Setback (α × Nat)) :
    Nat → Nat → Except Setback (List α × Nat)
  | 0, start => .ok ([], start)
  | n + 1, start => do
    let (a, middle) ← readAt start
    let (as, next) ← repeatedAt readAt n middle
    return (a :: as, next)

/-- Reads two things one after the other. -/
def pairedAt {α : Type} (readAt : Nat → Except Setback (α × Nat)) (start : Nat) :
    Except Setback ((α × α) × Nat) := do
  let (a, middle) ← readAt start
  let (b, next) ← readAt middle
  return ((a, b), next)

/-- What follows a kind byte and a line. -/
inductive Remainder where
  /-- Nothing: the line has said it all. -/
  | nothing (v : Except Error Value)
  /-- Data of a length. -/
  | blob (n : Nat)
  /-- Frames. -/
  | items (n : Nat)
  /-- Pairs of frames. -/
  | entries (n : Nat)

/-- What follows a length or a count, if there is one on the line. -/
def Remainder.ofCount (follows : Nat → Remainder) : Except Error Nat → Remainder
  | .ok n => follows n
  | .error e => .nothing (.error e)

/-- What a kind byte and a line say of what follows. -/
def remainder (kind : UInt8) (content : Bytes) : Remainder :=
  if kind = 43 then .nothing ((lineText content).map .simple)
  else if kind = 45 then .nothing ((lineText content).map .error)
  else if kind = 58 then .nothing ((lineInteger content).map .integer)
  else if kind = 95 then
    .nothing (if content = [] then .ok .null else .error (.malformed .nullPayload))
  else if kind = 35 then .nothing ((lineBoolean content).map .boolean)
  else if kind = 44 then .nothing ((lineDouble content).map .double)
  else if (kind = 36 ∨ kind = 42) ∧ writesNull content then .nothing (.ok .null)
  else if kind = 36 ∨ kind = 33 ∨ kind = 61 then
    .ofCount .blob (announced content .badLength)
  else if kind = 42 ∨ kind = 126 ∨ kind = 62 then
    .ofCount .items (announced content .badCount)
  else if kind = 37 then .ofCount .entries (announced content .badMapCount)
  else .nothing (.error (.malformed (.unknownKind kind)))

/-- Reads what follows a line; `inner` reads the frames inside an aggregate. -/
def remainderAt (buffer : Bytes) (inner : Nat → Except Setback (Value × Nat)) (kind : UInt8)
    (start : Nat) : Remainder → Except Setback (Value × Nat)
  | .nothing v => (v.map fun v => (v, start)).mapError .invalid
  | .blob n => blobAt buffer kind n start
  | .items n => do
    let (items, next) ← repeatedAt inner n start
    return (aggregate kind items, next)
  | .entries n => do
    let (entries, next) ← repeatedAt (pairedAt inner) n start
    return (.map entries, next)

/-- Reads the frame at an offset, with aggregates at most `depth` deep. -/
def frameAt : Nat → Bytes → Nat → Except Setback (Value × Nat)
  | 0, _, _ => .error (.fault .depth)
  | depth + 1, buffer, start => do
    if buffer.length ≤ start then .error .incomplete
    else
      let (content, next) ← lineAt buffer (← plus start 1)
      let kind ← byteAt buffer start
      remainderAt buffer (frameAt depth buffer) kind next (remainder kind content)

/-- Reads the frame at an offset. -/
def parseAt (buffer : Bytes) : Nat → Except Setback (Value × Nat) :=
  frameAt (buffer.length + 1) buffer

/-! ## The steps within their bounds -/

theorem length_line (kind : UInt8) (content : Bytes) :
    (line kind content).length = content.length + 3 := by
  simp only [line, crlf, List.length_append, List.length_cons, List.length_nil]

theorem plus_of_lt {a b : Nat} (h : a + b < 2 ^ 64) : plus a b = .ok (a + b) := if_pos h

/-- A slice is what stands between the bytes before it and those behind it. -/
theorem slice_append (front middle rest : Bytes) :
    slice (front ++ middle ++ rest) front.length (front.length + middle.length) = .ok middle := by
  have hwithin : front.length ≤ front.length + middle.length ∧
      front.length + middle.length ≤ (front ++ middle ++ rest).length := by
    simp only [List.length_append]
    omega
  rw [slice, if_pos hwithin, ← List.length_append, List.take_left, List.drop_left]

theorem slice_to_end (front rest : Bytes) :
    slice (front ++ rest) front.length (front ++ rest).length = .ok rest := by
  have h := slice_append front rest []
  rwa [List.append_nil, ← List.length_append] at h

/-- In front of the first end of line stands the content of the line. -/
theorem lineLength_eq (bytes : Bytes) :
    lineLength bytes = (splitLine bytes).map fun (content, _) => content.length := by
  induction bytes with
  | nil => rfl
  | cons a bytes ih =>
    cases bytes with
    | nil => rfl
    | cons b bytes =>
      simp only [splitLine, lineLength]
      by_cases hend : a = 13 ∧ b = 10
      · rw [if_pos hend, if_pos hend]
        rfl
      · rw [if_neg hend, if_neg hend, ih]
        cases splitLine (b :: bytes) <;> rfl

/-- Looking for a format at an offset of the data comes to the same value. -/
theorem blobValueAt_eq (kind : UInt8) (data : Bytes) :
    blobValueAt kind data = (blobValue kind data).mapError .invalid := by
  unfold blobValueAt blobValue
  by_cases herror : kind = 33
  · rw [if_pos herror, if_pos herror]
  rw [if_neg herror, if_neg herror]
  by_cases hlong : kind = 61 ∧ 4 ≤ data.length
  · rw [if_pos hlong]
    match data, hlong.2 with
    | a :: b :: c :: d :: rest, _ =>
      have hbyte : byteAt (a :: b :: c :: d :: rest) 3 = .ok d := rfl
      have hslice : slice (a :: b :: c :: d :: rest) 4 (a :: b :: c :: d :: rest).length =
          .ok rest := slice_to_end [a, b, c, d] rest
      have hformat : hasFormat (a :: b :: c :: d :: rest) = true ↔ d = 58 := by simp [hasFormat]
      simp only [hbyte, hslice, hformat, hlong.1, true_and, bind, Except.bind, pure, Except.pure]
      by_cases hcolon : d = 58
      · rw [if_pos hcolon, if_pos hcolon]
        rfl
      · rw [if_neg hcolon, if_neg hcolon]
        rfl
  · have hnone : ¬(kind = 61 ∧ hasFormat data = true) := by
      rintro ⟨hkind, hformat⟩
      obtain ⟨a, b, c, rest, rfl⟩ := hasFormat_iff.1 hformat
      exact hlong ⟨hkind, by simp⟩
    rw [if_neg hlong, if_neg hnone]
    rfl

/-- Reads what follows a line off the front of the bytes behind it. -/
def Remainder.read (inner : Bytes → Reading Value) (kind : UInt8) (rest : Bytes) :
    Remainder → Reading Value
  | .nothing v => .ofLine rest v
  | .blob n => readBlob kind n rest
  | .items n =>
    (repeated inner n rest).andThen fun items rest => .complete (aggregate kind items) rest
  | .entries n =>
    (repeated (paired inner) n rest).andThen fun entries rest => .complete (.map entries) rest

theorem Remainder.read_ofCount (inner : Bytes → Reading Value) (kind : UInt8) (rest : Bytes)
    (follows : Nat → Remainder) (count : Except Error Nat) :
    (ofCount follows count).read inner kind rest =
      match count with
      | .error e => .invalid e
      | .ok n => (follows n).read inner kind rest := by
  cases count <;> rfl

/-- A frame is read as its kind byte and its line say of what follows. -/
theorem frameBody_eq (inner : Bytes → Reading Value) (kind : UInt8) (content rest : Bytes) :
    frameBody inner kind content rest = (remainder kind content).read inner kind rest := by
  have hnull : (Remainder.nothing (if content = [] then .ok .null
      else .error (.malformed .nullPayload))).read inner kind rest =
      if content = [] then .complete .null rest else .invalid (.malformed .nullPayload) := by
    split <;> rfl
  rw [remainder]
  simp only [apply_ite (Remainder.read inner kind rest), Remainder.read_ofCount, hnull]
  rfl

/-- Whether the length of the data that follows was announced in 63 bits. -/
def Remainder.Fits : Remainder → Prop
  | .blob n => n < 2 ^ 63
  | .nothing _ | .items _ | .entries _ => True

theorem fits_remainder (kind : UInt8) (content : Bytes) : (remainder kind content).Fits := by
  have hblob : (Remainder.ofCount .blob (announced content .badLength)).Fits := by
    cases hn : announced content .badLength with
    | error e => trivial
    | ok n =>
      obtain ⟨i, -, hi⟩ := announced_eq_ok_iff.1 hn
      have hlt := i.toInt_lt
      show n < 2 ^ 63
      omega
  have hitems : (Remainder.ofCount .items (announced content .badCount)).Fits := by
    cases announced content .badCount <;> trivial
  have hentries : (Remainder.ofCount .entries (announced content .badMapCount)).Fits := by
    cases announced content .badMapCount <;> trivial
  unfold remainder
  repeat' refine iteInduction (motive := Remainder.Fits) (fun _ => ?_) fun _ => ?_
  all_goals trivial

/-! ### Data -/

/-- Bytes that are enough begin with data of a length and two bytes more. -/
theorem exists_data_of_le {bytes : Bytes} {k : Nat} (h : k + 2 ≤ bytes.length) :
    ∃ data a b rest, k = data.length ∧ bytes = data ++ a :: b :: rest := by
  match hdrop : bytes.drop k with
  | a :: b :: rest =>
    refine ⟨bytes.take k, a, b, rest, ?_, ?_⟩
    · rw [List.length_take]
      omega
    · rw [← hdrop, List.take_append_drop]
  | [] | [_] =>
    have hlength := congrArg List.length hdrop
    simp only [List.length_drop, List.length_cons, List.length_nil] at hlength
    omega

theorem readBlob_of_lt (kind : UInt8) {bytes : Bytes} {k : Nat} (h : bytes.length < k + 2) :
    readBlob kind k bytes = .incomplete := by
  unfold readBlob
  split
  · next a b rest hdrop =>
    have hlength := congrArg List.length hdrop
    simp only [List.length_drop, List.length_cons] at hlength
    omega
  · rfl

theorem readBlob_data (kind : UInt8) (data : Bytes) (a b : UInt8) (rest : Bytes) :
    readBlob kind data.length (data ++ a :: b :: rest) =
      if a = 13 ∧ b = 10 then .ofLine rest (blobValue kind data)
      else .invalid (.malformed .unterminated) := by
  rw [readBlob, List.drop_left, List.take_left]

/-! ## Offsets and the bytes behind them -/

/-- What a reading of the end of a buffer comes to, told by offsets. -/
def Reading.located {α : Type} (buffer : Bytes) : Reading α → Except Setback (α × Nat)
  | .complete a rest => .ok (a, buffer.length - rest.length)
  | .incomplete => .error .incomplete
  | .invalid e => .error (.invalid e)

/-- Whether a reader by offsets finds what another finds in the bytes behind the offset, as long as
there are at most `n` of them. -/
def Locates {α : Type} (buffer : Bytes) (n : Nat) (readAt : Nat → Except Setback (α × Nat))
    (read : Bytes → Reading α) : Prop :=
  ∀ front bytes, buffer = front ++ bytes → bytes.length ≤ n →
    readAt front.length = (read bytes).located buffer

section Locates

variable {α β : Type} {buffer : Bytes} {n : Nat} {readAt : Nat → Except Setback (α × Nat)}
  {read : Bytes → Reading α}

/-- Readers that go on do so at the offset that is behind what was taken. -/
theorem Locates.andThen (h : Locates buffer n readAt read) (hs : Shrinks read)
    {nextAt : α → Nat → Except Setback (β × Nat)} {next : α → Bytes → Reading β}
    (hnext : ∀ a, Locates buffer n (nextAt a) (next a)) :
    Locates buffer n (fun start => readAt start >>= fun (a, middle) => nextAt a middle)
      (fun bytes => (read bytes).andThen next) := by
  intro front bytes hbuffer hlength
  show readAt front.length >>= _ = ((read bytes).andThen next).located buffer
  rw [h front bytes hbuffer hlength]
  cases hr : read bytes with
  | incomplete => rfl
  | invalid e => rfl
  | complete a rest =>
    obtain ⟨taken, rfl⟩ := hs _ _ _ hr
    rw [List.length_append] at hlength
    have hoffset : buffer.length - rest.length = (front ++ taken).length := by
      rw [hbuffer]
      simp only [List.length_append]
      omega
    show nextAt a (buffer.length - rest.length) = (next a rest).located buffer
    rw [hoffset]
    apply hnext a
    · rw [hbuffer, List.append_assoc]
    · omega

theorem locates_ok (a : α) : Locates buffer n (fun start => .ok (a, start)) (.complete a) := by
  intro front bytes hbuffer _
  rw [hbuffer]
  simp [Reading.located]

theorem Locates.repeated (h : Locates buffer n readAt read) (hs : Shrinks read) (count : Nat) :
    Locates buffer n (repeatedAt readAt count) (repeated read count) := by
  induction count with
  | zero => exact locates_ok []
  | succ count ih =>
    exact h.andThen hs fun _ => ih.andThen (hs.repeated count) fun _ => locates_ok _

theorem Locates.paired (h : Locates buffer n readAt read) (hs : Shrinks read) :
    Locates buffer n (pairedAt readAt) (paired read) :=
  h.andThen hs fun _ => h.andThen hs fun _ => locates_ok _

end Locates

section Buffer

variable {buffer front bytes : Bytes} (hsize : buffer.length < 2 ^ 63 - 2)

include hsize

/-- The line at an offset is the one that the bytes behind it begin with. -/
theorem lineAt_eq (hbuffer : buffer = front ++ bytes) :
    lineAt buffer front.length =
      match splitLine bytes with
      | none => .error .incomplete
      | some (content, rest) => .ok (content, buffer.length - rest.length) := by
  have htail : slice buffer front.length buffer.length = .ok bytes := by
    rw [hbuffer]
    exact slice_to_end front bytes
  simp only [lineAt, htail, lineLength_eq, bind, Except.bind]
  cases hline : splitLine bytes with
  | none => rfl
  | some found =>
    obtain ⟨content, rest⟩ := found
    have hparts : buffer = front ++ content ++ (crlf ++ rest) := by
      rw [hbuffer, eq_of_splitLine hline]
      simp only [List.append_assoc]
    have hlength : buffer.length = front.length + content.length + 2 + rest.length := by
      rw [hparts]
      simp only [crlf, List.length_append, List.length_cons, List.length_nil]
      omega
    have hstop : plus front.length content.length = .ok (front.length + content.length) :=
      plus_of_lt (by omega)
    have hnext : plus (front.length + content.length) 2 = .ok (buffer.length - rest.length) := by
      rw [plus_of_lt (by omega)]
      congr 1
      omega
    have hcontent : slice buffer front.length (front.length + content.length) = .ok content := by
      rw [hparts]
      exact slice_append front content (crlf ++ rest)
    simp only [Option.map_some, hstop, hcontent, hnext, pure, Except.pure]

/-- Data at an offset is what the bytes behind it begin with. -/
theorem locates_blobAt {n k : Nat} (kind : UInt8) (hk : k < 2 ^ 63) :
    Locates buffer n (blobAt buffer kind k) (readBlob kind k) := by
  intro front bytes hbuffer _
  have hlength : buffer.length = front.length + bytes.length := by
    rw [hbuffer, List.length_append]
  -- these two sums are made before the length is compared with what is there
  have hstop : plus front.length k = .ok (front.length + k) := plus_of_lt (by omega)
  have hnext : plus (front.length + k) 2 = .ok (front.length + k + 2) := plus_of_lt (by omega)
  simp only [blobAt, hstop, hnext, bind, Except.bind]
  by_cases hshort : buffer.length < front.length + k + 2
  · rw [if_pos hshort, readBlob_of_lt kind (by omega)]
    rfl
  have henough : k + 2 ≤ bytes.length := by omega
  obtain ⟨data, a, b, rest, rfl, rfl⟩ := exists_data_of_le henough
  have hclosing : slice buffer (front.length + data.length) (front.length + data.length + 2) =
      .ok [a, b] := by
    have h := slice_append (front ++ data) [a, b] rest
    rw [List.append_assoc, List.append_assoc, List.length_append] at h
    rw [hbuffer]
    exact h
  have hslice : slice buffer front.length (front.length + data.length) = .ok data := by
    have h := slice_append front data (a :: b :: rest)
    rw [List.append_assoc] at h
    rw [hbuffer]
    exact h
  have hoffset : front.length + data.length + 2 = buffer.length - rest.length := by
    simp only [List.length_append, List.length_cons] at hlength
    omega
  rw [readBlob_data, if_neg hshort, hclosing]
  simp only [hslice, blobValueAt_eq]
  by_cases hend : a = 13 ∧ b = 10
  · obtain ⟨rfl, rfl⟩ := hend
    rw [if_neg (by decide), if_pos ⟨rfl, rfl⟩, hoffset]
    cases blobValue kind data <;> rfl
  · have hne : [a, b] ≠ crlf := by
      intro h
      simp only [crlf, List.cons.injEq, and_true] at h
      exact hend h
    rw [if_pos hne, if_neg hend]
    rfl

/-- What follows a line is at the offset behind the line. -/
theorem locates_remainderAt {n : Nat} {innerAt : Nat → Except Setback (Value × Nat)}
    {inner : Bytes → Reading Value} (hinner : Locates buffer n innerAt inner)
    (hs : Shrinks inner) (kind : UInt8) {r : Remainder} (hr : r.Fits) :
    Locates buffer n (fun start => remainderAt buffer innerAt kind start r)
      (r.read inner kind) := by
  cases r with
  | nothing v =>
    intro front bytes hbuffer _
    cases v with
    | error e => rfl
    | ok v => exact locates_ok v front bytes hbuffer (Nat.le_refl _)
  | blob k => exact locates_blobAt hsize kind hr
  | items k =>
    exact (hinner.repeated hs k).andThen (hs.repeated k) fun _ => locates_ok _
  | entries k =>
    exact ((hinner.paired hs).repeated hs.paired k).andThen (hs.paired.repeated k)
      fun _ => locates_ok _

/-- At every offset there is what the bytes behind it begin with. -/
theorem locates_frameAt {n depth : Nat} (hdepth : n < depth) :
    Locates buffer n (frameAt depth buffer) parse := by
  induction depth generalizing n with
  | zero => omega
  | succ depth ih =>
    intro front bytes hbuffer hlength
    cases bytes with
    | nil =>
      have hend : buffer.length ≤ front.length := by
        rw [hbuffer, List.append_nil]
      rw [frameAt, if_pos hend]
      rfl
    | cons kind bytes =>
      have hbefore : buffer = (front ++ [kind]) ++ bytes := by
        rw [hbuffer, List.append_assoc]
        rfl
      have hsizes : buffer.length = front.length + 1 + bytes.length := by
        rw [hbefore]
        simp only [List.length_append, List.length_cons, List.length_nil]
      have hplus : plus front.length 1 = .ok (front ++ [kind]).length := by
        rw [plus_of_lt (by omega), List.length_append]
        rfl
      have hkind : byteAt buffer front.length = .ok kind := by
        rw [byteAt, hbuffer, List.getElem?_append_right (Nat.le_refl _), Nat.sub_self]
        rfl
      rw [frameAt, if_neg (by omega), parse_cons, hplus]
      simp only [bind, Except.bind, lineAt_eq hsize hbefore, hkind]
      cases hline : splitLine bytes with
      | none => rfl
      | some found =>
        obtain ⟨content, rest⟩ := found
        have hrest := length_of_splitLine hline
        rw [List.length_cons] at hlength
        have hinner : Locates buffer (n - 3) (frameAt depth buffer) parse := ih (by omega)
        have hremainder := locates_remainderAt hsize hinner shrinks_parse kind
          (fits_remainder kind content)
        have hfront : buffer = (front ++ line kind content) ++ rest := by
          rw [hbuffer, eq_of_splitLine hline]
          simp [line]
        have hoffset : buffer.length - rest.length = (front ++ line kind content).length := by
          rw [hfront]
          simp only [List.length_append]
          omega
        show remainderAt buffer _ kind (buffer.length - rest.length) (remainder kind content) =
          (frameBody parse kind content rest).located buffer
        rw [frameBody_eq, hoffset]
        exact hremainder _ rest hfront (by omega)

end Buffer

/-! ## What is taken -/

theorem Value.nodesOfItems_inTurn (entries : List (Value × Value)) :
    nodesOfItems (inTurn entries) = nodesOfEntries entries := by
  induction entries with
  | nil => rfl
  | cons e entries ih =>
    simp only [inTurn_cons, nodesOfItems, nodesOfEntries, ih]
    omega

mutual

/-- A frame takes three bytes or more for each frame that it is made of. -/
theorem Derives.three_mul_nodes_le {bytes : Bytes} {v : Value} (h : Derives bytes v) :
    3 * v.nodes ≤ bytes.length :=
  match h with
  | .simple _ | .error _ | .integer _ | .double _ | .noData _ | .noItems _ => by
    simp only [Value.nodes, length_line]
    omega
  | .null | .boolean _ => by
    simp only [Value.nodes, length_line, List.length_cons, List.length_nil]
    omega
  | .bulk _ | .bulkError _ | .formatted _ | .unformatted _ _ => by
    simp only [Value.nodes, List.length_append, length_line]
    omega
  | .array _ hitems | .set _ hitems | .push _ hitems => by
    have := hitems.three_mul_nodes_le
    simp only [Value.nodes, List.length_append, length_line]
    omega
  | .map _ hentries => by
    have := hentries.three_mul_nodes_le
    rw [Value.nodesOfItems_inTurn] at this
    simp only [Value.nodes, List.length_append, length_line]
    omega

/-- So do frames one after another. -/
theorem DerivesAll.three_mul_nodes_le {bytes : Bytes} {vs : List Value} (h : DerivesAll bytes vs) :
    3 * Value.nodesOfItems vs ≤ bytes.length :=
  match h with
  | .nil => Nat.le_refl _
  | .cons hhead htail => by
    have hv := hhead.three_mul_nodes_le
    have hvs := htail.three_mul_nodes_le
    simp only [Value.nodesOfItems, List.length_append]
    omega

end

/-- What reads one thing from so many bytes reads a number of them from that many times as many. -/
theorem repeated_le_length {α : Type} {read : Bytes → Reading α} {k : Nat}
    (h : ∀ bytes a rest, read bytes = .complete a rest → rest.length + k ≤ bytes.length)
    {count : Nat} {bytes rest : Bytes} {as : List α}
    (hr : repeated read count bytes = .complete as rest) :
    rest.length + k * count ≤ bytes.length := by
  induction count generalizing bytes as with
  | zero =>
    cases hr
    omega
  | succ count ih =>
    obtain ⟨a, middle, ha, hr⟩ := Reading.andThen_eq_complete.1 hr
    obtain ⟨as', rest', has, hr⟩ := Reading.andThen_eq_complete.1 hr
    cases hr
    have hhead := h _ _ _ ha
    have htail := ih has
    rw [Nat.mul_succ]
    omega

theorem length_of_paired {bytes rest : Bytes} {e : Value × Value}
    (h : paired parse bytes = .complete e rest) : rest.length + 6 ≤ bytes.length := by
  obtain ⟨a, middle, ha, h⟩ := Reading.andThen_eq_complete.1 h
  obtain ⟨b, rest', hb, h⟩ := Reading.andThen_eq_complete.1 h
  cases h
  have hkey := length_of_parse ha
  have hvalue := length_of_parse hb
  omega

/-! ## No fault -/

theorem Reading.located_ne_fault {α : Type} (buffer : Bytes) (r : Reading α) (f : OffsetFault) :
    r.located buffer ≠ .error (.fault f) := by
  cases r <;> simp [located]

/-- What is found at an offset was there to be read, and the offset behind it is where that ends. -/
theorem Reading.exists_of_located {α : Type} {buffer : Bytes} {r : Reading α} {a : α}
    {next : Nat} (h : r.located buffer = .ok (a, next)) :
    ∃ rest, r = .complete a rest ∧ next = buffer.length - rest.length := by
  cases r with
  | complete b rest =>
    cases h
    exact ⟨rest, rfl, rfl⟩
  | incomplete => cases h
  | invalid e => cases h

/-- Things in a row, each found where it is, end within the buffer and behind all their bytes. -/
theorem repeatedAt_le {α : Type} {buffer : Bytes} {readAt : Nat → Except Setback (α × Nat)}
    {read : Bytes → Reading α} (h : Locates buffer buffer.length readAt read) (hs : Shrinks read)
    {k : Nat} (hk : ∀ bytes a rest, read bytes = .complete a rest → rest.length + k ≤ bytes.length)
    {front bytes : Bytes} (hbuffer : buffer = front ++ bytes) {count next : Nat} {as : List α}
    (hr : repeatedAt readAt count front.length = .ok (as, next)) :
    front.length + k * as.length ≤ next ∧ next ≤ buffer.length := by
  have hlength : buffer.length = front.length + bytes.length := by
    rw [hbuffer, List.length_append]
  rw [h.repeated hs count front bytes hbuffer (by omega)] at hr
  obtain ⟨rest, hread, rfl⟩ := Reading.exists_of_located hr
  have hcount := repeated_le_length hk hread
  rw [length_of_repeated hread]
  omega

section Within

variable {buffer : Bytes} (hsize : buffer.length < 2 ^ 63 - 2)

include hsize

theorem locates_parseAt : Locates buffer buffer.length (parseAt buffer) parse :=
  locates_frameAt hsize (Nat.lt_succ_self _)

/--
**Reading by offsets stays within the buffer.**  Let a buffer have fewer than `2 ^ 63 - 2` bytes,
with any lengths and counts announced in it and any nesting.  At every offset the reader finds what
the bytes behind the offset begin with, and meets no fault: all indices and slices are within the
data, and all sums fit in 64 bits.  What it reads takes three bytes or more for each frame that it
is made of and ends within the buffer.  The same goes for frames and for pairs in a row, of any
number: there are never more than the bytes can hold.
-/
theorem parseAt_stays_within_buffer (start : Nat) (hstart : start ≤ buffer.length) :
    parseAt buffer start = (parse (buffer.drop start)).located buffer ∧
    (∀ f, parseAt buffer start ≠ .error (.fault f)) ∧
    (∀ v next, parseAt buffer start = .ok (v, next) →
      start + 3 * v.nodes ≤ next ∧ next ≤ buffer.length) ∧
    (∀ count items next, repeatedAt (parseAt buffer) count start = .ok (items, next) →
      start + 3 * items.length ≤ next ∧ next ≤ buffer.length) ∧
    (∀ count entries next,
      repeatedAt (pairedAt (parseAt buffer)) count start = .ok (entries, next) →
      start + 6 * entries.length ≤ next ∧ next ≤ buffer.length) := by
  have hbuffer : buffer = buffer.take start ++ buffer.drop start :=
    (List.take_append_drop start buffer).symm
  have hfront : (buffer.take start).length = start := by
    rw [List.length_take]
    omega
  have hbehind : (buffer.drop start).length = buffer.length - start := List.length_drop
  have hparse := locates_parseAt hsize
  have hfound := hparse _ _ hbuffer (by omega)
  rw [hfront] at hfound
  refine ⟨hfound, ?_, ?_, ?_, ?_⟩
  · intro f
    rw [hfound]
    exact Reading.located_ne_fault buffer _ f
  · intro v next h
    rw [hfound] at h
    obtain ⟨rest, hread, rfl⟩ := Reading.exists_of_located h
    obtain ⟨taken, htaken, hderives⟩ := exists_derives_of_parse hread
    have hnodes := hderives.three_mul_nodes_le
    have hlength := congrArg List.length htaken
    rw [List.length_append] at hlength
    omega
  · intro count items next h
    rw [← hfront] at h ⊢
    exact repeatedAt_le hparse shrinks_parse (fun _ _ _ => length_of_parse) hbuffer h
  · intro count entries next h
    rw [← hfront] at h ⊢
    exact repeatedAt_le (hparse.paired shrinks_parse) shrinks_parse.paired
      (fun _ _ _ => length_of_paired) hbuffer h

end Within

/-- A push of three frames, the second with data of the greatest length that can be announced. -/
def greatestLength : Bytes := Bytes.ofText ">3\r\n+x\r\n$9223372036854775807\r\nab\r\n"

/-- The first frame is read, and of the second there is only a start. -/
theorem parseAt_stays_within_buffer_greatest_length :
    greatestLength.length < 2 ^ 63 - 2 ∧ parseAt greatestLength 0 = .error .incomplete ∧
      (∀ f, parseAt greatestLength 4 ≠ .error (.fault f)) ∧
      repeatedAt (parseAt greatestLength) 1 4 = .ok ([.simple "x"], 8) ∧ 4 + 3 * 1 ≤ 8 := by
  have hsize : greatestLength.length < 2 ^ 63 - 2 := by decide
  obtain ⟨hwhole, -⟩ := parseAt_stays_within_buffer hsize 0 (Nat.zero_le _)
  obtain ⟨-, hfault, -, hloop, -⟩ := parseAt_stays_within_buffer hsize 4 (by decide)
  have hfirst : repeatedAt (parseAt greatestLength) 1 4 = .ok ([.simple "x"], 8) := rfl
  exact ⟨hsize, hwhole.trans rfl, hfault, hfirst, (hloop 1 _ 8 hfirst).1⟩

end StoreTrial.Resp
