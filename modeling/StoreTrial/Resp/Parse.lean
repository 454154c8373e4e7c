import StoreTrial.Decimal.Reading
import StoreTrial.Resp.Error
import StoreTrial.Resp.Line
import StoreTrial.Resp.Value

/-!
# Reading frames as they arrive

`parse` looks for one frame at the start of the bytes received so far. The bytes either hold a
complete frame, or are a proper start of one, or can never become one; only a complete frame takes
bytes away. Aggregates are read to a depth bounded by the number of bytes, which no frame exceeds,
because every frame takes three bytes or more.

## Main results

* `length_of_parse` — a complete frame takes at least three bytes away.
-/

namespace StoreTrial.Resp

/-! ## Outcomes -/

/-- What bytes hold of a thing that is read from their start. -/
inductive Reading (α : Type) where
  /-- The thing, and the bytes after it. -/
  | complete (value : α) (rest : Bytes)
  /-- A proper start of it. -/
  | incomplete
  /-- Nothing that more bytes could complete. -/
  | invalid (e : Error)
  deriving Repr

/-- Goes on with the rest after a complete reading. -/
def Reading.andThen {α β : Type} (r : Reading α) (next : α → Bytes → Reading β) : Reading β :=
  match r with
  | .complete a rest => next a rest
  | .incomplete => .incomplete
  | .invalid e => .invalid e

/-- Reads `n` things one after another. -/
def repeated {α : Type} (read : Bytes → Reading α) : Nat → Bytes → Reading (List α)
  | 0, bytes => .complete [] bytes
  | n + 1, bytes =>
    (read bytes).andThen fun a rest =>
      (repeated read n rest).andThen fun as rest => .complete (a :: as) rest

/-- Reads two things one after the other. -/
def paired {α : Type} (read : Bytes → Reading α) (bytes : Bytes) : Reading (α × α) :=
  (read bytes).andThen fun a rest => (read rest).andThen fun b rest => .complete (a, b) rest

/-- A reading that goes on is complete when both parts are. -/
theorem Reading.andThen_eq_complete {α β : Type} {r : Reading α} {next : α → Bytes → Reading β}
    {b : β} {rest : Bytes} :
    r.andThen next = .complete b rest ↔
      ∃ a middle, r = .complete a middle ∧ next a middle = .complete b rest := by
  cases r with
  | complete a middle =>
    constructor
    · exact fun h => ⟨a, middle, rfl, h⟩
    · rintro ⟨a', middle', heq, h⟩
      cases heq
      exact h
  | incomplete => simp [Reading.andThen]
  | invalid e => simp [Reading.andThen]

/-! ## What stands on a line -/

/-- The text on a line. -/
def lineText (content : Bytes) : Except Error String :=
  match Bytes.text? content with
  | some text => .ok text
  | none => .error .notText

/-- The number on a line. -/
def lineInteger (content : Bytes) : Except Error Int64 := do
  let text ← lineText content
  match Decimal.readInt64? text with
  | some n => .ok n
  | none => .error .badInteger

/-- The double on a line. -/
def lineDouble (content : Bytes) : Except Error Float := do
  let text ← lineText content
  match Decimal.readFloat? text with
  | some x => .ok x
  | none => .error (.malformed (.badDouble text))

/-- The truth value on a line. -/
def lineBoolean (content : Bytes) : Except Error Bool :=
  if content = [116] then .ok true
  else if content = [102] then .ok false
  else .error (.malformed (.badBoolean (Bytes.lossyText content)))

/-- A frame that is complete once its line is read. -/
def Reading.ofLine {α : Type} (rest : Bytes) : Except Error α → Reading α
  | .ok a => .complete a rest
  | .error e => .invalid e

theorem Reading.ofLine_eq_complete {α : Type} {rest after : Bytes} {e : Except Error α} {a : α} :
    Reading.ofLine rest e = .complete a after ↔ e = .ok a ∧ rest = after := by
  cases e <;> simp [Reading.ofLine]

/-! ## Data of a given length -/

/-- Whether data of a verbatim payload begins with a format of three letters and a colon. -/
def hasFormat (data : Bytes) : Bool := data[3]? == some 58

/-- The value that data stands for, by the kind byte in front of its length. -/
def blobValue (kind : UInt8) (data : Bytes) : Except Error Value :=
  if kind = 33 then (lineText data).map .error
  else if kind = 61 ∧ hasFormat data then .ok (.bulk (data.drop 4))
  else .ok (.bulk data)

/-- Reads data of `n` bytes and the end of line behind it. -/
def readBlob (kind : UInt8) (n : Nat) (bytes : Bytes) : Reading Value :=
  match bytes.drop n with
  | a :: b :: rest =>
    if a = 13 ∧ b = 10 then .ofLine rest (blobValue kind (bytes.take n))
    else .invalid (.malformed .unterminated)
  | _ => .incomplete

/-! ## Frames -/

/-- Whether a line writes `-1`, which stands for null where null has a length or a count. -/
def writesNull (content : Bytes) : Bool :=
  match lineInteger content with
  | .ok n => n == -1
  | .error _ => false

/-- The length or count on a line; a negative one is a fault. -/
def announced (content : Bytes) (fault : Int64 → FormError) : Except Error Nat := do
  let n ← lineInteger content
  if n < 0 then .error (.malformed (fault n)) else .ok n.toNatClampNeg

/-- The aggregate of a kind byte. -/
def aggregate (kind : UInt8) (items : List Value) : Value :=
  if kind = 126 then .set items else if kind = 62 then .push items else .array items

/--
Reads a frame whose kind byte and line are known; `inner` reads the frames inside an aggregate.
-/
def frameBody (inner : Bytes → Reading Value) (kind : UInt8) (content rest : Bytes) :
    Reading Value :=
  if kind = 43 then .ofLine rest ((lineText content).map .simple)
  else if kind = 45 then .ofLine rest ((lineText content).map .error)
  else if kind = 58 then .ofLine rest ((lineInteger content).map .integer)
  else if kind = 95 then
    if content = [] then .complete .null rest else .invalid (.malformed .nullPayload)
  else if kind = 35 then .ofLine rest ((lineBoolean content).map .boolean)
  else if kind = 44 then .ofLine rest ((lineDouble content).map .double)
  else if (kind = 36 ∨ kind = 42) ∧ writesNull content then .complete .null rest
  else if kind = 36 ∨ kind = 33 ∨ kind = 61 then
    match announced content .badLength with
    | .error e => .invalid e
    | .ok n => readBlob kind n rest
  else if kind = 42 ∨ kind = 126 ∨ kind = 62 then
    match announced content .badCount with
    | .error e => .invalid e
    | .ok n =>
      (repeated inner n rest).andThen fun items rest => .complete (aggregate kind items) rest
  else if kind = 37 then
    match announced content .badMapCount with
    | .error e => .invalid e
    | .ok n =>
      (repeated (paired inner) n rest).andThen fun entries rest => .complete (.map entries) rest
  else .invalid (.malformed (.unknownKind kind))

/-- Reads a frame whose aggregates are nested at most `depth` deep. -/
def frame : Nat → Bytes → Reading Value
  | _, [] => .incomplete
  | 0, _ :: _ => .incomplete
  | depth + 1, kind :: bytes =>
    match splitLine bytes with
    | none => .incomplete
    | some (content, rest) => frameBody (frame depth) kind content rest

/-- Reads the frame at the start of the bytes. -/
def parse (bytes : Bytes) : Reading Value := frame bytes.length bytes

/-! ## Frames take bytes away -/

/-- A reader that takes bytes off the front and gives back what follows them. -/
def Shrinks {α : Type} (read : Bytes → Reading α) : Prop :=
  ∀ bytes a rest, read bytes = .complete a rest → rest <:+ bytes

theorem Shrinks.repeated {α : Type} {read : Bytes → Reading α} (h : Shrinks read) (n : Nat) :
    Shrinks (repeated read n) := by
  induction n with
  | zero =>
    intro bytes as rest hr
    cases hr
    exact List.suffix_refl _
  | succ n ih =>
    intro bytes as rest hr
    obtain ⟨a, _, ha, hr⟩ := Reading.andThen_eq_complete.1 hr
    obtain ⟨_, _, has, hr⟩ := Reading.andThen_eq_complete.1 hr
    cases hr
    exact (ih _ _ _ has).trans (h _ _ _ ha)

theorem Shrinks.paired {α : Type} {read : Bytes → Reading α} (h : Shrinks read) :
    Shrinks (paired read) := by
  intro bytes p rest hr
  obtain ⟨_, _, ha, hr⟩ := Reading.andThen_eq_complete.1 hr
  obtain ⟨_, _, hb, hr⟩ := Reading.andThen_eq_complete.1 hr
  cases hr
  exact (h _ _ _ hb).trans (h _ _ _ ha)

theorem shrinks_ofLine {α : Type} (e : Except Error α) : Shrinks (Reading.ofLine · e) := by
  intro bytes a rest h
  obtain ⟨_, rfl⟩ := Reading.ofLine_eq_complete.1 h
  exact List.suffix_refl _

theorem shrinks_readBlob (kind : UInt8) (n : Nat) : Shrinks (readBlob kind n) := by
  intro bytes v rest h
  unfold readBlob at h
  split at h
  · next a b after hdrop =>
    split at h
    · have hrest := shrinks_ofLine _ _ _ _ h
      have hafter : after <:+ bytes.drop n := hdrop ▸ ⟨[a, b], rfl⟩
      exact hrest.trans (hafter.trans (List.drop_suffix n bytes))
    · cases h
  · cases h

/--
What the kind byte and the line can leave to be read: nothing more, data of a known length, a known
number of frames, or a known number of pairs. Only the last two look inside.
-/
inductive Remains (kind : UInt8) : ((Bytes → Reading Value) → Bytes → Reading Value) → Prop where
  | nothing (e : Except Error Value) : Remains kind fun _ rest => .ofLine rest e
  | blob (n : Nat) : Remains kind fun _ rest => readBlob kind n rest
  | items (n : Nat) : Remains kind fun inner rest =>
      (repeated inner n rest).andThen fun items rest => .complete (aggregate kind items) rest
  | entries (n : Nat) : Remains kind fun inner rest =>
      (repeated (paired inner) n rest).andThen fun entries rest => .complete (.map entries) rest

/-- Every proof about `frameBody` that need not know the kind has these four cases. -/
theorem remains_frameBody (kind : UInt8) (content : Bytes) :
    Remains kind fun inner rest => frameBody inner kind content rest := by
  unfold frameBody
  by_cases hsimple : kind = 43
  · simp only [if_pos hsimple]
    exact .nothing _
  by_cases herror : kind = 45
  · simp only [if_neg hsimple, if_pos herror]
    exact .nothing _
  by_cases hinteger : kind = 58
  · simp only [if_neg hsimple, if_neg herror, if_pos hinteger]
    exact .nothing _
  simp only [if_neg hsimple, if_neg herror, if_neg hinteger]
  by_cases hnull : kind = 95
  · simp only [if_pos hnull]
    by_cases hcontent : content = []
    · simp only [if_pos hcontent]
      exact .nothing (.ok .null)
    · simp only [if_neg hcontent]
      exact .nothing (.error (.malformed .nullPayload))
  by_cases hboolean : kind = 35
  · simp only [if_neg hnull, if_pos hboolean]
    exact .nothing _
  by_cases hdouble : kind = 44
  · simp only [if_neg hnull, if_neg hboolean, if_pos hdouble]
    exact .nothing _
  simp only [if_neg hnull, if_neg hboolean, if_neg hdouble]
  by_cases hminus : (kind = 36 ∨ kind = 42) ∧ writesNull content
  · simp only [if_pos hminus]
    exact .nothing (.ok .null)
  simp only [if_neg hminus]
  by_cases hblob : kind = 36 ∨ kind = 33 ∨ kind = 61
  · simp only [if_pos hblob]
    cases announced content .badLength with
    | error e => exact .nothing (.error e)
    | ok n => exact .blob n
  simp only [if_neg hblob]
  by_cases hitems : kind = 42 ∨ kind = 126 ∨ kind = 62
  · simp only [if_pos hitems]
    cases announced content .badCount with
    | error e => exact .nothing (.error e)
    | ok n => exact .items n
  simp only [if_neg hitems]
  by_cases hmap : kind = 37
  · simp only [if_pos hmap]
    cases announced content .badMapCount with
    | error e => exact .nothing (.error e)
    | ok n => exact .entries n
  · simp only [if_neg hmap]
    exact .nothing (.error (.malformed (.unknownKind kind)))

theorem Remains.shrinks {kind : UInt8} {run : (Bytes → Reading Value) → Bytes → Reading Value}
    (h : Remains kind run) {inner : Bytes → Reading Value} (hinner : Shrinks inner) :
    Shrinks (run inner) := by
  intro bytes v rest hr
  cases h with
  | nothing e => exact shrinks_ofLine e _ _ _ hr
  | blob n => exact shrinks_readBlob kind n _ _ _ hr
  | items n =>
    obtain ⟨_, _, hitems, hv⟩ := Reading.andThen_eq_complete.1 hr
    cases hv
    exact hinner.repeated _ _ _ _ hitems
  | entries n =>
    obtain ⟨_, _, hentries, hv⟩ := Reading.andThen_eq_complete.1 hr
    cases hv
    exact hinner.paired.repeated _ _ _ _ hentries

theorem shrinks_frameBody {inner : Bytes → Reading Value} (hinner : Shrinks inner) (kind : UInt8)
    (content : Bytes) : Shrinks (frameBody inner kind content) :=
  (remains_frameBody kind content).shrinks hinner

theorem shrinks_frame (depth : Nat) : Shrinks (frame depth) := by
  induction depth with
  | zero =>
    intro bytes v rest h
    cases bytes <;> cases h
  | succ depth ih =>
    intro bytes v rest h
    cases bytes with
    | nil => cases h
    | cons kind bytes =>
      simp only [frame] at h
      split at h
      · cases h
      · next content after hline =>
        have hbody := shrinks_frameBody ih kind content _ _ _ h
        have hafter : after <:+ kind :: bytes :=
          ⟨line kind content, by rw [eq_of_splitLine hline]; simp [line]⟩
        exact hbody.trans hafter

theorem length_of_frame {depth : Nat} {bytes rest : Bytes} {v : Value}
    (h : frame depth bytes = .complete v rest) : rest.length + 3 ≤ bytes.length := by
  cases depth with
  | zero => cases bytes <;> cases h
  | succ depth =>
    cases bytes with
    | nil => cases h
    | cons kind bytes =>
      simp only [frame] at h
      split at h
      · cases h
      · next content after hline =>
        have hbody := (shrinks_frameBody (shrinks_frame depth) kind content _ _ _ h).length_le
        have hlength := length_of_splitLine hline
        simp only [List.length_cons]
        omega

/-- A complete frame takes at least three bytes away. -/
theorem length_of_parse {bytes rest : Bytes} {v : Value} (h : parse bytes = .complete v rest) :
    rest.length + 3 ≤ bytes.length :=
  length_of_frame h

end StoreTrial.Resp
