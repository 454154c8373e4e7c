/-!
# Bytes and the text they hold

Everything that crosses a connection is a finite sequence of bytes, and some of it must be text.
`Bytes.ofText` and `Bytes.text?` are the two directions of UTF-8; `Bytes.lossyText` is the reading
that never fails and marks each ill-formed stretch with the replacement character.

## Main results

* `Bytes.text?_eq_some_iff` — bytes are read as a text exactly when they are its UTF-8 form.
* `Bytes.ofText_injective` — two texts with the same bytes are the same text.
-/

namespace StoreTrial

/-- Payloads, requests and buffers are finite sequences of bytes. -/
abbrev Bytes := List UInt8

namespace Bytes

/-! ## UTF-8 -/

/-- The UTF-8 form of a text. -/
def ofText (text : String) : Bytes := text.toByteArray.data.toList

/-- The text whose UTF-8 form the bytes are, if there is one. -/
def text? (bytes : Bytes) : Option String := String.fromUTF8? ⟨bytes.toArray⟩

@[simp] theorem text?_ofText (text : String) : text? (ofText text) = some text := by
  have h : (⟨(ofText text).toArray⟩ : ByteArray) = text.toByteArray := by
    simp [ofText]
  unfold text? String.fromUTF8?
  rw [h, dif_pos text.isValidUTF8]
  rfl

/-- Bytes are read as a text exactly when they are its UTF-8 form. -/
theorem text?_eq_some_iff {bytes : Bytes} {text : String} :
    text? bytes = some text ↔ bytes = ofText text := by
  constructor
  · intro h
    unfold text? String.fromUTF8? at h
    split at h
    · obtain rfl := Option.some.inj h
      simp [ofText, String.fromUTF8]
    · cases h
  · rintro rfl
    exact text?_ofText text

/-- Two texts with the same bytes are the same text. -/
theorem ofText_injective {s t : String} (h : ofText s = ofText t) : s = t := by
  have := text?_ofText s
  rw [h, text?_ofText] at this
  exact (Option.some.inj this).symm

/-- The bytes of a text are those of its characters, one after another. -/
theorem ofText_eq_flatMap (text : String) :
    ofText text = text.toList.flatMap String.utf8EncodeChar := by
  unfold ofText
  rw [← String.utf8Encode_toList]
  simp [List.utf8Encode]

/-- Only a carriage return is written with the byte of one. -/
theorem eq_of_mem_utf8EncodeChar {c : Char} (h : (13 : UInt8) ∈ String.utf8EncodeChar c) :
    c = '\r' := by
  have hnat : ∀ n : Nat, (13 : UInt8) = UInt8.ofNat n → n % 256 = 13 := by
    intro n hn
    have := congrArg UInt8.toNat hn
    simpa using this.symm
  apply Char.ext
  apply UInt32.toNat_inj.mp
  show c.val.toNat = 13
  unfold String.utf8EncodeChar at h
  simp only at h
  -- every byte of a longer form has its high bit set
  split at h
  · have := hnat _ (List.mem_singleton.1 h)
    omega
  · split at h
    · simp only [List.mem_cons, List.not_mem_nil, or_false] at h
      rcases h with h | h <;> have := hnat _ h <;> omega
    · split at h
      · simp only [List.mem_cons, List.not_mem_nil, or_false] at h
        rcases h with h | h | h <;> have := hnat _ h <;> omega
      · simp only [List.mem_cons, List.not_mem_nil, or_false] at h
        rcases h with h | h | h | h <;> have := hnat _ h <;> omega

/-! ## Reading text that may be ill-formed -/

/-- Shown in place of bytes that are no text. -/
def replacement : Char := '\ufffd'

/-- A continuation byte of a longer UTF-8 sequence. -/
def isContinuation (b : UInt8) : Bool := 0x80 ≤ b && b ≤ 0xBF

/--
How many continuation bytes follow a first byte outside ASCII, and the range the first of them
must lie in; bytes that start no sequence have none.
-/
def lead? (b : UInt8) : Option (Nat × UInt8 × UInt8) :=
  if 0xC2 ≤ b && b ≤ 0xDF then some (1, 0x80, 0xBF)
  else if b == 0xE0 then some (2, 0xA0, 0xBF)
  else if b == 0xED then some (2, 0x80, 0x9F)
  else if 0xE1 ≤ b && b ≤ 0xEF then some (2, 0x80, 0xBF)
  else if b == 0xF0 then some (3, 0x90, 0xBF)
  else if 0xF1 ≤ b && b ≤ 0xF3 then some (3, 0x80, 0xBF)
  else if b == 0xF4 then some (3, 0x80, 0x8F)
  else none

/-- The longest start of `rest`, of at most `count` bytes, that can continue a sequence. -/
def continuation (count : Nat) (low high : UInt8) (rest : Bytes) : Bytes :=
  match rest with
  | b :: rest =>
    if count != 0 && low ≤ b && b ≤ high then b :: (rest.take (count - 1)).takeWhile isContinuation
    else []
  | [] => []

/--
The characters of the text, each longest ill-formed stretch that could have started a character
shown as one replacement character.
-/
def lossyChars : Bytes → List Char
  | [] => []
  | a :: rest =>
    if a < 0x80 then Char.ofNat a.toNat :: lossyChars rest
    else
      match lead? a with
      | none => replacement :: lossyChars rest
      | some (count, low, high) =>
        let more := continuation count low high rest
        let read := if more.length = count then (text? (a :: more)).bind (·.toList.head?) else none
        read.getD replacement :: lossyChars (rest.drop more.length)
  termination_by bytes => bytes.length
  decreasing_by all_goals (simp only [List.length_cons, List.length_drop]; omega)

/-- The text, with ill-formed stretches replaced. -/
def lossyText (bytes : Bytes) : String := String.ofList (lossyChars bytes)

/-! ## ASCII case -/

/-- The lower-case form of an ASCII letter; other bytes are kept. -/
def lowerByte (b : UInt8) : UInt8 := if 65 ≤ b && b ≤ 90 then b + 32 else b

/-- Equality up to the case of ASCII letters. -/
def sameIgnoringCase (a b : Bytes) : Bool := a.map lowerByte == b.map lowerByte

end Bytes

end StoreTrial
