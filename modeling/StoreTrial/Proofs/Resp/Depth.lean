import StoreTrial.Resp.Parse

/-!
# The depth bound of a reading never binds

`parse` reads aggregates to a depth bounded by the number of bytes.  Each level of an aggregate
takes a line off the front, so the bound is never reached, and every larger bound gives the same
reading.  What is left is the recursive equation that reads as the grammar does: a kind byte, a
line, and then whatever these two announce.

## Main results

* `frame_eq_parse` — every depth that is at least the number of bytes reads alike.
* `parse_cons` — the recursive equation of `parse`, without any bound.
-/

namespace StoreTrial.Resp

/-- Two readers agree on every input of at most `n` bytes. -/
def AgreeUpTo {α : Type} (n : Nat) (read read' : Bytes → Reading α) : Prop :=
  ∀ bytes : Bytes, bytes.length ≤ n → read bytes = read' bytes

section Agreement

variable {α : Type} {n : Nat} {read read' : Bytes → Reading α}

/-- Readers that agree go on alike, since what is left after a reading is no longer. -/
theorem AgreeUpTo.andThen {β : Type} (h : AgreeUpTo n read read') (hs : Shrinks read')
    {next next' : α → Bytes → Reading β} (hnext : ∀ a, AgreeUpTo n (next a) (next' a)) :
    AgreeUpTo n (fun bytes => (read bytes).andThen next)
      (fun bytes => (read' bytes).andThen next') := by
  intro bytes hlength
  show (read bytes).andThen next = (read' bytes).andThen next'
  rw [h bytes hlength]
  cases hr : read' bytes with
  | complete a rest =>
    have hrest : rest.length ≤ bytes.length := (hs _ _ _ hr).length_le
    exact hnext a rest (Nat.le_trans hrest hlength)
  | incomplete => rfl
  | invalid e => rfl

theorem AgreeUpTo.repeated (h : AgreeUpTo n read read') (hs : Shrinks read') (count : Nat) :
    AgreeUpTo n (repeated read count) (repeated read' count) := by
  induction count with
  | zero => exact fun _ _ => rfl
  | succ count ih =>
    exact h.andThen hs fun _ => ih.andThen (hs.repeated count) fun _ _ _ => rfl

theorem AgreeUpTo.paired (h : AgreeUpTo n read read') (hs : Shrinks read') :
    AgreeUpTo n (paired read) (paired read') :=
  h.andThen hs fun _ => h.andThen hs fun _ _ _ => rfl

end Agreement

theorem Remains.agree {kind : UInt8} {run : (Bytes → Reading Value) → Bytes → Reading Value}
    (h : Remains kind run) {n : Nat} {inner inner' : Bytes → Reading Value}
    (hinner : AgreeUpTo n inner inner') (hs : Shrinks inner') :
    AgreeUpTo n (run inner) (run inner') := by
  cases h with
  | nothing e => exact fun _ _ => rfl
  | blob count => exact fun _ _ => rfl
  | items count =>
    exact (hinner.repeated hs count).andThen (hs.repeated count) fun _ _ _ => rfl
  | entries count =>
    exact ((hinner.paired hs).repeated hs.paired count).andThen (hs.paired.repeated count)
      fun _ _ _ => rfl

/-- Below the number of bytes the depth makes no difference. -/
theorem frame_agree {n depth depth' : Nat} (h : n ≤ depth) (h' : n ≤ depth') :
    AgreeUpTo n (frame depth) (frame depth') := by
  induction n generalizing depth depth' with
  | zero =>
    intro bytes hlength
    have hnil : bytes = [] := List.eq_nil_of_length_eq_zero (by omega)
    subst hnil
    cases depth <;> cases depth' <;> rfl
  | succ n ih =>
    obtain ⟨depth, rfl⟩ : ∃ d, depth = d + 1 := ⟨depth - 1, by omega⟩
    obtain ⟨depth', rfl⟩ : ∃ d, depth' = d + 1 := ⟨depth' - 1, by omega⟩
    intro bytes hlength
    cases bytes with
    | nil => rfl
    | cons kind bytes =>
      simp only [frame]
      cases hline : splitLine bytes with
      | none => rfl
      | some found =>
        obtain ⟨content, rest⟩ := found
        have hinner : AgreeUpTo n (frame depth) (frame depth') := ih (by omega) (by omega)
        have hrest : rest.length ≤ n := by
          have := length_of_splitLine hline
          simp only [List.length_cons] at hlength
          omega
        exact (remains_frameBody kind content).agree hinner (shrinks_frame depth') rest hrest

/-- Every depth that is at least the number of bytes reads alike. -/
theorem frame_eq_parse {depth : Nat} {bytes : Bytes} (h : bytes.length ≤ depth) :
    frame depth bytes = parse bytes :=
  frame_agree h (Nat.le_refl _) bytes (Nat.le_refl _)

theorem shrinks_parse : Shrinks parse :=
  fun bytes v rest h => shrinks_frame bytes.length bytes v rest h

@[simp] theorem parse_nil : parse [] = .incomplete := rfl

/-- A frame is a kind byte, a line, and what these two announce. -/
theorem parse_cons (kind : UInt8) (bytes : Bytes) :
    parse (kind :: bytes) =
      match splitLine bytes with
      | none => .incomplete
      | some (content, rest) => frameBody parse kind content rest := by
  show frame (bytes.length + 1) (kind :: bytes) = _
  simp only [frame]
  cases hline : splitLine bytes with
  | none => rfl
  | some found =>
    obtain ⟨content, rest⟩ := found
    have hinner : AgreeUpTo rest.length (frame bytes.length) parse := by
      intro inside hinside
      have := length_of_splitLine hline
      exact frame_eq_parse (by omega)
    exact (remains_frameBody kind content).agree hinner shrinks_parse rest (Nat.le_refl _)

/-- A frame whose line is known to be complete. -/
theorem parse_line (kind : UInt8) {content : Bytes} (rest : Bytes)
    (h : hasCrlf content = false) :
    parse (line kind content ++ rest) = frameBody parse kind content rest := by
  have hsplit := splitLine_append_crlf rest h
  have hshape : line kind content ++ rest = kind :: (content ++ crlf ++ rest) := rfl
  rw [hshape, parse_cons, hsplit]

end StoreTrial.Resp
